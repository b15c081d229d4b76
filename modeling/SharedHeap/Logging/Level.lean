import SharedHeap.Text.Case

/-!
Levels of log events, from the most verbose to the least.
-/

namespace SharedHeap

inductive Level where
  | trace
  | debug
  | info
  | warn
  | error
  deriving DecidableEq

namespace Level

/-- Zero for the least verbose level. -/
def verbosity : Level → Nat
  | error => 0
  | warn => 1
  | info => 2
  | debug => 3
  | trace => 4

def name : Level → String
  | trace => "TRACE"
  | debug => "DEBUG"
  | info => "INFO"
  | warn => "WARN"
  | error => "ERROR"

/-- The level of a name in any case; a name of no level means `info`. -/
def ofName (s : String) : Level :=
  if Text.lowersTo s "trace" then trace
  else if Text.lowersTo s "debug" then debug
  else if Text.lowersTo s "info" then info
  else if Text.lowersTo s "warn" then warn
  else if Text.lowersTo s "error" then error
  else info

end Level

end SharedHeap
