import SharedHeap.Config
import SharedHeap.Environment
import SharedHeap.Error
import SharedHeap.Text.Blank

/-!
Configurations overridden by the environment. The step is looked at first; if its text is not
acceptable nothing is overridden, and if only the other text is not acceptable the step already is.
-/

namespace SharedHeap.Config

def stepVariable : String := "CROSSGC_STEP"

def stoppedVariable : String := "CROSSGC_STOPPED"

/-- Reads a step: ASCII digits after at most one plus, with blanks around them. -/
def readStep? (s : String) : Option Nat :=
  (Text.readUnsigned? (Text.trim s.toList)).filter (· < UInt64.size)

/-- Reads a flag, in any case and without blanks around it. -/
def readFlag? (s : String) : Option Bool :=
  if ["1", "true", "yes"].any (Text.lowersTo s) then some true
  else if ["0", "false", "no"].any (Text.lowersTo s) then some false
  else none

/-- A new value for a setting, if the text of the variable is set. -/
def override (name : String) (text : Option String) (read : String → Option α) (current : α) :
    Except Error α :=
  match text with
  | none => .ok current
  | some s =>
    match read s with
    | some a => .ok a
    | none => .error (.invalidEnv name s)

/-- A configuration after the environment overrode it, and what stopped that halfway. -/
def applyEnvironment (c : Config) (env : Environment) : Config × Option Error :=
  match override stepVariable (env.text? stepVariable) readStep? c.step with
  | .error e => (c, some e)
  | .ok step =>
    let c := { c with step }
    match override stoppedVariable (env.text? stoppedVariable) readFlag? c.startStopped with
    | .error e => (c, some e)
    | .ok startStopped => ({ c with startStopped }, none)

/-- The default configuration, overridden by the environment. -/
def ofEnvironment (env : Environment) : Except Error Config :=
  match ({} : Config).applyEnvironment env with
  | (c, none) => .ok c
  | (_, some e) => .error e

end SharedHeap.Config
