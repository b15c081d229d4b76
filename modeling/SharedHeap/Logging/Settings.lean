import SharedHeap.Logging.Level

/-!
Settings of the logger.
-/

namespace SharedHeap.Logging

structure Settings where
  level : Level := .info
  /-- The log file; standard error if there is none. -/
  path : Option String := none
  /-- Lines are JSON objects. -/
  json : Bool := false
  /-- Entering and leaving spans is written too. -/
  spans : Bool := false
  deriving DecidableEq

/-- Everything that happens, with spans. -/
def Settings.verbose : Settings := { level := .trace, spans := true }

end SharedHeap.Logging
