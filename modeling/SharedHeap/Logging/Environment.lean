import SharedHeap.Environment
import SharedHeap.Logging.Settings

/-!
Settings of the logger that come from the environment.
-/

namespace SharedHeap.Logging.Settings

/-- The settings in the environment. The two switches are on whenever their variables have a text,
whatever it says. -/
def ofEnvironment (env : Environment) : Settings where
  level := ((env.text? "CROSSGC_LOG_LEVEL").map Level.ofName).getD .info
  path := env.text? "CROSSGC_LOG_FILE"
  json := (env.text? "CROSSGC_LOG_JSON").isSome
  spans := (env.text? "CROSSGC_LOG_SPANS").isSome

end SharedHeap.Logging.Settings
