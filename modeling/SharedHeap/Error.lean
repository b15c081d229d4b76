import SharedHeap.Files
import SharedHeap.Text.Quoted

/-!
What can go wrong in setting up: reading a configuration, reading the environment, and starting the
logger. Everything that a heap itself does is total.
-/

namespace SharedHeap

inductive LoggingFault where
  | notAFilePath (path : String)
  | alreadyReceived
  deriving DecidableEq

def LoggingFault.text : LoggingFault → String
  | notAFilePath path => "not a file path: " ++ path
  | alreadyReceived => "a global default trace dispatcher has already been set"

inductive Error where
  | readConfig (path : String) (cause : FileError)
  | parseConfig
  | invalidEnv (variableName value : String)
  | logging (fault : LoggingFault)
  deriving DecidableEq

namespace Error

/-- An error in words. What is wrong in a text that is no configuration is not recorded, so there
are no words for it. -/
def message? : Error → Option String
  | readConfig path cause => some ("Failed to read config " ++ path ++ ": " ++ cause.text)
  | parseConfig => none
  | invalidEnv name value => some ("Invalid value for " ++ name ++ ": " ++ Text.quoted value)
  | logging fault => some ("Failed to initialize logging: " ++ fault.text)

def hasCause : Error → Bool
  | readConfig _ _ | parseConfig => true
  | invalidEnv _ _ | logging _ => false

end Error

end SharedHeap
