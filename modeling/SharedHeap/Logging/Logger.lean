import SharedHeap.Error
import SharedHeap.Logging.Facilities
import SharedHeap.Logging.Settings

/-!
The logger of a process. A process gives its events to at most one receiver, for good: the logger
that is started here, or another one that is not of interest. Starting the logger again does
nothing; starting it in vain leaves it to be started later.
-/

namespace SharedHeap.Logging

/-- The state of logging in a process, where `φ` are the filters. -/
structure Logger (φ : Type) where
  receiver : Option (Receiver φ) := none
  initialized : Bool := false
  files : Files LogFile := {}
  /-- Lines on standard error, the latest first. -/
  errorLines : List Line := []

inductive Start where
  /-- Done, now or before. There is a guard, which writes out what is buffered, if the logger was
  started now and writes to a file. -/
  | done (guard : Bool)
  | refused (fault : LoggingFault)
  /-- The log file cannot be opened, or the reader of filters does not return: the process panics. -/
  | crashed
  deriving DecidableEq

namespace Logger

variable {φ : Type}

def errorText (clock : Clock) (s : Logger φ) : String := linesText clock s.errorLines.reverse

def write (s : Logger φ) (line : Line) : Sink → Logger φ
  | .standardError => { s with errorLines := line :: s.errorLines }
  | .file l => { s with files := s.files.modify l fun f => { f with lines := line :: f.lines } }

variable (tools : Facilities φ)

/-- Asks for the events of the process on behalf of `r`. -/
def install (s : Logger φ) (r : Receiver φ) : Bool × Logger φ :=
  if tools.grants s.receiver then (true, { s with receiver := some r }) else (false, s)

/-- Opens what a log path leads to. -/
def openSink (s : Logger φ) : Option String → Except Start (Sink × Bool) × Logger φ
  | none => (.ok (.standardError, false), s)
  | some path =>
    match Path.splitFile? path with
    | none => (.error (.refused (.notAFilePath path)), s)
    | some (directory, file) =>
      match tools.openFile s.files directory file with
      | (.ok l, files) => (.ok (.file l, true), { s with files })
      | (.error _, files) => (.error .crashed, { s with files })

/-- The filter to use, if its reader returns: `directives` is the text of one that goes before the
level of the settings, unless it is malformed. -/
def chooseFilter? (directives : Option String) (level : Level) : Option φ :=
  match directives.map tools.read with
  | some (.filter f) => some f
  | some .crashed => none
  | _ => some (tools.readLeniently (ownDirective level))

/-- Starts the logger. `directives` is the text of a filter. -/
def start (s : Logger φ) (directives : Option String) (settings : Settings) : Start × Logger φ :=
  if s.initialized then (.done false, s)
  else
    match chooseFilter? tools directives settings.level with
    | none => (.crashed, s)
    | some filter =>
      match s.openSink tools settings.path with
      | (.error failure, s) => (failure, s)
      | (.ok (sink, guard), s) =>
        match s.install tools (.logger filter settings.json sink) with
        | (false, s) => (.refused .alreadyReceived, s)
        | (true, s) => (.done guard, { s with initialized := true })

def record (s : Logger φ) (e : Event) : Logger φ :=
  match s.receiver with
  | some (.logger filter json sink) =>
    if tools.enables filter e then s.write ⟨json, e⟩ sink else s
  | _ => s

end Logger

end SharedHeap.Logging
