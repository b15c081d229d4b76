import SharedHeap.Event
import SharedHeap.Files
import SharedHeap.Logging.Line

/-!
What the logger leaves to others: to read filters and to apply them, to open log files, and to decide
who receives the events of a process. All of it is a parameter of the logger. What the logger relies on
is stated here as properties of that parameter, one for each promise.
-/

namespace SharedHeap.Logging

/-- A file with what it held when the process started, and the lines written since, the latest
first. -/
structure LogFile where
  before : ByteArray := .empty
  lines : List Line := []

/-- What the file holds now; nothing if that is no text. -/
def LogFile.text (clock : Clock) (f : LogFile) : String :=
  match String.fromUTF8? f.before with
  | some before => before ++ linesText clock f.lines.reverse
  | none => ""

inductive Sink where
  | standardError
  | file (l : Location)

/-- Who receives the events of a process, where `φ` are the filters. -/
inductive Receiver (φ : Type) where
  | logger (filter : φ) (json : Bool) (sink : Sink)
  /-- Something else, which drops them. -/
  | foreign

/-- What comes of reading the text of a filter. -/
inductive Reading (φ : Type) where
  | filter (f : φ)
  | malformed
  /-- The reader does not return: the process panics. -/
  | crashed

structure Facilities (φ : Type) where
  /-- Reads the text of a filter. -/
  read : String → Reading φ
  /-- Reads the text of a filter, and leaves out whatever is malformed in it. -/
  readLeniently : String → φ
  /-- Whether a filter lets an event through. -/
  enables : φ → Event → Bool
  /-- Opens the file with this name in this directory, so that lines can be added to it. -/
  openFile : Files LogFile → (directory file : String) → Except FileError Location × Files LogFile
  /-- Whether a request to receive the events is granted, given who receives them so far. -/
  grants : Option (Receiver φ) → Bool

/-- The text of the filter for the library's own targets up to a level. -/
def ownDirective (l : Level) : String := "crossgc=" ++ String.ofList (l.name.toList.map Char.toLower)

namespace Facilities

variable {φ : Type}

/-- The reader of filters returns for every text, be it with an error. -/
def Returns (tools : Facilities φ) : Prop := ∀ text, tools.read text ≠ .crashed

/-- The first request to receive the events is granted, and no other. -/
def Exclusive (tools : Facilities φ) : Prop := ∀ r, tools.grants r = r.isNone

/-- The own filter of a level lets through what comes from targets that start with the library's name
and is at most as verbose as the level. -/
def OwnTargets (tools : Facilities φ) : Prop :=
  ∀ l e, tools.enables (tools.readLeniently (ownDirective l)) e =
    ("crossgc".toList.isPrefixOf e.target.toList && decide (e.level.verbosity ≤ l.verbosity))

/-- Where a file was opened there is a file. -/
def KeepsFiles (tools : Facilities φ) : Prop :=
  ∀ files directory file l files', tools.openFile files directory file = (.ok l, files') →
    ∃ f, files'.at? l = some (.file f)

end Facilities

end SharedHeap.Logging
