import SharedHeap.Json.Reader
import SharedHeap.Logging.Level
import SharedHeap.Text.Lines
import SharedHeap.Text.Styled

/-!
Transcripts: what the lines of a log say. A log may hold lines of other programs, which say nothing,
or seem to say something if they look like lines of this one. How long something took and warnings
are left out.
-/

namespace SharedHeap.Logging

inductive Entry where
  /-- A line that is a JSON object with fields. The level and the target may be missing or may be
  any value. -/
  | object (level target : Json.Value) (fields : List (String × Json.Value))
  /-- A line for people. -/
  | plain (level : Level) (target : String)
  | other (text : String)

namespace Entry

/-- The level of a name. -/
def levelNamed? (word : List Char) : Option Level :=
  [Level.trace, .debug, .info, .warn, .error].find? fun l => l.name.toList == word

/-- The target among the words after a level: the first one that ends with colons, without them. -/
def targetIn (words : List (List Char)) : String :=
  match words.find? fun word => word.getLast? == some ':' with
  | some word => String.ofList (word.reverse.dropWhile (· == ':')).reverse
  | none => ""

/-- What a line without styles says to people: its second word may be a level. -/
def ofWords (line : List Char) : Entry :=
  match Text.words line with
  | _ :: word :: rest =>
    match levelNamed? word with
    | some l => plain l (targetIn rest)
    | none => other (String.ofList line)
  | _ => other (String.ofList line)

def ofValue? : Json.Value → Option Entry
  | .object members =>
    match Json.member "fields" members with
    | .object fields =>
      some (object (Json.member "level" members) (Json.member "target" members)
        (fields.filter (·.1 != "duration_us")))
    | _ => none
  | _ => none

/-- What a line says. Only lines for people have styles. -/
def ofLine (line : List Char) : Entry :=
  ((Json.parse? line).bind ofValue?).getD (ofWords (Text.plain false line))

def isWarning : Entry → Bool
  | object (.string s) _ _ => s == Level.warn.name
  | plain .warn _ => true
  | _ => false

end Entry

def transcript (text : String) : List Entry :=
  ((Text.lines text.toList).map Entry.ofLine).filter (!·.isWarning)

end SharedHeap.Logging
