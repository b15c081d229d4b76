import SharedHeap.Event
import SharedHeap.Json.Writer
import SharedHeap.Text.Quoted
import SharedHeap.Text.Styled

/-!
Log lines: how events are written, either as JSON objects or for people. A line says when it was
written, and the line of a timed event how long that took; neither is part of the event.
-/

namespace SharedHeap.Logging

structure Clock where
  time : String
  /-- The time that timed events took, in microseconds. -/
  elapsed : Nat

structure Line where
  /-- The line is a JSON object; otherwise it is for people. -/
  json : Bool
  event : Event

namespace Line

/-- The fields of an event with the time that it took. -/
def timedFields (clock : Clock) (e : Event) : List (String × Event.Field) :=
  e.fields ++ if e.isTimed then [("duration_us", .number clock.elapsed)] else []

/-! ## JSON -/

def jsonField : Event.Field → Json.Value
  | .number n => .integer n
  | .flag b => .boolean b
  | .text s => .string s

def jsonObject (clock : Clock) (e : Event) : Json.Value :=
  let message := match e.message with
    | some m => [("message", .string m)]
    | none => []
  let fields := (timedFields clock e).map fun (name, v) => (name, jsonField v)
  .object [
    ("timestamp", .string clock.time),
    ("level", .string e.level.name),
    ("fields", .object (message ++ fields)),
    ("target", .string e.target)]

/-! ## For people -/

def levelStyle : Level → String
  | .error => "31"
  | .warn => "33"
  | .info => "32"
  | .debug => "34"
  | .trace => "35"

/-- The name of a level, five characters wide. -/
def paddedName (l : Level) : String :=
  String.ofList (List.replicate (5 - l.name.length) ' ') ++ l.name

/-- A field; what kind of event it is stands in quotes, other texts stand as they are. -/
def plainField : String × Event.Field → String
  | (name, v) =>
    let v := match v with
      | .number n => Text.decimal n
      | .flag b => if b then "true" else "false"
      | .text s => if name = "event" then Text.quoted s else s
    Text.italic name ++ Text.dimmed "=" ++ v

def plainText (clock : Clock) (e : Event) : String :=
  let parts := e.message.toList ++ (timedFields clock e).map plainField
  Text.dimmed clock.time ++ " " ++ Text.styled (levelStyle e.level) (paddedName e.level) ++ " " ++
    Text.dimmed e.target ++ Text.dimmed ":" ++ " " ++ " ".intercalate parts

/-- A line without its end. Only a text in a line for people can make it more than one line. -/
def text (clock : Clock) (l : Line) : String :=
  if l.json then (jsonObject clock l.event).text else plainText clock l.event

end Line

def linesText (clock : Clock) (ls : List Line) : String :=
  String.join (ls.map fun l => l.text clock ++ "\n")

end SharedHeap.Logging
