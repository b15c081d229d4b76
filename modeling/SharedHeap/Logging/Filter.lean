import SharedHeap.Logging.Condition
import SharedHeap.Logging.Facilities
import SharedHeap.Text.Bytes
import SharedHeap.Text.Pieces

/-!
The facilities that programs run with. A filter of theirs is a list of directives, separated by commas
in text; of those that apply to an event the most specific one decides how verbose the event may be.

A directive is a level, or a target, or a target and a level with `=` between them; after the target
there may be a span and a field in brackets. Without a level it lets everything through.

What is stated about the logger is stated about any facilities; these are one example, and the reader
of directives here is not one that returns for every text.
-/

namespace SharedHeap.Logging

/-- One rule of a filter. -/
structure Directive where
  /-- The start of the targets that the rule is about; all of them if there is none. -/
  target : Option String := none
  /-- The span that the rule is about. -/
  span : Option String := none
  field : Option FieldCondition := none
  /-- The most verbose level that passes, if any level does. -/
  limit : Option Level := some .trace
  deriving DecidableEq

abbrev Filter := List Directive

inductive FilterFault where
  | malformed
  /-- A part of it would start or end within a character. -/
  | brokenCharacter
  deriving DecidableEq

namespace Directive

/-! ## Reading -/

/-- Reads a limit: the name of a level or `off`, in any case, or a number from 0 to 5. -/
def readLimit? (cs : List Char) : Option (Option Level) :=
  let named (word : String) : Bool := cs.map Char.toLower == word.toList
  match Text.readUnsigned? cs with
  | some 0 => some none
  | some 1 => some (some .error)
  | some 2 => some (some .warn)
  | some 3 => some (some .info)
  | some 4 => some (some .debug)
  | some 5 => some (some .trace)
  | some _ => none
  | none =>
    if named "error" then some (some .error)
    else if named "warn" then some (some .warn)
    else if named "info" then some (some .info)
    else if named "debug" then some (some .debug)
    else if named "trace" then some (some .trace)
    else if named "off" then some none
    else none

/-- Whether a directive can start with this character, if not with a bracket. -/
def isStart (c : Char) : Bool := c == '-' || c == ':' || c == '_' || Text.isAlphanumeric c

/-- Whether a bracket with a span or the braces with a field end here. -/
def endsName (c : Char) : Bool := c == ']' || c == '\x7b'

/-- Reads one directive. Its parts are found in the text without the blanks around it, but are cut
out by their places, in bytes, of the text as it stands. So blanks in front of a directive or behind
it make it name something else, or invalid, or impossible to cut. -/
def read (piece : List Char) : Except FilterFault Directive :=
  let found := Text.trim piece
  match found with
  | [] => .error .malformed
  | '[' :: r => readSpan {} 1 r
  | c :: _ =>
    if isStart c then
      let (front, r) := found.span fun c => c != '=' && c != '['
      let stop := Text.byteCount front
      match r with
      | [] =>
        match readLimit? piece with
        | some limit => .ok { limit }
        | none => .ok { target := String.ofList piece }
      | '[' :: r => do
        let target ← cut 0 stop
        readSpan { target } (stop + 1) r
      | _ => do
        let target ← cut 0 stop
        readRest { target } (stop + 1)
    else .error .malformed
where
  /-- Cuts out what lies between two places. -/
  cut (start stop : Nat) : Except FilterFault String :=
    match Text.betweenBytes? start stop piece with
    | some cs => .ok (String.ofList cs)
    | none => .error .brokenCharacter
  /-- Reads a limit from a place to the end; without a text there is none. -/
  readRest (d : Directive) (start : Nat) : Except FilterFault Directive :=
    match Text.fromByte? start piece with
    | none => .error .brokenCharacter
    | some [] => .ok d
    | some cs =>
      match readLimit? cs with
      | some limit => .ok { d with limit }
      | none => .error .malformed
  readEnd (d : Directive) (start : Nat) : List Char → Except FilterFault Directive
    | [] => .ok d
    | '=' :: _ => readRest d (start + 1)
    | _ => .error .malformed
  readSpan (d : Directive) (start : Nat) (cs : List Char) : Except FilterFault Directive :=
    let (name, r) := cs.span (!endsName ·)
    let stop := start + Text.byteCount name
    match r with
    | ']' :: r => do
      let span ← cut start stop
      readEnd { d with span := some span } (stop + 1) r
    | '\x7b' :: r => do
      let span ← cut start stop
      let d := if span = "" then d else { d with span := some span }
      readField d (stop + 1) r
    | _ => .error .malformed
  readField (d : Directive) (start : Nat) (cs : List Char) : Except FilterFault Directive :=
    let (text, r) := cs.span (· != '\x7d')
    let stop := start + Text.byteCount text
    match r with
    | _ :: r => do
      let text ← cut start stop
      match FieldCondition.read? text.toList, r with
      | some field, ']' :: r =>
        if text = "" then .error .malformed
        else readEnd { d with field := some field } (stop + 2) r
      | _, _ => .error .malformed
    | [] => .error .malformed

/-! ## Applying -/

/-- Whether a directive is about an event. Nothing here runs within a span, so one that is about a
span or about the value of a span's field is about no event. -/
def appliesTo (d : Directive) (e : Event) : Bool :=
  d.span.isNone &&
    (match d.target with
      | none => true
      | some t => t.toList.isPrefixOf e.target.toList) &&
    match d.field with
      | none => true
      | some condition => condition.value.isNone && e.fieldNames.contains condition.name

/-- Compares how specific directives are: first by the lengths of their targets, where none counts
as shorter than any, then by their fields. -/
def specificity (a b : Directive) : Ordering :=
  (compare (a.target.map String.utf8ByteSize) (b.target.map String.utf8ByteSize)).then
    (compare (a.field.map FieldCondition.name) (b.field.map FieldCondition.name))

def passes (d : Directive) (l : Level) : Bool :=
  match d.limit with
  | none => false
  | some limit => l.verbosity ≤ limit.verbosity

end Directive

namespace Filter

/-- Reads a filter. Empty pieces count for nothing; the first fault in the others decides. -/
def read (text : String) : Except FilterFault Filter :=
  ((Text.pieces ',' text.toList).filter (!·.isEmpty)).mapM Directive.read

/-- Reads the directives of a filter that are well formed. -/
def readLeniently (text : String) : Filter :=
  (Text.pieces ',' text.toList).filterMap fun piece => (Directive.read piece).toOption

/-- The most specific directive about an event; of equally specific ones the last. -/
def decisive? (f : Filter) (e : Event) : Option Directive :=
  (f.filter (·.appliesTo e)).foldl (fun best d =>
    match best with
    | some b => if b.specificity d = .gt then some b else some d
    | none => some d) none

def enables (f : Filter) (e : Event) : Bool :=
  match f.decisive? e with
  | some d => d.passes e.level
  | none => false

end Filter

def Facilities.usual : Facilities Filter where
  read text :=
    match Filter.read text with
    | .ok f => .filter f
    | .error .malformed => .malformed
    | .error .brokenCharacter => .crashed
  readLeniently := Filter.readLeniently
  enables := Filter.enables
  openFile files directory file := files.openInDirectory directory file {}
  grants receiver := receiver.isNone

@[simp] theorem Facilities.readLeniently_usual : usual.readLeniently = Filter.readLeniently := rfl

@[simp] theorem Facilities.enables_usual : usual.enables = Filter.enables := rfl

end SharedHeap.Logging
