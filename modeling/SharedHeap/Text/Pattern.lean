import SharedHeap.Text.Alphanumeric
import SharedHeap.Text.Blank
import SharedHeap.Text.Digits
import SharedHeap.Text.Reader

/-!
Patterns: which texts are regular expressions. Nothing is matched here; reading a pattern only tells
how deeply its parts are nested.

A pattern is about characters while the flag `u` is on, and about bytes while it is off. No letter
cases and no named classes beyond ASCII are known, so what needs them is refused while `u` is on.
While it is off, what could match a part of a character is refused. There are neither counted
repetitions nor escapes in braces.
-/

namespace SharedHeap.Text.Pattern

structure Flags where
  unicode : Bool := true
  ignoreCase : Bool := false
  /-- The flag `x`: blanks and comments have no meaning. -/
  ignoreBlanks : Bool := false

/-- The text after blanks and comments. A comment goes from `#` to the end of the line. -/
def skipLayout (inComment : Bool) : List Char → List Char
  | [] => []
  | c :: cs =>
    if inComment then skipLayout (c != '\n') cs
    else if c == '#' then skipLayout true cs
    else if isBlank c then skipLayout false cs
    else c :: cs

def Flags.skip (f : Flags) (cs : List Char) : List Char :=
  if f.ignoreBlanks then skipLayout false cs else cs

/-- How deep something is that consists of parts of these depths, if a single part is no step
deeper. -/
def depthOf : List Nat → Nat
  | [] => 0
  | [d] => d
  | ds => ds.foldl max 0 + 1

def depthLimit : Nat := 250

/-! ## Atoms -/

inductive Atom where
  | literal (c : Char)
  /-- A literal that is given by the two digits of a byte. -/
  | byte (c : Char)
  /-- A class with a letter for a name, or the complement of one. -/
  | named (complement : Bool)
  | anything
  /-- The start or the end of a line or of the text. -/
  | border
  | wordBorder

def isASCII (c : Char) : Bool := c.toNat < 128

/-- Whether a pattern may hold an atom outside classes. -/
def Atom.isAllowed (f : Flags) : Atom → Bool
  | literal _ => !(f.unicode && f.ignoreCase)
  | byte c => if f.unicode then !f.ignoreCase else isASCII c
  | named complement => !f.unicode && !complement
  | anything => f.unicode
  | border => true
  | wordBorder => !f.unicode

/-- Whether a class may hold an atom. -/
def Atom.isAllowedInClass (f : Flags) : Atom → Bool
  | literal c | byte c => if f.unicode then !f.ignoreCase else isASCII c
  | named complement => !f.unicode && !complement
  | _ => false

def Atom.char? : Atom → Option Char
  | literal c | byte c => some c
  | _ => none

/-- The next `n` hexadecimal digits. -/
def hexDigits (f : Flags) : (n : Nat) → Reader (List Nat)
  | 0, cs => some ([], cs)
  | n + 1, cs =>
    match f.skip cs with
    | [] => none
    | c :: r => do
      let d ← hexDigitValue? c
      let (ds, r) ← hexDigits f n r
      return (d :: ds, r)

/-- The character whose code point the next `n` hexadecimal digits write. -/
def codePoint (f : Flags) (n : Nat) : Reader Char := fun cs => do
  let (ds, r) ← hexDigits f n cs
  let code := ofDigits 16 ds
  if code.isValidChar then some (Char.ofNat code, r) else none

/-- The control character that a backslash and a letter stand for. -/
def control? : Char → Option Char
  | 'a' => some '\x07'
  | 'f' => some '\x0c'
  | 'n' => some '\n'
  | 'r' => some '\r'
  | 't' => some '\t'
  | 'v' => some '\x0b'
  | _ => none

/-- What comes after a backslash. Any other character of ASCII that is neither a letter nor a digit
stands for itself. -/
def escape (f : Flags) : Reader Atom
  | [] => none
  | 'x' :: r => (codePoint f 2 r).map fun (c, r) => (.byte c, r)
  | 'u' :: r => (codePoint f 4 r).map fun (c, r) => (.literal c, r)
  | 'U' :: r => (codePoint f 8 r).map fun (c, r) => (.literal c, r)
  | c :: r =>
    if ['d', 's', 'w'].contains c then some (.named false, r)
    else if ['D', 'S', 'W'].contains c then some (.named true, r)
    else if ['A', 'z'].contains c then some (.border, r)
    else if ['b', 'B', '<', '>'].contains c then some (.wordBorder, r)
    else if isASCII c && !c.isAlphanum then some (.literal c, r)
    else (control? c).map fun c => (.literal c, r)

def atom (f : Flags) : Reader Atom
  | [] => none
  | '\\' :: r => escape f r
  | '.' :: r => some (.anything, r)
  | '^' :: r | '$' :: r => some (.border, r)
  | c :: r => some (.literal c, r)

/-! ## Classes -/

def classAtom (f : Flags) : Reader Atom
  | [] => none
  | '\\' :: r => escape f r
  | c :: r => some (.literal c, r)

/-- Whether a dash in a class is a literal by what follows it. A `#` among the blanks is passed over
alone, without the rest of its comment. -/
def endsAtDash (f : Flags) (cs : List Char) : Bool :=
  let next :=
    if f.ignoreBlanks then
      match cs.dropWhile isBlank with
      | '#' :: r => r.dropWhile isBlank
      | r => r
    else cs
  next.head? == some ']' || next.head? == some '-'

/-- Passes an atom or a range of characters in a class. -/
def afterClassItem? (f : Flags) (cs : List Char) : Option (List Char) := do
  let (a, r) ← classAtom f cs
  let r := f.skip r
  match r with
  | '-' :: s =>
    if endsAtDash f s then
      if a.isAllowedInClass f then some r else none
    else
      let (b, s) ← classAtom f (f.skip s)
      let first ← a.char?
      let last ← b.char?
      if first ≤ last && a.isAllowedInClass f && b.isAllowedInClass f then some s else none
  | r => if a.isAllowedInClass f then some r else none

def classNames : List String :=
  ["alnum", "alpha", "ascii", "blank", "cntrl", "digit", "graph", "lower", "print", "punct",
    "space", "upper", "word", "xdigit"]

/-- A class with a name, after its bracket: whether it is the complement of that. -/
def namedClass : Reader Bool
  | ':' :: '^' :: r => (name r).map fun r => (true, r)
  | ':' :: r => (name r).map fun r => (false, r)
  | _ => none
where
  name (cs : List Char) : Option (List Char) :=
    match cs.span (· != ':') with
    | (name, ':' :: ']' :: r) => if classNames.contains (String.ofList name) then some r else none
    | _ => none

/-- Counts the dashes at the front, of which there are at most `n`. -/
def dashes (f : Flags) : (n : Nat) → List Char → Nat × List Char
  | n + 1, '-' :: r =>
    let (k, r) := dashes f n (f.skip r)
    (k + 1, r)
  | _, cs => (0, cs)

/-- The start of a class, after its bracket and at most `n` characters long: the depths of the
literals that only stand there. -/
def classStart (f : Flags) (n : Nat) : Reader (List Nat) := fun cs => do
  let r ← match f.skip cs with
    | '^' :: r => if f.unicode then some (f.skip r) else none
    | r => some r
  let (k, r) := dashes f n r
  let (k, r) := match k, r with
    | 0, ']' :: r => (1, r)
    | _, _ => (k, r)
  if k = 0 ∨ (Atom.literal '-').isAllowedInClass f then return (List.replicate k 0, r) else none

/-- How deep a class is so far: `operand` is before its last operator, `items` are after it. -/
def operationDepth (operand : Option Nat) (items : List Nat) : Nat :=
  depthOf (depthOf items :: operand.toList)

def classItems (nested : Nat → Reader Nat) (f : Flags) :
    (n : Nat) → (operand : Option Nat) → (items : List Nat) → Reader Nat
  | 0, _, _, _ => none
  | n + 1, operand, items, cs =>
    match f.skip cs with
    | [] => none
    | ']' :: r => some (operationDepth operand items, r)
    | '&' :: '&' :: r | '-' :: '-' :: r | '~' :: '~' :: r =>
      classItems nested f n (some (operationDepth operand items)) [] r
    | '[' :: r =>
      match namedClass r with
      | some (complement, r) =>
        if (if f.unicode then !f.ignoreCase else !complement) then
          classItems nested f n operand (0 :: items) r
        else none
      | none => do
        let (d, r) ← nested n r
        classItems nested f n operand (d :: items) r
    | cs => do classItems nested f n operand (0 :: items) (← afterClassItem? f cs)

/-- The depth of a class, after its bracket, that is at most `n` characters long and in which
classes are at most `levels` deep. -/
def classDepth (f : Flags) : (levels : Nat) → (n : Nat) → Reader Nat
  | 0, _, _ => none
  | levels + 1, n, cs => do
    let (items, r) ← classStart f n cs
    let (d, r) ← classItems (classDepth f levels) f n none items r
    return (d + 1, r)

/-! ## Groups -/

inductive Opening where
  /-- Nothing: flags change up to the end of the enclosing group. -/
  | setting (f : Flags)
  | group (f : Flags) (name : Option String)

def groupName : Reader String := fun cs =>
  match cs.span (· != '>') with
  | (c :: name, '>' :: r) =>
    if (c == '_' || isAlphabetic c) &&
        name.all fun c => ['_', '.', '[', ']'].contains c || isAlphanumeric c then
      some (String.ofList (c :: name), r)
    else none
  | _ => none

/-- The flags after a change by letters, of which those after a dash are switched off. -/
def Flags.change (f : Flags) (letters : List Char) : Flags :=
  let on := letters.takeWhile (· != '-')
  let value (c : Char) (old : Bool) : Bool := on.contains c || old && !letters.contains c
  ⟨value 'u' f.unicode, value 'i' f.ignoreCase, value 'x' f.ignoreBlanks⟩

/-- The letters of a change of flags: none twice, and at most one dash, which is not the last. -/
def isChange (letters : List Char) : Bool :=
  letters.all ['i', 'm', 's', 'U', 'u', 'R', 'x', '-'].contains && decide letters.Nodup &&
    letters.getLast? != some '-'

def opening (f : Flags) : Reader Opening := fun cs =>
  match f.skip cs with
  | '?' :: 'P' :: '<' :: r | '?' :: '<' :: r =>
    (groupName r).map fun (name, r) => (.group f (some name), r)
  | '?' :: r =>
    match r.span fun c => c != ':' && c != ')' with
    | (letters, ':' :: r) =>
      if isChange letters then some (.group (f.change letters) none, r) else none
    | (letters, ')' :: r) =>
      if letters ≠ [] ∧ isChange letters then some (.setting (f.change letters), r) else none
    | _ => none
  | r => some (.group f none, r)

/-- A group that is being read; the whole pattern is one, too. -/
structure Group where
  flags : Flags
  /-- The names of groups so far in the whole pattern. -/
  names : List String
  /-- The depths of the parts of the last alternative, from the last on; a change of flags has
  none. -/
  parts : List (Option Nat) := []
  /-- The depths of the alternatives before it. -/
  alternatives : List Nat := []

namespace Group

def add (g : Group) (depth : Nat) : Group := { g with parts := some depth :: g.parts }

def alternative (g : Group) : Nat := depthOf (g.parts.map (·.getD 0))

def depth (g : Group) : Nat := depthOf (g.alternative :: g.alternatives)

def next (g : Group) : Group :=
  { g with parts := [], alternatives := g.alternative :: g.alternatives }

def repeat? (g : Group) : Option Group :=
  match g.parts with
  | some d :: parts => some { g with parts := some (d + 1) :: parts }
  | _ => none

end Group

/-- Whether a repetition takes as little as it can does not matter here. -/
def skipLazy : List Char → List Char
  | '?' :: r => r
  | r => r

/-- The rest of a group, up to its closing parenthesis or the end of the pattern, less than `n`
characters long. -/
def groupParts (nested : Nat → Group → Reader Group) : (n : Nat) → Group → Reader Group
  | 0, _, _ => none
  | n + 1, g, cs =>
    match g.flags.skip cs with
    | [] => some (g, [])
    | ')' :: r => some (g, ')' :: r)
    | '|' :: r => groupParts nested n g.next r
    | '?' :: r | '*' :: r | '+' :: r => do groupParts nested n (← g.repeat?) (skipLazy r)
    | '\x7b' :: _ => none
    | '[' :: r => do
      let (d, r) ← classDepth g.flags (depthLimit + 1) n r
      groupParts nested n (g.add d) r
    | '(' :: r => do
      match ← opening g.flags r with
      | (.setting flags, r) => groupParts nested n { g with flags, parts := none :: g.parts } r
      | (.group flags name, r) =>
        if name.any g.names.contains then none
        else
          let (inner, r) ← nested n { flags, names := name.toList ++ g.names } r
          match r with
          | ')' :: r =>
            groupParts nested n { g.add (inner.depth + 1) with names := inner.names } r
          | _ => none
    | cs => do
      let (a, r) ← atom g.flags cs
      if a.isAllowed g.flags then groupParts nested n (g.add 0) r else none

/-- Reads a group in which groups are at most `levels` deep. -/
def groupBody : (levels : Nat) → (n : Nat) → Group → Reader Group
  | 0 => fun _ _ _ => none
  | levels + 1 => groupParts (groupBody levels)

end Pattern

/-- Whether a text is a pattern. -/
def isPattern (cs : List Char) : Bool :=
  let whole : Pattern.Group := { flags := {}, names := [] }
  match Pattern.groupBody (Pattern.depthLimit + 1) (cs.length + 1) whole cs with
  | some (g, []) => g.depth ≤ Pattern.depthLimit
  | _ => false

end SharedHeap.Text
