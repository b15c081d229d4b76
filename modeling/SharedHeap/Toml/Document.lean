import SharedHeap.Toml.Number

/-!
Documents: a text is read as a list of statements, and the statements are put together into one
table.

Headers and dotted keys lead to tables step by step. What is not there yet is made on the way; what
is there must be open to the kind of step that leads to it (see `Toml.Value`).
-/

namespace SharedHeap.Toml

open Text (Reader)

/-! ## Tables step by step -/

/-- Changes the table at the end of `path`, as dotted keys or headers lead to it. -/
def within (dotted : Bool) (change : Table → Option Table) : List String → Table → Option Table
  | [], t => change t
  | k :: path, t =>
    match t.find? k with
    | none => do
      let child := Table.empty (if dotted then .dotted else .implied)
      return t.put k (.table (← within dotted change path child))
    | some (.table child) =>
      if child.origin = .inline ∨ (dotted ∧ child.origin = .header) then none
      else do return t.put k (.table (← within dotted change path child))
    | some (.tables items) => do
      let last ← items.getLast?
      return t.put k (.tables (items.dropLast ++ [← within dotted change path last]))
    | some _ => none

/-- Adds an entry to a table at the end of dotted keys. Only a table that dotted keys made takes
entries at the end of dotted keys. -/
def addDotted (path : List String) (k : String) (v : Value) (t : Table) : Option Table :=
  within true (fun t =>
    if (t.origin = .dotted) = (path ≠ []) then t.add? k v else none) path t

/-- The inline table of the pairs; a table made on the way may get further pairs, others not. -/
def inlineTable (pairs : List ((List String × String) × Value)) : Option Table := do
  let t ← pairs.foldlM (fun t ((path, k), v) => addDotted path k v t) (Table.empty .header)
  return t.withOrigin .inline

/-! ## Values -/

def items (value : Reader Value) : (n : Nat) → Reader (List Value)
  | 0, _ => none
  | n + 1, cs =>
    match skipLayout false cs with
    | ']' :: r => some ([], r)
    | cs => do
      let (v, r) ← value cs
      match skipLayout false r with
      | ',' :: r =>
        let (vs, r) ← items value n r
        return (v :: vs, r)
      | ']' :: r => return ([v], r)
      | _ => none

def pair (value : Reader Value) : Reader ((List String × String) × Value) := fun cs => do
  match ← key cs with
  | (k, '=' :: r) =>
    let (v, r) ← value (skipBlanks r)
    return ((k, v), r)
  | _ => none

def pairs (value : Reader Value) : (n : Nat) → Reader (List ((List String × String) × Value))
  | 0, _ => none
  | n + 1, cs => do
    let (p, r) ← pair value cs
    match skipBlanks r with
    | ',' :: r =>
      let (ps, r) ← pairs value n r
      return (p :: ps, r)
    | '\x7d' :: r => return ([p], r)
    | _ => none

def scalar : Reader Value := fun cs =>
  match cs with
  | '"' :: _ | '\'' :: _ => (string cs).map fun (s, r) => (.string s, r)
  | 't' :: 'r' :: 'u' :: 'e' :: r => some (.boolean true, r)
  | 'f' :: 'a' :: 'l' :: 's' :: 'e' :: r => some (.boolean false, r)
  | _ => numberOrDate cs

/-- A value in which arrays and inline tables are at most `depth` deep. -/
def value : (depth : Nat) → Reader Value
  | 0, cs => scalar cs
  | depth + 1, cs =>
    match cs with
    | '[' :: r => (items (value depth) cs.length r).map fun (vs, r) => (.array vs, r)
    | '\x7b' :: r =>
      match skipBlanks r with
      | '\x7d' :: r => some (.table (.empty .inline), r)
      | r => do
        let (ps, r) ← pairs (value depth) cs.length r
        return (.table (← inlineTable ps), r)
    | cs => scalar cs

/-! ## Statements -/

inductive Statement where
  /-- `[path.last]` -/
  | header (path : List String) (last : String)
  /-- `[[path.last]]` -/
  | arrayHeader (path : List String) (last : String)
  /-- `path.last = value` -/
  | entry (path : List String) (last : String) (v : Value)

def statement : Reader Statement
  | '[' :: '[' :: r => do
    match ← key r with
    | ((path, k), ']' :: ']' :: r) => return (.arrayHeader path k, ← afterLine? r)
    | _ => none
  | '[' :: r => do
    match ← key r with
    | ((path, k), ']' :: r) => return (.header path k, ← afterLine? r)
    | _ => none
  | cs => do
    let (((path, k), v), r) ← pair (value depthLimit) cs
    return (.entry path k v, ← afterLine? r)

def statements : (n : Nat) → List Char → Option (List Statement)
  | 0, cs => if cs.isEmpty then some [] else none
  | n + 1, cs =>
    match skipBlanks cs with
    | [] => some []
    | '#' :: r => do statements n (← afterLine? ('#' :: r))
    | c :: r =>
      match afterNewline? (c :: r) with
      | some r => statements n r
      | none => do
        let (s, r) ← statement (c :: r)
        return s :: (← statements n r)

/-! ## Putting statements together -/

/-- A document that is being put together. -/
structure Draft where
  root : Table := .empty .header
  /-- The table that entries go to, and where it belongs; at first this is the document itself. -/
  current : Table := .empty .header
  place : Option (List String × String) := none
  isItem : Bool := false

namespace Draft

def close (d : Draft) : Option Table :=
  match d.place with
  | none => some d.current
  | some (path, k) =>
    within false (fun t =>
      match d.isItem, t.find? k with
      | true, some (.tables items) => some (t.put k (.tables (items ++ [d.current])))
      | true, none => some (t.put k (.tables [d.current]))
      | false, none => some (t.put k (.table d.current))
      | _, _ => none) path d.root

/-- What a header finds at its key: nothing, or a table that only longer headers imply. -/
def reopen (path : List String) (k : String) (root : Table) : Option Table :=
  let rec find : List String → Table → Option Table
    | [], t => some t
    | j :: js, t =>
      match t.find? j with
      | some (.table child) => find js child
      | some (.tables items) => items.getLast?.bind (find js)
      | _ => none
  match (find path root).bind (·.find? k) with
  | none => some (.empty .header)
  | some (.table t) => if t.origin = .implied then some (t.withOrigin .header) else none
  | some _ => none

def add (d : Draft) : Statement → Option Draft
  | .entry path k v => do return { d with current := ← addDotted path k v d.current }
  | .header path k => do
    let root ← d.close
    let current ← reopen path k root
    let root ← within false (fun t => some (t.erase k)) path root
    return { root, current, place := some (path, k) }
  | .arrayHeader path k => do
    let root ← d.close
    let root ← within false (fun t =>
      match t.find? k with
      | none | some (.tables _) => some t
      | some _ => none) path root
    return { root, current := .empty .header, place := some (path, k), isItem := true }

end Draft

/-- The table that a document describes; a byte order mark before it is ignored. -/
def parse (text : String) : Option Table := do
  let cs := match text.toList with
    | '\ufeff' :: r => r
    | cs => cs
  let ss ← statements cs.length cs
  let d ← ss.foldlM Draft.add {}
  d.close

end SharedHeap.Toml
