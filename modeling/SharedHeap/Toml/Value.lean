/-!
TOML values and tables. Floats and dates are checked where they are read, and nothing asks for more
than their kind, so no number or date is kept for them.

A table remembers how it came to be, because that decides who may still add to it: a table that a
header names is closed to dotted keys, one that only longer headers imply may still be given a
header of its own, one that dotted keys imply may get further dotted keys, and an inline table is
complete.
-/

namespace SharedHeap.Toml

/-- How a table came to be. -/
inductive Origin where
  | header
  | implied
  | dotted
  | inline
  deriving DecidableEq

mutual

inductive Value where
  | string (s : String)
  | integer (n : Int)
  | float
  | boolean (b : Bool)
  | dateTime
  | array (items : List Value)
  /-- The tables that headers in double brackets add, in order. -/
  | tables (items : List Table)
  | table (t : Table)

/-- A table: its origin and its entries, in the order they were written. -/
inductive Table where
  | mk (origin : Origin) (entries : List (String × Value))

end

namespace Table

def empty (origin : Origin) : Table := .mk origin []

def origin : Table → Origin
  | .mk o _ => o

def entries : Table → List (String × Value)
  | .mk _ es => es

def find? (t : Table) (k : String) : Option Value := t.entries.lookup k

def put (t : Table) (k : String) (v : Value) : Table :=
  match t.find? k with
  | some _ => .mk t.origin (t.entries.map fun (k', v') => if k' == k then (k', v) else (k', v'))
  | none => .mk t.origin (t.entries ++ [(k, v)])

/-- Adds an entry whose key must be new. -/
def add? (t : Table) (k : String) (v : Value) : Option Table :=
  match t.find? k with
  | some _ => none
  | none => some (t.put k v)

def erase (t : Table) (k : String) : Table := .mk t.origin (t.entries.filter (·.1 != k))

def withOrigin (t : Table) (o : Origin) : Table := .mk o t.entries

end Table

end SharedHeap.Toml
