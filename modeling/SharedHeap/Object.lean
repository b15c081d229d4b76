import SharedHeap.Bag
import SharedHeap.Value

/-!
Objects and their holders. An object has a kind, links to other objects, and, if it is a table,
entries. Nothing in an object counts its holders: a holder is a separate thing that names the
object, either as a whole or only by its base, and whoever keeps holders counts them.
-/

namespace SharedHeap

/-- The kinds of shared objects. A `probe` runs a hook when its last whole holder goes away. -/
inductive Kind where
  | object
  | node
  | probe
  | table
  deriving DecidableEq

/-- What a holder holds: the object with all that belongs to its kind, or its base alone. -/
inductive View where
  | whole
  | base
  deriving DecidableEq

namespace View

def rank : View → Nat
  | whole => 0
  | base => 1

theorem rank_injective {a b : View} (h : a.rank = b.rank) : a = b := by
  cases a <;> cases b <;> first | rfl | contradiction

end View

/-- One reference that keeps an object alive. -/
structure Holder where
  handle : Handle
  view : View
  deriving DecidableEq

namespace Holder

instance : Ord Holder := ⟨compareLex (compareOn Holder.handle) (compareOn fun x => x.view.rank)⟩

instance : Std.TransOrd Holder :=
  inferInstanceAs (Std.TransCmp
    (compareLex (compareOn Holder.handle) (compareOn fun x : Holder => x.view.rank)))

instance : Std.LawfulEqOrd Holder where
  eq_of_compare {a b} h := by
    have h' : compareOn Holder.handle a b = .eq ∧ compareOn (fun x => x.view.rank) a b = .eq := by
      simpa only [compare, compareLex, Ordering.then_eq_eq] using h
    cases a; cases b
    have hh := Std.LawfulEqOrd.eq_of_compare h'.1
    have hv := View.rank_injective (Std.LawfulEqOrd.eq_of_compare h'.2)
    simp_all

/-- Two holders of one object. -/
def sameObject (x : Holder) (h : Handle) : Bool := x.handle == h

end Holder

/-- The links of an object: a bag, since a container may link one child several times. -/
abbrev Links := Bag Handle

/-- The entries of a table, in key order. -/
abbrev Entries := Std.ExtTreeMap Key Value

structure Object where
  kind : Kind
  links : Links := .empty
  entries : Entries := ∅

namespace Object

/-- One more link to `h`. There is no link to the null handle. -/
def link (o : Object) (h : Handle) : Object :=
  if h.isNull then o else { o with links := o.links.add h }

def unlink (o : Object) (h : Handle) : Object := { o with links := o.links.remove h }

def hasLink (o : Object) (h : Handle) : Bool := o.links.contains h

def clearLinks (o : Object) : Object := { o with links := .empty }

def linked (o : Object) : List Handle := o.links.members

end Object

end SharedHeap
