import SharedHeap.Handle

/-!
What a table stores. Keys are totally ordered: booleans, then integers, then strings, each kind by
its own order. Values may also be binary64 numbers, compared by the rules of IEEE 754, or refer to
an object by its handle.
-/

namespace SharedHeap

inductive Key where
  | bool (b : Bool)
  | int (n : Int64)
  | str (s : String)
  deriving DecidableEq

namespace Key

/-- Kinds come before contents; strings go by code point. -/
def compare : Key → Key → Ordering
  | bool a, bool b => Ord.compare a b
  | bool _, _ => .lt
  | int _, bool _ => .gt
  | int a, int b => Ord.compare a b
  | int _, str _ => .lt
  | str a, str b => Ord.compare a b
  | str _, _ => .gt

instance : Ord Key := ⟨Key.compare⟩

instance : Std.TransOrd Key where
  eq_swap {a b} := by
    change Key.compare a b = (Key.compare b a).swap
    cases a <;> cases b <;> simp only [Key.compare, Ordering.swap] <;>
      exact Std.OrientedOrd.eq_swap
  isLE_trans {a b c} hab hbc := by
    change (Key.compare a c).isLE = true
    change (Key.compare a b).isLE = true at hab
    change (Key.compare b c).isLE = true at hbc
    cases a <;> cases b <;> cases c <;> simp only [Key.compare] at hab hbc ⊢ <;>
      first | exact Std.TransOrd.isLE_trans hab hbc | rfl | contradiction

instance : Std.LawfulEqOrd Key where
  eq_of_compare {a b} h := by
    change Key.compare a b = .eq at h
    cases a <;> cases b <;> simp only [Key.compare] at h <;>
      first | exact congrArg _ (Std.LawfulEqOrd.eq_of_compare h) | contradiction

end Key

/-- A binary64 number, kept as its bits so that every one is stored unchanged. -/
structure Binary64 where
  bits : UInt64
  deriving DecidableEq

namespace Binary64

/-- The exponent is all ones and the fraction is not zero. -/
def isNaN (x : Binary64) : Bool := x.bits &&& 0x7fffffffffffffff > 0x7ff0000000000000

/-- Either of the two zeros. -/
def isZero (x : Binary64) : Bool := x.bits &&& 0x7fffffffffffffff == 0

/-- Equality of numbers: a NaN equals nothing, and the two zeros are equal. -/
def same (x y : Binary64) : Bool :=
  !x.isNaN && !y.isNaN && (x.bits == y.bits || (x.isZero && y.isZero))

end Binary64

inductive Value where
  | bool (b : Bool)
  | int (n : Int64)
  | num (x : Binary64)
  | str (s : String)
  | obj (h : Handle)
  deriving DecidableEq

namespace Value

def object? : Value → Option Handle
  | obj h => some h
  | _ => none

/-- Equality of values: of one kind and equal in it. -/
def same : Value → Value → Bool
  | bool a, bool b => a == b
  | int a, int b => a == b
  | num a, num b => a.same b
  | str a, str b => a == b
  | obj a, obj b => a == b
  | _, _ => false

end Value

end SharedHeap
