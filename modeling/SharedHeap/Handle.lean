import Std.Data.ExtTreeMap
import SharedHeap.Text.Digits

/-!
Handles: the identity of an object, kept apart from its storage. A handle is a 64-bit word; zero
means "no object" and every other word may name one. Handles are ordered by their word, so they
can key a registry.
-/

namespace SharedHeap

/-- The identity of an object. Two holders hold the same object iff their handles are equal. -/
structure Handle where
  raw : UInt64
  deriving DecidableEq, Inhabited

namespace Handle

/-- The handle of no object. -/
def null : Handle := ⟨0⟩

def isNull (h : Handle) : Bool := h.raw == 0

/-- The handle given out after `n` others. The first is 1; the count wraps after 64 bits. -/
def fresh (n : Nat) : Handle := ⟨UInt64.ofNat (n + 1)⟩

instance : Ord Handle := ⟨compareOn Handle.raw⟩

instance : Std.TransOrd Handle := inferInstanceAs (Std.TransCmp (compareOn Handle.raw))

instance : Std.LawfulEqOrd Handle where
  eq_of_compare {a b} h := by
    cases a; cases b
    exact congrArg Handle.mk (Std.LawfulEqOrd.eq_of_compare h)

theorem compare_beq_eq (a b : Handle) : (compare a b == .eq) = (a == b) := by
  rw [Bool.eq_iff_iff]; simp

theorem compare_eq_lt_iff (a b : Handle) : compare a b = .lt ↔ a.raw < b.raw :=
  Std.compare_eq_lt (a := a.raw)

/-- How a handle is shown to users: `gc#` and the word in hexadecimal. -/
def text (h : Handle) : String := "gc#" ++ Text.hexadecimal h.raw.toNat

/-- How a handle is shown to developers: the word in decimal. -/
def debugText (h : Handle) : String := "Handle(" ++ Text.decimal h.raw.toNat ++ ")"

theorem isNull_iff (h : Handle) : h.isNull = true ↔ h = null := by
  cases h; simp [isNull, null]

theorem toNat_fresh (n : Nat) (h : n + 1 < UInt64.size) : (fresh n).raw.toNat = n + 1 :=
  UInt64.toNat_ofNat_of_lt' h

/-- Below the wrap-around, a fresh handle is not the null one. -/
theorem fresh_ne_null (n : Nat) (h : n + 1 < UInt64.size) : fresh n ≠ null := by
  intro he
  have hn := toNat_fresh n h
  rw [he] at hn
  exact absurd hn (by simp [null])

/-- Below the wrap-around, no handle is given out twice. -/
theorem fresh_injective {m n : Nat} (hm : m + 1 < UInt64.size) (hn : n + 1 < UInt64.size)
    (h : fresh m = fresh n) : m = n := by
  have h' := toNat_fresh m hm
  rw [h, toNat_fresh n hn] at h'
  omega

end Handle

end SharedHeap
