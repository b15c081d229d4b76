/-!
Sets of characters, given by the code points at which membership changes: the first point is the
first member, the second the first character after it that is none, and so on.
-/

namespace SharedHeap.Text

/-- A set of code points, by the ascending points at which membership changes. -/
structure CodePoints where
  changes : Array Nat

namespace CodePoints

/-- An odd number of changes up to `n` makes it a member. -/
def containsNat (s : CodePoints) (n : Nat) : Bool := s.changes.countP (· ≤ n) % 2 == 1

def contains (s : CodePoints) (c : Char) : Bool := s.containsNat c.toNat

/-- The points are read two at a time: each pair lets in a range, if they ascend. -/
theorem containsNat_cons_cons {n first after : Nat} {points : List Nat} (h : first ≤ after)
    (hp : ∀ p ∈ points, after ≤ p) :
    containsNat ⟨(first :: after :: points).toArray⟩ n = true ↔
      (first ≤ n ∧ n < after) ∨ containsNat ⟨points.toArray⟩ n = true := by
  simp only [containsNat, List.countP_toArray, beq_iff_eq, List.countP_cons, decide_eq_true_eq]
  by_cases ha : after ≤ n
  · rw [if_pos ha, if_pos (Nat.le_trans h ha)]
    omega
  · have hnone : points.countP (· ≤ n) = 0 := by
      rw [List.countP_eq_zero]
      intro p hm hle
      exact ha (Nat.le_trans (hp p hm) (of_decide_eq_true hle))
    rw [hnone, if_neg ha]
    by_cases hf : first ≤ n <;> simp [hf]
    omega

@[simp] theorem containsNat_nil {n : Nat} : containsNat ⟨[].toArray⟩ n = false := rfl

end CodePoints

end SharedHeap.Text
