import Std.Data.ExtTreeMap

/-! # Counting values

How often a value occurs in a map, and what an insertion and a removal do to that number. -/

namespace SharedHeap

variable {α β : Type} [Ord α] [Std.TransOrd α] [DecidableEq β]

/-- The part of a map that has the value `b`. -/
def entriesWith (m : Std.ExtTreeMap α β) (b : β) : Std.ExtTreeMap α β := m.filter fun _ c => c = b

/-- Under how many keys a map has the value `b`. -/
def occurrences (m : Std.ExtTreeMap α β) (b : β) : Nat := (entriesWith m b).size

variable {m : Std.ExtTreeMap α β} {k : α} {b : β}

@[simp] theorem occurrences_empty (b : β) : occurrences (∅ : Std.ExtTreeMap α β) b = 0 :=
  Nat.le_zero.mp Std.ExtTreeMap.size_filter_le_size

variable [Std.LawfulEqOrd α]

theorem contains_entriesWith (m : Std.ExtTreeMap α β) (b : β) (k : α) :
    (entriesWith m b).contains k = decide (m[k]? = some b) := by
  rw [Std.ExtTreeMap.contains_eq_isSome_getElem?, entriesWith, Std.ExtTreeMap.getElem?_filter']
  cases hm : m[k]? with
  | none => rfl
  | some c => by_cases he : c = b <;> simp [Option.filter, he]

theorem occurrences_pos (hm : m[k]? = some b) : 0 < occurrences m b := by
  rw [occurrences, Nat.pos_iff_ne_zero, ne_eq, ← Std.ExtTreeMap.eq_empty_iff_size_eq_zero]
  intro he
  have hin := contains_entriesWith m b k
  simp [he, hm] at hin

theorem occurrences_erase (m : Std.ExtTreeMap α β) (k : α) (b : β) :
    occurrences (m.erase k) b + (if m[k]? = some b then 1 else 0) = occurrences m b := by
  have he : entriesWith (m.erase k) b = (entriesWith m b).erase k := by
    ext j : 1
    simp only [entriesWith, Std.ExtTreeMap.getElem?_filter', Std.ExtTreeMap.getElem?_erase]
    split <;> simp
  rw [occurrences, he, Std.ExtTreeMap.size_erase]
  simp only [contains_entriesWith, decide_eq_true_eq]
  by_cases hm : m[k]? = some b
  · have hpos : 0 < (entriesWith m b).size := occurrences_pos hm
    rw [if_pos hm, if_pos hm, occurrences]
    omega
  · rw [if_neg hm, if_neg hm]
    rfl

theorem occurrences_insert (m : Std.ExtTreeMap α β) (k : α) (c b : β) :
    occurrences (m.insert k c) b + (if m[k]? = some b then 1 else 0) =
      occurrences m b + if c = b then 1 else 0 := by
  have herase := occurrences_erase m k b
  by_cases he : c = b
  · subst he
    have hi : entriesWith (m.insert k c) c = (entriesWith (m.erase k) c).insert k c := by
      ext j : 1
      simp only [entriesWith, Std.ExtTreeMap.getElem?_filter', Std.ExtTreeMap.getElem?_insert,
        Std.ExtTreeMap.getElem?_erase]
      split <;> simp
    -- the key counts once, so what it had before has to go first
    have hnot : (entriesWith (m.erase k) c).contains k = false := by simp [contains_entriesWith]
    rw [occurrences, hi, Std.ExtTreeMap.size_insert, hnot, if_neg (by decide), if_pos rfl]
    rw [occurrences] at herase
    omega
  · have hi : entriesWith (m.insert k c) b = entriesWith (m.erase k) b := by
      ext j : 1
      simp only [entriesWith, Std.ExtTreeMap.getElem?_filter', Std.ExtTreeMap.getElem?_insert,
        Std.ExtTreeMap.getElem?_erase]
      split <;> simp [he]
    rw [occurrences, hi, if_neg he]
    exact herase

end SharedHeap
