import SharedHeap.Object
import Mathlib.Data.Finset.Card
import Mathlib.Data.Multiset.Count

/-! # What a bag contains

A bag is a multiset: calls on a bag are answered as the same calls on a multiset are, and leave what
they leave there. A bag says in addition which members it has, each once and in order, and how many
they are. -/

namespace SharedHeap.Bag

variable {α : Type} [DecidableEq α]

/-! ## Calls on a multiset -/

/-- The answer to a call, if it has one, and the multiset after it. -/
def Call.onMultiset (s : Multiset α) : Call α → Option Bool × Multiset α
  | .add a => (none, a ::ₘ s)
  | .remove a => (some (decide (a ∈ s)), s.erase a)
  | .contains a => (some (decide (a ∈ s)), s)
  | .clear => (none, 0)

/-- The answers to calls made one after another, and what they leave. -/
def Call.run {σ : Type} (call : σ → Call α → Option Bool × σ) (x : σ) :
    List (Call α) → List (Option Bool) × σ
  | [] => ([], x)
  | c :: rest =>
    let (answer, y) := call x c
    let (answers, z) := run call y rest
    (answer :: answers, z)

variable [Ord α] [Std.TransOrd α]

/-- Each member occurs in the bag as often as in the multiset, and what does not occur is not stored. -/
structure Represents (b : Bag α) (s : Multiset α) : Prop where
  count : ∀ a, b.count a = s.count a
  tight : b.Tight

variable {b : Bag α} {s : Multiset α}

theorem Represents.empty : Represents (empty : Bag α) 0 where
  count a := by rw [count_empty, Multiset.count_zero]
  tight := tight_empty

theorem Represents.contains_iff (hb : b.Represents s) (a : α) : b.contains a = true ↔ a ∈ s := by
  rw [contains_iff_count_pos hb.tight, hb.count, Multiset.count_pos]

theorem Represents.contains_eq (hb : b.Represents s) (a : α) : b.contains a = decide (a ∈ s) :=
  Bool.eq_iff_iff.mpr ((hb.contains_iff a).trans decide_eq_true_iff.symm)

variable [Std.LawfulEqOrd α]

theorem Represents.add (hb : b.Represents s) (a : α) : (b.add a).Represents (a ::ₘ s) where
  count c := by
    rw [count_add, Multiset.count_cons, hb.count]
    by_cases h : a = c
    · subst h; simp
    · rw [if_neg h, if_neg fun he => h he.symm, Nat.add_zero]
  tight := tight_add hb.tight a

theorem Represents.remove (hb : b.Represents s) (a : α) : (b.remove a).Represents (s.erase a) where
  count c := by
    rw [count_remove, hb.count]
    by_cases h : a = c
    · subst h; rw [if_pos rfl, Multiset.count_erase_self]
    · rw [if_neg h, Multiset.count_erase_of_ne fun he => h he.symm]
  tight := tight_remove hb.tight a

/-- A call on a bag is answered as on the multiset, and leaves what it leaves there. -/
theorem Represents.call (hb : b.Represents s) (c : Call α) :
    (b.call c).1 = (c.onMultiset s).1 ∧ (b.call c).2.Represents (c.onMultiset s).2 := by
  cases c with
  | add a => exact ⟨rfl, hb.add a⟩
  | remove a =>
    simp only [Bag.call, take_eq]
    exact ⟨congrArg some (hb.contains_eq a), hb.remove a⟩
  | contains a => exact ⟨congrArg some (hb.contains_eq a), hb⟩
  | clear => exact ⟨rfl, .empty⟩

theorem Represents.run (hb : b.Represents s) (calls : List (Call α)) :
    (Call.run Bag.call b calls).1 = (Call.run Call.onMultiset s calls).1 ∧
      (Call.run Bag.call b calls).2.Represents (Call.run Call.onMultiset s calls).2 := by
  induction calls generalizing b s with
  | nil => exact ⟨rfl, hb⟩
  | cons c rest ih =>
    obtain ⟨hanswer, hafter⟩ := hb.call c
    obtain ⟨hanswers, hend⟩ := ih hafter
    exact ⟨congrArg₂ List.cons hanswer hanswers, hend⟩

/-! ## What a bag shows -/

theorem Represents.mem_members_iff (hb : b.Represents s) (a : α) : a ∈ b.members ↔ a ∈ s := by
  rw [mem_members, hb.contains_iff]

theorem Represents.size_eq (hb : b.Represents s) : b.size = s.toFinset.card := by
  have hmembers : b.members.toFinset = s.toFinset := by
    ext a
    rw [List.mem_toFinset, Multiset.mem_toFinset, hb.mem_members_iff]
  rw [← length_members, ← List.toFinset_card_of_nodup b.nodup_members, hmembers]

theorem Represents.isEmpty_iff (hb : b.Represents s) : b.isEmpty = true ↔ s = 0 := by
  have hsize : b.isEmpty = (b.size == 0) := Std.ExtTreeMap.isEmpty_eq_size_beq_zero
  rw [hsize, beq_iff_eq, hb.size_eq, Finset.card_eq_zero, Multiset.toFinset_eq_empty]

/-- **Links are a multiset of handles.** Whatever additions, removals, questions and clearings are made
of new links, the null handle included, each is answered as by the multiset that they are made of in the
same order. A removal answers whether an occurrence is left, takes exactly one away and leaves the other
handles as they are. The members are the handles that occur, in strictly ascending order; the size is
their number; and none is stored that does not occur. -/
theorem links_are_multiset (calls : List (Call Handle)) :
    let b := (Call.run Bag.call (empty : Links) calls).2
    let s := (Call.run Call.onMultiset 0 calls).2
    (Call.run Bag.call (empty : Links) calls).1 = (Call.run Call.onMultiset 0 calls).1 ∧
    (∀ h, b.count h = s.count h) ∧
    (∀ h, ((b.take h).1 = true ↔ 0 < s.count h) ∧
      ∀ k, (b.take h).2.count k = if k = h then s.count k - 1 else s.count k) ∧
    (∀ h, b.contains h = true ↔ 0 < s.count h) ∧
    (∀ h, h ∈ b.members ↔ 0 < s.count h) ∧
    b.members.Pairwise (fun x y => x.raw < y.raw) ∧
    b.size = s.toFinset.card ∧ (b.isEmpty = true ↔ s = 0) ∧
    ∀ h : Handle, b.counts[h]? ≠ some 0 := by
  intro b s
  obtain ⟨hanswers, hb⟩ : _ ∧ b.Represents s := Represents.empty.run calls
  have hcontains : ∀ h, b.contains h = true ↔ 0 < s.count h := fun h => by
    rw [hb.contains_iff, Multiset.count_pos]
  refine ⟨hanswers, hb.count, fun h => ?_, hcontains, fun h => ?_, ?_, hb.size_eq, hb.isEmpty_iff,
    hb.tight⟩
  · rw [take_eq]
    refine ⟨hcontains h, fun k => ?_⟩
    rw [count_remove, hb.count]
    simp only [eq_comm]
  · rw [mem_members, hcontains]
  · exact b.ordered_members.imp fun {x y} hlt => (Handle.compare_eq_lt_iff x y).mp hlt

example :
    (Call.run Bag.call (empty : Links)
      [.add .null, .add .null, .remove .null, .contains .null, .remove .null, .remove .null]).1 =
      [none, none, some true, some true, some true, some false] := by decide +kernel

end SharedHeap.Bag
