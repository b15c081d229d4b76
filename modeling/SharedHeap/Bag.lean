import Std.Data.ExtTreeMap

/-!
Bags: finite multisets over an ordered type, with their distinct members in ascending order. The
links of an object are a bag of handles, so that a container may hold one child under several keys
and the link lasts until the last of them is gone.
-/

namespace SharedHeap

/-- How often each member occurs. Operations store no member with count zero (`Bag.Tight`). -/
structure Bag (α : Type) [Ord α] where
  counts : Std.ExtTreeMap α Nat

namespace Bag

variable {α : Type} [Ord α] [Std.TransOrd α]

def empty : Bag α := ⟨∅⟩

instance : Inhabited (Bag α) := ⟨empty⟩

def count (b : Bag α) (a : α) : Nat := b.counts[a]?.getD 0

def add (b : Bag α) (a : α) : Bag α := ⟨b.counts.insert a (b.count a + 1)⟩

/-- One occurrence of `a` less; nothing changes if there is none. -/
def remove (b : Bag α) (a : α) : Bag α :=
  match b.counts[a]? with
  | some (n + 2) => ⟨b.counts.insert a (n + 1)⟩
  | some _ => ⟨b.counts.erase a⟩
  | none => b

def contains (b : Bag α) (a : α) : Bool := b.counts.contains a

/-- One occurrence of `a` less, and whether there was one. -/
def take (b : Bag α) (a : α) : Bool × Bag α :=
  match b.counts[a]? with
  | some _ => (true, b.remove a)
  | none => (false, b)

def size (b : Bag α) : Nat := b.counts.size

def isEmpty (b : Bag α) : Bool := b.counts.isEmpty

def members (b : Bag α) : List α := b.counts.keys

/-- What callers ask of a bag. -/
inductive Call (α : Type) where
  | add (a : α)
  | remove (a : α)
  | contains (a : α)
  | clear

/-- The answer to a call, if it has one, and the bag after it. -/
def call (b : Bag α) : Call α → Option Bool × Bag α
  | .add a => (none, b.add a)
  | .remove a => (some (b.take a).1, (b.take a).2)
  | .contains a => (some (b.contains a), b)
  | .clear => (none, empty)

/-- No member is stored with count zero. -/
def Tight (b : Bag α) : Prop := ∀ a : α, b.counts[a]? ≠ some 0

@[simp] theorem count_empty (a : α) : (empty : Bag α).count a = 0 := by
  simp [count, empty]

theorem tight_empty : (empty : Bag α).Tight := by
  intro a; simp [empty]

theorem tight_add [Std.LawfulEqOrd α] {b : Bag α} (hb : b.Tight) (a : α) : (b.add a).Tight := by
  intro c
  simp only [add, Std.ExtTreeMap.getElem?_insert]
  split
  · simp
  · exact hb c

theorem tight_remove [Std.LawfulEqOrd α] {b : Bag α} (hb : b.Tight) (a : α) :
    (b.remove a).Tight := by
  intro c
  unfold remove
  split
  · simp only [Std.ExtTreeMap.getElem?_insert]
    split
    · simp
    · exact hb c
  · simp only [Std.ExtTreeMap.getElem?_erase]
    split
    · simp
    · exact hb c
  · exact hb c

theorem count_add [Std.LawfulEqOrd α] [DecidableEq α] (b : Bag α) (a c : α) :
    (b.add a).count c = if a = c then b.count c + 1 else b.count c := by
  unfold add
  by_cases h : a = c
  · subst h; simp [count]
  · have hc : ¬ compare a c = .eq := fun he => h (Std.LawfulEqOrd.eq_of_compare he)
    simp [count, Std.ExtTreeMap.getElem?_insert, h]

theorem count_remove [Std.LawfulEqOrd α] [DecidableEq α] (b : Bag α) (a c : α) :
    (b.remove a).count c = if a = c then b.count c - 1 else b.count c := by
  unfold remove
  by_cases h : a = c
  · subst h
    split <;> rename_i hn
    · simp [count, hn]
    · rename_i n hne
      have : n ≤ 1 := by
        match n, hne with
        | 0, _ => omega
        | 1, _ => omega
        | k + 2, hne => exact absurd rfl (hne k)
      simp [count, hn]; omega
    · simp [count, hn]
  · split <;> simp [count, Std.ExtTreeMap.getElem?_insert, Std.ExtTreeMap.getElem?_erase, h]

theorem contains_of_count_pos {b : Bag α} {a : α} (hc : 0 < b.count a) : b.contains a = true := by
  unfold count at hc
  rw [contains, Std.ExtTreeMap.contains_eq_isSome_getElem?]
  cases h : b.counts[a]? with
  | none => simp [h] at hc
  | some n => rfl

theorem remove_of_not_contains {b : Bag α} {a : α} (hn : b.contains a = false) :
    b.remove a = b := by
  rw [contains, Std.ExtTreeMap.contains_eq_isSome_getElem?, Option.isSome_eq_false_iff,
    Option.isNone_iff_eq_none] at hn
  rw [remove, hn]

theorem take_eq (b : Bag α) (a : α) : b.take a = (b.contains a, b.remove a) := by
  rw [take, contains, Std.ExtTreeMap.contains_eq_isSome_getElem?]
  cases ha : b.counts[a]? with
  | none => simp [remove, ha]
  | some n => rfl

theorem mem_members [Std.LawfulEqOrd α] (b : Bag α) (a : α) :
    a ∈ b.members ↔ b.contains a = true := by
  rw [members, Std.ExtTreeMap.mem_keys, Std.ExtTreeMap.mem_iff_contains, contains]

theorem length_members (b : Bag α) : b.members.length = b.size := by
  rw [members, Std.ExtTreeMap.length_keys, size]

theorem nodup_members [Std.LawfulEqOrd α] (b : Bag α) : b.members.Nodup := b.counts.nodup_keys

theorem ordered_members (b : Bag α) : b.members.Pairwise fun x y => compare x y = .lt :=
  Std.ExtTreeMap.ordered_keys

/-- A member of a tight bag is what occurs in it. -/
theorem contains_iff_count_pos {b : Bag α} (hb : b.Tight) (a : α) :
    b.contains a = true ↔ 0 < b.count a := by
  have ha := hb a
  unfold contains count
  rw [Std.ExtTreeMap.contains_eq_isSome_getElem?]
  cases h : b.counts[a]? with
  | none => simp
  | some n =>
    cases n with
    | zero => exact absurd h ha
    | succ n => simp

end Bag

end SharedHeap
