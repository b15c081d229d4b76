import SharedHeap.Object

/-!
Registries. A registry keeps one slot for each registered object; the slot is a holder of that
object. Slots are kept in handle order, and whatever leaves a registry is handed back, so that the
caller decides when it is let go.
-/

namespace SharedHeap

/-- The slots of a registry: which handles are registered, and what each slot holds. -/
structure Registry where
  slots : Std.ExtTreeMap Handle View := ∅

namespace Registry

def empty : Registry := {}

def contains (r : Registry) (h : Handle) : Bool := r.slots.contains h

def slot? (r : Registry) (h : Handle) : Option Holder := r.slots[h]?.map (⟨h, ·⟩)

def size (r : Registry) : Nat := r.slots.size

def isEmpty (r : Registry) : Bool := r.slots.isEmpty

def handles (r : Registry) : List Handle := r.slots.keys

def holders (r : Registry) : List Holder := r.slots.toList.map fun (h, v) => ⟨h, v⟩

/-- Puts `x` into the slot of its object and hands back what was there. -/
def insert (r : Registry) (x : Holder) : Option Holder × Registry :=
  (r.slot? x.handle, ⟨r.slots.insert x.handle x.view⟩)

def erase (r : Registry) (h : Handle) : Option Holder × Registry :=
  (r.slot? h, ⟨r.slots.erase h⟩)

/-- Keeps the slots that `keep` accepts and hands back the others, in ascending order. -/
def retain (r : Registry) (keep : Handle → Bool) : List Holder × Registry :=
  (r.holders.filter (fun x => !keep x.handle), ⟨r.slots.filter fun h _ => keep h⟩)

theorem contains_insert (r : Registry) (x : Holder) (h : Handle) :
    (r.insert x).2.contains h = (x.handle == h || r.contains h) := by
  simp [insert, contains, Std.ExtTreeMap.contains_insert, Handle.compare_beq_eq]

theorem contains_erase (r : Registry) (h k : Handle) :
    (r.erase h).2.contains k = (h != k && r.contains k) := by
  simp [erase, contains, Std.ExtTreeMap.contains_erase, bne, Handle.compare_beq_eq]

theorem contains_retain (r : Registry) (keep : Handle → Bool) (h : Handle) :
    (r.retain keep).2.contains h = (r.contains h && keep h) := by
  simp only [retain, contains, Std.ExtTreeMap.contains_eq_isSome_getElem?,
    Std.ExtTreeMap.getElem?_filter']
  cases r.slots[h]? <;> cases keep h <;> simp [Option.filter]

theorem mem_handles (r : Registry) (h : Handle) : h ∈ r.handles ↔ r.contains h = true := by
  simp [handles, contains]

theorem length_handles (r : Registry) : r.handles.length = r.size := by
  simp [handles, size]

theorem nodup_handles (r : Registry) : r.handles.Nodup := r.slots.nodup_keys

theorem map_handle_holders (r : Registry) : r.holders.map Holder.handle = r.handles := by
  rw [holders, handles, List.map_map, ← Std.ExtTreeMap.map_fst_toList_eq_keys]
  rfl

theorem nodup_holders (r : Registry) : r.holders.Nodup := by
  have h : (r.holders.map Holder.handle).Nodup := by
    rw [map_handle_holders]; exact r.nodup_handles
  exact List.Pairwise.of_map Holder.handle (fun _ _ hne he => hne (congrArg _ he)) h

theorem mem_holders (r : Registry) (x : Holder) : x ∈ r.holders ↔ r.slot? x.handle = some x := by
  cases x
  simp [holders, slot?]

theorem handle_of_slot? {r : Registry} {h : Handle} {x : Holder} (hx : r.slot? h = some x) :
    x.handle = h := by
  obtain ⟨v, _, rfl⟩ := Option.map_eq_some_iff.mp hx
  rfl

theorem isSome_slot? (r : Registry) (h : Handle) : (r.slot? h).isSome = r.contains h := by
  rw [slot?, contains, Option.isSome_map, Std.ExtTreeMap.isSome_getElem?_eq_contains]

theorem slot?_eq_none_iff (r : Registry) (h : Handle) :
    r.slot? h = none ↔ r.contains h = false := by
  rw [← isSome_slot?]
  cases r.slot? h <;> simp

theorem slot?_insert (r : Registry) (x : Holder) (h : Handle) :
    (r.insert x).2.slot? h = if x.handle = h then some x else r.slot? h := by
  by_cases hx : x.handle = h
  · subst hx
    simp [insert, slot?]
  · simp [insert, slot?, Std.ExtTreeMap.getElem?_insert, hx]

theorem slot?_retain (r : Registry) (keep : Handle → Bool) (h : Handle) :
    (r.retain keep).2.slot? h = if keep h then r.slot? h else none := by
  simp only [retain, slot?, Std.ExtTreeMap.getElem?_filter']
  cases r.slots[h]? <;> cases keep h <;> simp [Option.filter]

theorem size_retain (r : Registry) (keep : Handle → Bool) :
    (r.retain keep).2.size = (r.handles.filter keep).length := by
  simp only [retain, ← length_handles, handles, Std.ExtTreeMap.keys_filter_key]

theorem size_insert (r : Registry) (x : Holder) :
    (r.insert x).2.size = r.size + if r.contains x.handle then 0 else 1 := by
  simp only [insert, size, contains, Std.ExtTreeMap.size_insert]
  split <;> simp [*]

/-- Slots are either kept or handed back. -/
theorem length_retain_add_size (r : Registry) (keep : Handle → Bool) :
    (r.retain keep).1.length + (r.retain keep).2.size = r.size := by
  have h : (r.retain keep).1.length = (r.handles.filter fun h => !keep h).length := by
    rw [← map_handle_holders, List.filter_map, List.length_map]
    rfl
  rw [h, size_retain, ← length_handles, ← List.countP_eq_length_filter,
    ← List.countP_eq_length_filter, List.length_eq_countP_add_countP keep, Nat.add_comm]
  simp

end Registry

end SharedHeap
