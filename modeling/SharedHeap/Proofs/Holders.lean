import SharedHeap.Heap.Pass
import SharedHeap.Proofs.Marking

/-! # Who holds an object

A registered object has its slot as one holder. What a pass calls a root is a registered object with
a second holder, and this file says where that holder can be (`HeldElsewhere`). -/

namespace SharedHeap

/-- What becomes of a collector when nothing is registered in it, no pass runs over it and it is not
given up. -/
structure Collector.Undisturbed (c c' : Collector) : Prop where
  registry : c'.registry = c.registry
  pending : c'.pending = c.pending
  state : c.state ≠ .running → c'.state ≠ .running

theorem Collector.Undisturbed.refl (c : Collector) : c.Undisturbed c := ⟨rfl, rfl, id⟩

namespace Heap

/-- `h` has a slot in collector `g`. -/
def Registered (w : Heap) (g : CollectorId) (h : Handle) : Prop :=
  (w.collector g).registry.contains h = true

/-- `h` has a holder that is not its slot in collector `g`: the application has it, or it is a slot
of another collector or of a bare registry, or a slot that waits to be released. -/
def HeldElsewhere (w : Heap) (g : CollectorId) (h : Handle) : Prop :=
  0 < w.heldCount h ∨ (∃ g', g' ≠ g ∧ w.Registered g' h) ∨
    (∃ r ∈ w.registries, r.contains h = true) ∨ ∃ q ∈ w.queues, ∃ x ∈ q.waiting, x.handle = h

/-- What a pass over `g` is to keep: the registered objects that are held elsewhere, and the
registered objects that those link to, directly or through others. -/
inductive Live (w : Heap) (g : CollectorId) : Handle → Prop where
  | held {h} : w.Registered g h → w.HeldElsewhere g h → w.Live g h
  | linked {a b} : w.Live g a → b ∈ w.linked a → w.Registered g b → w.Live g b

theorem Live.registered {w : Heap} {g : CollectorId} {h : Handle} (hl : w.Live g h) :
    w.Registered g h := by
  cases hl with
  | held hr _ => exact hr
  | linked _ _ hr => exact hr

/-- A heap with one idle collector, in which an object is registered for each list: the one of
number `n` links to the numbers in the `n`-th list. The application has a holder of each number in
`held`. -/
def ofLinks (step : Nat) (links : List (List Nat)) (held : List Nat) : Heap where
  allocated := links.length
  objects := links.zipIdx.foldl (fun os (ns, n) => os.insert (.fresh n)
    { kind := .node, links := ns.foldl (fun b k => b.add (.fresh k)) .empty }) ∅
  held := held.foldl (fun b n => b.add ⟨.fresh n, .whole⟩) .empty
  collectors := [{
    registry := (List.range links.length).foldl (fun r n => (r.insert ⟨.fresh n, .whole⟩).2) .empty
    step }]

/-! ## Collectors by number -/

theorem collector_eq {w : Heap} {g : CollectorId} {c : Collector} (hc : w.collectors[g]? = some c) :
    w.collector g = c := by
  simp [collector, hc]

theorem registered_iff_getElem? {w : Heap} {g : CollectorId} {h : Handle} :
    w.Registered g h ↔ ∃ c, w.collectors[g]? = some c ∧ c.registry.contains h = true := by
  unfold Registered collector
  cases w.collectors[g]? with
  | none => simp [Collector.withStep, Registry.empty, Registry.contains]
  | some c => simp

theorem Registered.lt_length {w : Heap} {g : CollectorId} {h : Handle} (hr : w.Registered g h) :
    g < w.collectors.length := by
  obtain ⟨c, hc, _⟩ := registered_iff_getElem?.mp hr
  exact (List.getElem?_eq_some_iff.mp hc).1

theorem collector_modifyCollector (w : Heap) (g g' : CollectorId) (f : Collector → Collector) :
    (w.modifyCollector g f).collector g' =
      if g = g' ∧ g < w.collectors.length then f (w.collector g) else w.collector g' := by
  unfold collector modifyCollector
  rw [List.getElem?_modify]
  by_cases hg : g = g'
  · subst hg
    by_cases hlt : g < w.collectors.length
    · simp [hlt]
    · simp [hlt]
  · simp [hg]

theorem collector_modifyCollector_self {w : Heap} {g : CollectorId} (hg : g < w.collectors.length)
    (f : Collector → Collector) : (w.modifyCollector g f).collector g = f (w.collector g) := by
  rw [collector_modifyCollector, if_pos ⟨rfl, hg⟩]

theorem collector_modifyCollector_of_ne (w : Heap) {g g' : CollectorId} (hg : g ≠ g')
    (f : Collector → Collector) : (w.modifyCollector g f).collector g' = w.collector g' := by
  rw [collector_modifyCollector, if_neg fun h => hg h.1]

/-- What a change of a collector keeps, it keeps of every collector. -/
theorem apply_modifyCollector {α : Type} {f : Collector → α} {m : Collector → Collector}
    (hm : ∀ c, f (m c) = f c) (w : Heap) (g g' : CollectorId) :
    f ((w.modifyCollector g m).collector g') = f (w.collector g') := by
  rw [collector_modifyCollector]
  split
  · rename_i hg; rw [hm, hg.1]
  · rfl

/-- Changing a collector but for its registry changes no registry. -/
theorem registry_modifyCollector {f : Collector → Collector}
    (hf : ∀ c, (f c).registry = c.registry) (w : Heap) (g g' : CollectorId) :
    ((w.modifyCollector g f).collector g').registry = (w.collector g').registry :=
  apply_modifyCollector hf w g g'

theorem registered_congr {w w' : Heap} {g : CollectorId}
    (hr : (w'.collector g).registry = (w.collector g).registry) (h : Handle) :
    w'.Registered g h ↔ w.Registered g h := by
  unfold Registered
  rw [hr]

theorem undisturbed_modifyCollector {f : Collector → Collector}
    (hf : ∀ c : Collector, c.Undisturbed (f c)) (w : Heap) (g g' : CollectorId) :
    (w.collector g').Undisturbed ((w.modifyCollector g f).collector g') := by
  rw [collector_modifyCollector]
  split
  · rename_i hg; rw [← hg.1]; exact hf _
  · exact .refl _

/-- The end of a queue is to count a pass or to give a lock back, if it is anything. -/
theorem apply_closeQueue {α : Type} {f : Collector → α}
    (hf : ∀ (c : Collector) n m l,
      f { c with collectionsRun := n, objectsSwept := m, locked := l } = f c)
    (w : Heap) (q : QueueId) (g : CollectorId) :
    f ((w.closeQueue q).collector g) = f (w.collector g) := by
  unfold closeQueue
  split
  · rfl
  · rename_i p _
    cases p.afterwards with
    | complete g' stats =>
      exact apply_modifyCollector (m := fun c => { c with
        collectionsRun := c.collectionsRun + 1, objectsSwept := c.objectsSwept + stats.swept })
        (fun c => hf c _ _ _) _ g' g
    | unlock g' =>
      exact apply_modifyCollector (m := fun c => { c with locked := false }) (fun c => hf c _ _ _)
        _ g' g
    | nothing => rfl

theorem registry_closeQueue (w : Heap) (q : QueueId) (g : CollectorId) :
    ((w.closeQueue q).collector g).registry = (w.collector g).registry :=
  apply_closeQueue (fun _ _ _ _ => rfl) w q g

theorem state_closeQueue (w : Heap) (q : QueueId) (g : CollectorId) :
    ((w.closeQueue q).collector g).state = (w.collector g).state :=
  apply_closeQueue (fun _ _ _ _ => rfl) w q g

theorem undisturbed_closeQueue (w : Heap) (q : QueueId) (g : CollectorId) :
    (w.collector g).Undisturbed ((w.closeQueue q).collector g) :=
  ⟨registry_closeQueue w q g, apply_closeQueue (f := Collector.pending) (fun _ _ _ _ => rfl) w q g,
    fun hs => state_closeQueue w q g ▸ hs⟩

theorem closeQueue_frame (w : Heap) (q : QueueId) :
    (w.closeQueue q).held = w.held ∧ (w.closeQueue q).registries = w.registries ∧
      (w.closeQueue q).allocated = w.allocated := by
  unfold closeQueue
  split
  · exact ⟨rfl, rfl, rfl⟩
  · split <;> exact ⟨rfl, rfl, rfl⟩

/-! ## Counting -/

theorem heldCount_hold (w : Heap) (x : Holder) (h : Handle) :
    (w.hold x).heldCount h = w.heldCount h + if x.handle = h then 1 else 0 := by
  obtain ⟨k, v⟩ := x
  simp only [heldCount, hold, Bag.count_add, Holder.mk.injEq]
  by_cases hk : k = h
  · cases v <;> simp [hk] <;> omega
  · simp [hk]

theorem heldCount_pos_of_count {w : Heap} {x : Holder} (hx : 0 < w.held.count x) :
    0 < w.heldCount x.handle := by
  obtain ⟨k, v⟩ := x
  unfold heldCount
  cases v
  · exact Nat.add_pos_left hx _
  · exact Nat.add_pos_right _ hx

theorem waitingCount_pos_iff {w : Heap} {h : Handle} :
    0 < w.waitingCount h ↔ ∃ q ∈ w.queues, ∃ x ∈ q.waiting, x.handle = h := by
  simp only [waitingCount, List.countP_pos_iff, List.mem_flatMap, Holder.sameObject, beq_iff_eq]
  constructor
  · rintro ⟨x, ⟨q, hq, hx⟩, hh⟩
    exact ⟨q, hq, x, hx, hh⟩
  · rintro ⟨q, hq, x, hx, hh⟩
    exact ⟨x, ⟨q, hq, hx⟩, hh⟩

/-- Besides one counted element, a list has another one iff its count is more than one. -/
theorem one_lt_countP_iff {α : Type} {p : α → Bool} {l : List α} {i : Nat} {a : α}
    (hi : l[i]? = some a) (ha : p a = true) :
    1 < l.countP p ↔ ∃ (j : Nat) (b : α), j ≠ i ∧ l[j]? = some b ∧ p b = true := by
  have hpos : ∀ l : List α, 0 < l.countP p ↔ ∃ (j : Nat) (b : α), l[j]? = some b ∧ p b = true := by
    intro l
    rw [List.countP_pos_iff]
    constructor
    · rintro ⟨b, hb, hp⟩
      obtain ⟨j, hj⟩ := List.mem_iff_getElem?.mp hb
      exact ⟨j, b, hj, hp⟩
    · rintro ⟨j, b, hj, hp⟩
      exact ⟨b, List.mem_of_getElem? hj, hp⟩
  induction l generalizing i with
  | nil => simp at hi
  | cons x rest ih =>
    cases i with
    | zero =>
      obtain rfl : x = a := by simpa using hi
      rw [List.countP_cons_of_pos ha, Nat.lt_add_left_iff_pos, hpos]
      constructor
      · rintro ⟨j, b, hj, hp⟩
        exact ⟨j + 1, b, by simp, by simpa using hj, hp⟩
      · rintro ⟨j, b, hne, hj, hp⟩
        obtain ⟨j, rfl⟩ := Nat.exists_eq_succ_of_ne_zero hne
        exact ⟨j, b, by simpa using hj, hp⟩
    | succ i =>
      have hi : rest[i]? = some a := by simpa using hi
      have hrest : 0 < rest.countP p := (hpos rest).mpr ⟨i, a, hi, ha⟩
      by_cases hx : p x = true
      · rw [List.countP_cons_of_pos hx]
        exact ⟨fun _ => ⟨0, x, by simp, by simp, hx⟩, fun _ => by omega⟩
      · rw [List.countP_cons_of_neg hx]
        refine (ih hi).trans ?_
        constructor
        · rintro ⟨j, b, hne, hj, hp⟩
          exact ⟨j + 1, b, by omega, by simpa using hj, hp⟩
        · rintro ⟨j, b, hne, hj, hp⟩
          cases j with
          | zero => simp at hj; subst hj; exact absurd hp hx
          | succ j => exact ⟨j, b, by omega, by simpa using hj, hp⟩

theorem slotCount_pos_of_registered {w : Heap} {g : CollectorId} {h : Handle}
    (hr : w.Registered g h) : 0 < w.slotCount h := by
  obtain ⟨c, hc, hh⟩ := registered_iff_getElem?.mp hr
  have : 0 < w.collectors.countP fun c => c.registry.contains h :=
    List.countP_pos_iff.mpr ⟨c, List.mem_of_getElem? hc, hh⟩
  unfold slotCount
  omega

/-- A registered object is a root iff it is held elsewhere. -/
theorem isRoot_iff {w : Heap} {g : CollectorId} {h : Handle} (hr : w.Registered g h) :
    w.isRoot h = true ↔ w.HeldElsewhere g h := by
  obtain ⟨c, hc, hh⟩ := registered_iff_getElem?.mp hr
  have hslot : 0 < w.collectors.countP fun c => c.registry.contains h :=
    List.countP_pos_iff.mpr ⟨c, List.mem_of_getElem? hc, hh⟩
  -- the slot in `g` is one of the slots counted, so another collector makes two
  have hother : (∃ g', g' ≠ g ∧ w.Registered g' h) ↔
      1 < w.collectors.countP fun c => c.registry.contains h := by
    rw [one_lt_countP_iff (p := fun c => c.registry.contains h) hc hh]
    simp only [registered_iff_getElem?]
    constructor
    · rintro ⟨g', hne, c', hc', hh'⟩
      exact ⟨g', c', hne, hc', hh'⟩
    · rintro ⟨g', c', hne, hc', hh'⟩
      exact ⟨g', hne, c', hc', hh'⟩
  have hbare : (∃ r ∈ w.registries, r.contains h = true) ↔
      0 < w.registries.countP fun r => r.contains h := by
    rw [List.countP_pos_iff]
  unfold HeldElsewhere
  rw [hother, hbare, ← waitingCount_pos_iff]
  unfold isRoot holderCount slotCount
  rw [decide_eq_true_iff]
  omega

end Heap

end SharedHeap
