import SharedHeap.Proofs.Holders
import SharedHeap.Proofs.Propagation

/-! # What a pass keeps

A pass over a collector keeps the live objects (`Heap.Live`) and takes the slots of all others out.
Nothing else of the heap changes but the events and the state of that collector. -/

namespace SharedHeap.Heap

variable {w : Heap} {g : CollectorId} {c : Collector}

/-! ## Heaps that agree -/

theorem live_congr {w w' : Heap} (hl : ∀ a, w'.linked a = w.linked a)
    (hr : ∀ a, w'.Registered g a ↔ w.Registered g a)
    (hh : ∀ a, w.Registered g a → (w'.HeldElsewhere g a ↔ w.HeldElsewhere g a)) (h : Handle) :
    w'.Live g h ↔ w.Live g h := by
  constructor
  · intro hv
    induction hv with
    | held hreg he => exact .held ((hr _).mp hreg) ((hh _ ((hr _).mp hreg)).mp he)
    | linked _ hab hreg ih => exact .linked ih (hl _ ▸ hab) ((hr _).mp hreg)
  · intro hv
    induction hv with
    | held hreg he => exact .held ((hr _).mpr hreg) ((hh _ hreg).mpr he)
    | linked _ hab hreg ih => exact .linked ih (by rw [hl]; exact hab) ((hr _).mpr hreg)

/-- Changing a collector but for its registry changes no root. -/
theorem heldElsewhere_modifyCollector {f : Collector → Collector}
    (hf : ∀ c, (f c).registry = c.registry) (w : Heap) (g g' : CollectorId) (h : Handle) :
    (w.modifyCollector g f).HeldElsewhere g' h ↔ w.HeldElsewhere g' h := by
  have hr : ∀ k a, (w.modifyCollector g f).Registered k a ↔ w.Registered k a := fun k =>
    registered_congr (registry_modifyCollector hf w g k)
  simp only [HeldElsewhere, hr]
  rfl

theorem live_emit (w : Heap) (e : Event) (g : CollectorId) (h : Handle) :
    (w.emit e).Live g h ↔ w.Live g h := by
  refine live_congr ?_ ?_ ?_ h
  · intro a; rfl
  · intro a; rfl
  · intro a _; rfl

theorem getElem?_modifyCollector (hc : w.collectors[g]? = some c) (f : Collector → Collector) :
    (w.modifyCollector g f).collectors[g]? = some (f c) := by
  simp [modifyCollector, hc]

theorem registry_beginPass (w : Heap) (g g' : CollectorId) :
    ((w.beginPass g).collector g').registry = (w.collector g').registry := by
  refine registry_modifyCollector (f := fun c => { c with state := .running }) ?_ w g g'
  intro c; rfl

/-! ## Marking -/

/-- The marking of a collector's registry marks the live objects. -/
theorem marked_markFrom (hc : w.collectors[g]? = some c) (h : Handle) :
    (w.markFrom c.registry).marked h = true ↔ w.Live g h := by
  have hreg : ∀ a, w.Registered g a ↔ c.registry.contains a = true := by
    intro a; rw [Registered, collector_eq hc]
  have hroot : ∀ a, a ∈ w.roots c.registry ↔ w.Registered g a ∧ w.HeldElsewhere g a := by
    intro a
    rw [roots, List.mem_filter, Registry.mem_handles, ← hreg]
    exact and_congr_right fun hr => isRoot_iff hr
  rw [markFrom, Marker.marked_mark_iff]
  constructor
  · intro hr
    induction hr with
    | root hm hr => exact .held ((hreg _).mpr hr) ((hroot _).mp hm).2
    | step _ hab hr ih => exact .linked ih hab ((hreg _).mpr hr)
  · intro hv
    induction hv with
    | held hr he => exact .root ((hroot _).mpr ⟨hr, he⟩) ((hreg _).mp hr)
    | linked _ hab hr ih => exact .step ih hab ((hreg _).mp hr)

/-- A marking depends on the links and on which registered objects are roots. -/
theorem markFrom_congr {w w' : Heap} {r : Registry} (hl : ∀ a, w'.linked a = w.linked a)
    (hr : ∀ a, r.contains a = true → w'.isRoot a = w.isRoot a) : w'.markFrom r = w.markFrom r := by
  have hlinks : w'.linked = w.linked := funext hl
  have hroots : w'.roots r = w.roots r :=
    List.filter_congr fun a ha => hr a ((r.mem_handles a).mp ha)
  rw [markFrom, markFrom, hlinks, hroots]

/-- That its collector runs makes no difference to a marking. -/
theorem markFrom_beginPass (hc : w.collectors[g]? = some c) :
    (w.beginPass g).markFrom c.registry = w.markFrom c.registry := by
  refine markFrom_congr ?_ fun a ha => ?_
  · intro a; rfl
  · have hr : w.Registered g a := registered_iff_getElem?.mpr ⟨c, hc, ha⟩
    have hr' : (w.beginPass g).Registered g a :=
      (registered_congr (registry_beginPass w g g) a).mpr hr
    rw [Bool.eq_iff_iff, isRoot_iff hr, isRoot_iff hr']
    refine heldElsewhere_modifyCollector (f := fun c => { c with state := .running }) ?_ w g g a
    intro c; rfl

theorem markedCount_markFrom (w : Heap) (r : Registry) :
    (w.markFrom r).markedCount = (r.handles.filter (w.markFrom r).marked).length :=
  Marker.markedCount_mark r w.linked (w.roots r)

/-! ## The effect of a pass -/

/-- A pass as one change of the heap: its collector's state, and what it reports. -/
theorem runPass_eq (hc : w.collectors[g]? = some c) :
    let m := w.markFrom c.registry
    w.runPass g =
      ((⟨c.registry.size, m.markedCount, (c.registry.retain m.marked).1.length⟩,
          (c.registry.retain m.marked).1),
        { w with
          collectors := w.collectors.modify g fun d =>
            { d with registry := (c.registry.retain m.marked).2, state := .idle, pending := 0 }
          events := .passSwept (c.registry.retain m.marked).1.length ::
            .passMarked m.markedCount ::
            (m.dangling.map .danglingLink ++ .passStarted c.registry.size :: w.events) }) := by
  have hb : (w.beginPass g).collectors[g]? = some { c with state := .running } :=
    getElem?_modifyCollector hc _
  have hr : ((w.beginPass g).collector g).registry = c.registry := by rw [collector_eq hb]
  have hr' : (w.collector g).registry = c.registry := by rw [collector_eq hc]
  -- the marking is that of the running collector, which has the same registry
  simp only [runPass, endPass, hr, markFrom_beginPass hc]
  generalize w.markFrom c.registry = m
  simp only [beginPass, modifyCollector, emit, emitMarked, List.modify_modify_eq, hr']
  rfl

/-- The end of a pass, whatever was marked: the collector is idle, and keeps the slots of what was. -/
theorem collector_endPass (hg : g < w.collectors.length) (m : Marker) :
    (w.endPass g m).2.collector g = { w.collector g with
      registry := ((w.collector g).registry.retain m.marked).2, state := .idle, pending := 0 } :=
  collector_modifyCollector_self (w := (w.emitMarked m).emit _) hg _

theorem collector_endPass_of_ne (w : Heap) {g g' : CollectorId} (hg : g' ≠ g) (m : Marker) :
    (w.endPass g m).2.collector g' = w.collector g' :=
  collector_modifyCollector_of_ne ((w.emitMarked m).emit _) hg.symm _

@[simp] theorem objects_runPass (w : Heap) (g : CollectorId) :
    (w.runPass g).2.objects = w.objects := rfl

@[simp] theorem held_runPass (w : Heap) (g : CollectorId) : (w.runPass g).2.held = w.held := rfl

@[simp] theorem registries_runPass (w : Heap) (g : CollectorId) :
    (w.runPass g).2.registries = w.registries := rfl

/-- After a pass its collector is idle, and its registry holds the slots of the live objects. -/
theorem collector_runPass (hc : w.collectors[g]? = some c) :
    ∃ keep : Handle → Bool, (∀ h, keep h = true ↔ w.Live g h) ∧
      (w.runPass g).1.2 = (c.registry.retain keep).1 ∧
      (w.runPass g).2.collectors[g]? =
        some { c with registry := (c.registry.retain keep).2, state := .idle, pending := 0 } := by
  have he := runPass_eq hc
  refine ⟨(w.markFrom c.registry).marked, marked_markFrom hc, by rw [he], ?_⟩
  rw [he]
  simp [hc]

theorem collector_runPass_of_ne (w : Heap) {g g' : CollectorId} (hg : g' ≠ g) :
    (w.runPass g).2.collector g' = w.collector g' := by
  simp only [runPass, endPass, beginPass]
  rw [collector_modifyCollector_of_ne _ hg.symm]
  exact collector_modifyCollector_of_ne _ hg.symm _

theorem registered_runPass (hc : w.collectors[g]? = some c) (h : Handle) :
    (w.runPass g).2.Registered g h ↔ w.Live g h := by
  obtain ⟨keep, hkeep, -, hc'⟩ := collector_runPass hc
  rw [Registered, collector_eq hc', ← hkeep, Registry.contains_retain, Bool.and_eq_true]
  refine and_iff_right_of_imp fun hk => ?_
  have := ((hkeep h).mp hk).registered
  rwa [Registered, collector_eq hc] at this

theorem slot?_runPass (hc : w.collectors[g]? = some c) {h : Handle} (hl : w.Live g h) :
    (w.runPass g).2.slot? g h = w.slot? g h := by
  obtain ⟨keep, hkeep, -, hc'⟩ := collector_runPass hc
  rw [slot?, slot?, collector_eq hc', collector_eq hc, Registry.slot?_retain,
    if_pos ((hkeep h).mpr hl)]

/-- The slots that a pass takes out are those of the objects that are not live. -/
theorem mem_swept_iff (hc : w.collectors[g]? = some c) (x : Holder) :
    x ∈ (w.runPass g).1.2 ↔ w.slot? g x.handle = some x ∧ ¬ w.Live g x.handle := by
  obtain ⟨keep, hkeep, hs, -⟩ := collector_runPass hc
  rw [hs, slot?, collector_eq hc, ← hkeep, ← Registry.mem_holders]
  simp [Registry.retain]

theorem nodup_swept (hc : w.collectors[g]? = some c) : (w.runPass g).1.2.Nodup := by
  obtain ⟨keep, -, hs, -⟩ := collector_runPass hc
  rw [hs]
  exact c.registry.nodup_holders.filter _

/-- The statistics of a pass count what is registered before it and after it. -/
theorem stats_runPass (hc : w.collectors[g]? = some c) :
    (w.runPass g).1.1.examined = c.registry.size ∧
      (w.runPass g).1.1.reachable = ((w.runPass g).2.collector g).registry.size ∧
      (w.runPass g).1.1.swept = (w.runPass g).1.2.length ∧
      (w.runPass g).1.1.swept + (w.runPass g).1.1.reachable = (w.runPass g).1.1.examined := by
  have he := runPass_eq hc
  have hn : (w.markFrom c.registry).markedCount =
      (c.registry.retain (w.markFrom c.registry).marked).2.size := by
    rw [markedCount_markFrom, Registry.size_retain]
  generalize w.markFrom c.registry = m at he hn
  have hcol : (w.runPass g).2.collectors[g]? =
      some { c with registry := (c.registry.retain m.marked).2, state := .idle, pending := 0 } := by
    rw [he]; simp [hc]
  rw [collector_eq hcol, he]
  exact ⟨rfl, hn, rfl, by rw [hn]; exact c.registry.length_retain_add_size m.marked⟩

theorem beginCleanup_frame (w : Heap) (g : CollectorId) :
    (w.beginCleanup g).2.held = w.held ∧ (w.beginCleanup g).2.registries = w.registries ∧
      (w.beginCleanup g).2.allocated = w.allocated := by
  unfold beginCleanup
  split <;> exact ⟨rfl, rfl, rfl⟩

end SharedHeap.Heap
