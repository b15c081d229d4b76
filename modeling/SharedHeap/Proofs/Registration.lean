import SharedHeap.Proofs.Pass

/-! # What a registration does to a heap

A registration runs a due pass, puts the new slot in place, and then either counts it or keeps the
lock for the slots that a refusal has to release. Each part has its lemmas here, and the whole
registration is described by them. -/

namespace SharedHeap.Heap

variable {w : Heap} {g g' : CollectorId} {c : Collector} {h : Handle}

def Registration.isAccepted : Registration → Bool
  | accepted _ => true
  | refused _ => false

/-! ## The due pass -/

/-- A registration in `g` would run a pass first. -/
def PassDue (w : Heap) (g : CollectorId) : Prop :=
  (w.collector g).isDue = true ∧ (w.collector g).state = .idle

/-- The slots that a due pass took out; none if no pass ran. -/
def dueSwept (w : Heap) (g : CollectorId) : List Holder := ((w.duePass g).1.map (·.2)).getD []

theorem duePass_of_due (hd : w.PassDue g) :
    w.duePass g =
      (some ((w.emit (.thresholdReached (w.collector g).pending (w.collector g).step)).runPass g).1,
        ((w.emit (.thresholdReached (w.collector g).pending (w.collector g).step)).runPass g).2) := by
  exact if_pos hd

theorem duePass_of_not_due (hd : ¬ w.PassDue g) : w.duePass g = (none, w) := by
  exact if_neg hd

/-- But for its collector, its events and the clock of its handles a pass changes nothing. -/
theorem duePass_frame (w : Heap) (g : CollectorId) :
    (w.duePass g).2.objects = w.objects ∧ (w.duePass g).2.held = w.held ∧
      (w.duePass g).2.registries = w.registries ∧ (w.duePass g).2.queues = w.queues ∧
      (w.duePass g).2.allocated = w.allocated ∧ (w.duePass g).2.opened = w.opened ∧
      (w.duePass g).2.collectors.length = w.collectors.length := by
  by_cases hd : w.PassDue g
  · rw [duePass_of_due hd]
    refine ⟨objects_runPass _ g, held_runPass _ g, registries_runPass _ g, rfl, rfl, rfl, ?_⟩
    simp [runPass, endPass, beginPass, modifyCollector, emit, emitMarked]
  · rw [duePass_of_not_due hd]
    exact ⟨rfl, rfl, rfl, rfl, rfl, rfl, rfl⟩

theorem registered_duePass (hc : w.collectors[g]? = some c) (h : Handle) :
    (w.duePass g).2.Registered g h ↔ w.Registered g h ∧ (w.PassDue g → w.Live g h) := by
  by_cases hd : w.PassDue g
  · rw [duePass_of_due hd]
    refine (registered_runPass (w := w.emit _) hc h).trans ?_
    rw [live_emit]
    exact ⟨fun hl => ⟨hl.registered, fun _ => hl⟩, fun hl => hl.2 hd⟩
  · rw [duePass_of_not_due hd]
    exact ⟨fun hr => ⟨hr, fun hd' => absurd hd' hd⟩, fun hr => hr.1⟩

theorem collector_duePass_of_ne (w : Heap) (hg : g' ≠ g) :
    (w.duePass g).2.collector g' = w.collector g' := by
  by_cases hd : w.PassDue g
  · rw [duePass_of_due hd]
    exact collector_runPass_of_ne _ hg
  · rw [duePass_of_not_due hd]

/-! ## The slot -/

theorem registered_insertSlot (hg : g < w.collectors.length) (x : Holder) (h : Handle) :
    (w.insertSlot g x).2.Registered g h ↔ h = x.handle ∨ w.Registered g h := by
  have hcol : (w.insertSlot g x).2.collector g =
      { w.collector g with registry := ((w.collector g).registry.insert x).2 } :=
    collector_modifyCollector_self hg _
  rw [Registered, hcol, Registry.contains_insert, Bool.or_eq_true, beq_iff_eq, eq_comm]
  rfl

theorem collector_insertSlot (hg : g < w.collectors.length) (x : Holder) :
    g < (w.insertSlot g x).2.collectors.length ∧
      (w.insertSlot g x).2.collector g =
        { w.collector g with registry := ((w.collector g).registry.insert x).2 } :=
  ⟨by simpa [insertSlot, modifyCollector, letGo] using hg, collector_modifyCollector_self hg _⟩

/-- The slot takes the holder that it is made of from the application. -/
theorem insertSlot_frame (w : Heap) (g : CollectorId) (x : Holder) :
    (w.insertSlot g x).2.held = w.held.remove x ∧ (w.insertSlot g x).2.registries = w.registries ∧
      (w.insertSlot g x).2.allocated = w.allocated ∧ (w.insertSlot g x).2.objects = w.objects :=
  ⟨rfl, rfl, rfl, rfl⟩

theorem collector_insertSlot_of_ne (w : Heap) (x : Holder) (hg : g' ≠ g) :
    (w.insertSlot g x).2.collector g' = w.collector g' :=
  collector_modifyCollector_of_ne w hg.symm _

/-! ## The end of a registration -/

theorem registry_refuse (w : Heap) (g g' : CollectorId) (slots : List Holder) :
    ((w.refuse g slots).2.collector g').registry = (w.collector g').registry := by
  refine registry_modifyCollector (f := fun c => { c with locked := true }) ?_ w g g'
  intro c; rfl

theorem collector_refuse_of_ne (w : Heap) (slots : List Holder) (hg : g' ≠ g) :
    (w.refuse g slots).2.collector g' = w.collector g' :=
  collector_modifyCollector_of_ne w hg.symm _

theorem refuse_frame (w : Heap) (g : CollectorId) (slots : List Holder) :
    (w.refuse g slots).2.held = w.held ∧ (w.refuse g slots).2.registries = w.registries ∧
      (w.refuse g slots).2.allocated = w.allocated ∧ (w.refuse g slots).2.objects = w.objects :=
  ⟨rfl, rfl, rfl, rfl⟩

theorem accept_frame (w : Heap) (g : CollectorId) (x : Handle)
    (pass : Option (PassStats × List Holder)) :
    (w.accept g x pass).2.held = w.held ∧ (w.accept g x pass).2.registries = w.registries ∧
      (w.accept g x pass).2.allocated = w.allocated ∧
      (w.accept g x pass).2.objects = w.objects := by
  cases pass <;> exact ⟨rfl, rfl, rfl, rfl⟩

theorem isAccepted_accept (w : Heap) (g : CollectorId) (h : Handle)
    (pass : Option (PassStats × List Holder)) : (w.accept g h pass).1.isAccepted = true := by
  cases pass <;> rfl

/-- What an accepted registration does to the collectors is to count it. -/
theorem collectors_accept (w : Heap) (g : CollectorId) (x : Handle)
    (pass : Option (PassStats × List Holder)) :
    (w.accept g x pass).2.collectors =
      (w.modifyCollector g fun c => { c with pending := c.pending + 1 }).collectors := by
  cases pass <;> rfl

theorem registry_accept (w : Heap) (g g' : CollectorId) (x : Handle)
    (pass : Option (PassStats × List Holder)) :
    ((w.accept g x pass).2.collector g').registry = (w.collector g').registry := by
  rw [collector, collectors_accept]
  refine registry_modifyCollector (f := fun c => { c with pending := c.pending + 1 }) ?_ w g g'
  intro c; rfl

theorem collector_accept_of_ne (w : Heap) (x : Handle) (pass : Option (PassStats × List Holder))
    (hg : g' ≠ g) : (w.accept g x pass).2.collector g' = w.collector g' := by
  rw [collector, collectors_accept]
  exact collector_modifyCollector_of_ne w hg.symm _

/-- What is left of a registration once the pass, if one was due, is over. -/
def enroll (w : Heap) (g : CollectorId) (x : Holder) (pass : Option (PassStats × List Holder)) :
    Registration × Heap :=
  match (w.insertSlot g x).1 with
  | some y => (w.insertSlot g x).2.refuse g (y :: (pass.map (·.2)).getD [])
  | none => (w.insertSlot g x).2.accept g x.handle pass

theorem length_enroll (w : Heap) (g : CollectorId) (x : Holder)
    (pass : Option (PassStats × List Holder)) :
    (w.enroll g x pass).2.collectors.length = w.collectors.length := by
  unfold enroll
  split
  · simp [refuse, openQueue, insertSlot, modifyCollector, letGo]
  · rw [collectors_accept]
    simp [insertSlot, modifyCollector, letGo]

theorem collector_enroll_of_ne (w : Heap) (x : Holder) (pass : Option (PassStats × List Holder))
    (hg : g' ≠ g) : (w.enroll g x pass).2.collector g' = w.collector g' := by
  unfold enroll
  split
  · rw [collector_refuse_of_ne _ _ hg, collector_insertSlot_of_ne _ x hg]
  · rw [collector_accept_of_ne _ _ _ hg, collector_insertSlot_of_ne _ x hg]

/-- The slot is there, and either one more is counted or the lock is kept. -/
theorem collector_enroll (hg : g < w.collectors.length) (x : Holder)
    (pass : Option (PassStats × List Holder)) :
    let c := w.collector g
    (w.enroll g x pass).1.isAccepted = !c.registry.contains x.handle ∧
      (w.enroll g x pass).2.collector g =
        if (w.enroll g x pass).1.isAccepted then
          { c with registry := (c.registry.insert x).2, pending := c.pending + 1 }
        else { c with registry := (c.registry.insert x).2, locked := true } := by
  intro c
  obtain ⟨hlen, hcol⟩ := collector_insertSlot hg x
  have hfound : (w.insertSlot g x).1.isSome = c.registry.contains x.handle :=
    Registry.isSome_slot? _ _
  rw [enroll, ← hfound]
  cases (w.insertSlot g x).1 with
  | some y =>
    refine ⟨rfl, (collector_modifyCollector_self hlen _).trans ?_⟩
    rw [hcol]
    rfl
  | none =>
    dsimp only
    refine ⟨isAccepted_accept .., ?_⟩
    rw [if_pos (isAccepted_accept ..), collector, collectors_accept]
    refine (collector_modifyCollector_self hlen _).trans ?_
    rw [hcol]

/-! ## The whole -/

theorem register_eq_enroll (w : Heap) (g : CollectorId) (x : Holder) :
    w.register g x = (w.duePass g).2.enroll g x (w.duePass g).1 := rfl

theorem register_eq (w : Heap) (g : CollectorId) (x : Holder) :
    w.register g x =
      match ((w.duePass g).2.insertSlot g x).1 with
      | some y => ((w.duePass g).2.insertSlot g x).2.refuse g (y :: w.dueSwept g)
      | none => ((w.duePass g).2.insertSlot g x).2.accept g x.handle (w.duePass g).1 := rfl

/-- An object that has a slot is refused. That slot is the first of the queue at whose end the lock is
given back. -/
theorem register_of_slot {x y : Holder} (hy : (w.duePass g).2.slot? g x.handle = some y) :
    (w.register g x).1 = .refused w.opened ∧
      (w.register g x).2.queues = ⟨w.opened, y :: w.dueSwept g, .unlock g⟩ :: w.queues := by
  obtain ⟨-, -, -, hq, -, ho, -⟩ := duePass_frame w g
  have hfound : ((w.duePass g).2.insertSlot g x).1 = some y := hy
  rw [register_eq, hfound, ← hq, ← ho]
  exact ⟨rfl, rfl⟩

/-- An object that has no slot is accepted. -/
theorem register_of_new {x : Holder} (hc : ∃ c, w.collectors[g]? = some c)
    (hx : ¬ w.Registered g x.handle) :
    w.register g x = ((w.duePass g).2.insertSlot g x).2.accept g x.handle (w.duePass g).1 := by
  obtain ⟨c, hc⟩ := hc
  have hslot : ((w.duePass g).2.insertSlot g x).1 = none := by
    show ((w.duePass g).2.collector g).registry.slot? x.handle = none
    rw [Registry.slot?_eq_none_iff, ← Bool.not_eq_true]
    exact fun hr => hx ((registered_duePass hc _).mp hr).1
  rw [register_eq, hslot]

/-- What is registered after a registration, refused or not: the object itself, and what a due pass
left. -/
theorem registered_register (hc : w.collectors[g]? = some c) (x : Holder) (h : Handle) :
    (w.register g x).2.Registered g h ↔
      h = x.handle ∨ (w.Registered g h ∧ (w.PassDue g → w.Live g h)) := by
  have hg : g < (w.duePass g).2.collectors.length := by
    rw [(duePass_frame w g).2.2.2.2.2.2]
    exact (List.getElem?_eq_some_iff.mp hc).1
  rw [← registered_duePass hc, ← registered_insertSlot hg, register_eq]
  split
  · exact registered_congr (registry_refuse _ g g _) h
  · exact registered_congr (registry_accept _ g g _ _) h

theorem collector_register_of_ne (w : Heap) (x : Holder) (hg : g' ≠ g) :
    (w.register g x).2.collector g' = w.collector g' := by
  rw [register_eq_enroll, collector_enroll_of_ne _ x _ hg, collector_duePass_of_ne w hg]

/-- Of the holders of the application a registration takes the one that it registers. -/
theorem register_frame (w : Heap) (g : CollectorId) (x : Holder) :
    (w.register g x).2.held = w.held.remove x ∧ (w.register g x).2.registries = w.registries ∧
      (w.register g x).2.allocated = w.allocated ∧ (w.register g x).2.objects = w.objects := by
  obtain ⟨ho, hh, hr, -, ha, -, -⟩ := duePass_frame w g
  rw [← hh, ← hr, ← ha, ← ho, register_eq]
  obtain ⟨hh, hr, ha, ho⟩ := insertSlot_frame (w.duePass g).2 g x
  rw [← hh, ← hr, ← ha, ← ho]
  split
  · exact refuse_frame ..
  · exact accept_frame ..

theorem length_register (w : Heap) (g : CollectorId) (x : Holder) :
    (w.register g x).2.collectors.length = w.collectors.length := by
  rw [register_eq_enroll, length_enroll, (duePass_frame w g).2.2.2.2.2.2]

/-- What a registration makes of its collector once a due pass has run. -/
theorem collector_register (hg : g < w.collectors.length) (x : Holder) :
    let c := (w.duePass g).2.collector g
    (w.register g x).1.isAccepted = !c.registry.contains x.handle ∧
      (w.register g x).2.collector g =
        if (w.register g x).1.isAccepted then
          { c with registry := (c.registry.insert x).2, pending := c.pending + 1 }
        else { c with registry := (c.registry.insert x).2, locked := true } := by
  have hlt : g < (w.duePass g).2.collectors.length := by rwa [(duePass_frame w g).2.2.2.2.2.2]
  exact collector_enroll hlt x (w.duePass g).1

/-- But for its registry, all that an accepted registration changes of its collector is what is
pending: that object alone after a due pass, and else one more. -/
theorem collector_register_of_accepted (hc : w.collectors[g]? = some c) {x : Holder}
    (ha : (w.register g x).1.isAccepted = true) :
    ∃ r n, (w.register g x).2.collector g = { c with registry := r, pending := n } ∧
      (w.PassDue g → n = 1) ∧ (¬ w.PassDue g → n = c.pending + 1) := by
  obtain ⟨-, hcol⟩ := collector_register (List.getElem?_eq_some_iff.mp hc).1 x
  rw [if_pos ha] at hcol
  by_cases hd : w.PassDue g
  · obtain ⟨keep, -, -, hpass⟩ := collector_runPass
      (w := w.emit (.thresholdReached (w.collector g).pending (w.collector g).step)) hc
    have hidle : c.state = .idle := collector_eq hc ▸ hd.2
    rw [duePass_of_due hd, collector_eq hpass, ← hidle] at hcol
    exact ⟨_, _, hcol, fun _ => rfl, fun hn => absurd hd hn⟩
  · rw [duePass_of_not_due hd, collector_eq hc] at hcol
    exact ⟨_, _, hcol, fun h => absurd h hd, fun _ => rfl⟩

/-- A registration puts its holder into the slot, refused or not. -/
theorem slot?_register (hg : g < w.collectors.length) (x : Holder) (h : Handle) :
    (w.register g x).2.slot? g h =
      if x.handle = h then some x else (w.duePass g).2.slot? g h := by
  rw [slot?, (collector_register hg x).2]
  split <;> exact Registry.slot?_insert _ x h

end SharedHeap.Heap
