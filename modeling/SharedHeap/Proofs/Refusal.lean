import SharedHeap.Proofs.Locks
import SharedHeap.Proofs.Stopped

/-! # What a refused registration leaves behind

A registration is refused if its object is registered already. By then a due pass has run, and the new
holder has taken the place of the slot; neither is undone. From there until the lock is given back the
collector stays as it is but for its step, whatever the hooks of the released slots do, because each
change to it needs that lock or the end of a pass that began before. -/

namespace SharedHeap

open Heap Program

/-- All of a collector is as it was, except perhaps its step and its lock. -/
structure Collector.Kept (c c' : Collector) : Prop where
  registry : c'.registry = c.registry
  pending : c'.pending = c.pending
  state : c'.state = c.state
  counters : c'.counters = c.counters

theorem Collector.Kept.refl (c : Collector) : c.Kept c := ⟨rfl, rfl, rfl, rfl⟩

theorem Collector.Kept.trans {c c' c'' : Collector} (h : c.Kept c') (h' : c'.Kept c'') :
    c.Kept c'' :=
  ⟨h'.registry.trans h.registry, h'.pending.trans h.pending, h'.state.trans h.state,
    h'.counters.trans h.counters⟩

namespace Heap

variable {w v : Heap} {a : Action} {as : List Action} {g : CollectorId} {h : Handle}
  {x : Holder} {q : QueueId}

/-! ## While a lock is kept -/

/-- What neither takes the lock of a collector nor ends a pass over it leaves it as it is. -/
theorem kept_perform (ha : a.lock? ≠ some g)
    (hc : ∀ q, a = .close q → (w.queue? q).bind (·.pass? g) = none) :
    (w.collector g).Kept ((a.perform w).collector g) := by
  obtain ⟨hregistry, hpending, -⟩ := undisturbed_perform (w := w) (Action.not_restructures ha)
  refine ⟨hregistry, hpending, state_perform ?_ ?_ ?_, ?_⟩
  · rintro rfl; exact absurd rfl ha
  · rintro rfl; exact ha rfl
  · rintro rfl; exact ha rfl
  · by_cases hclose : ∃ q, a = .close q
    · obtain ⟨q, rfl⟩ := hclose
      have hcounters := counters_closeQueue fun hne => absurd (hc q rfl) hne
      rw [hc q rfl] at hcounters
      exact hcounters
    · exact counters_perform (fun q he => hclose ⟨q, he⟩) g

/-- The open queue `q` gives the lock of `g` back, and no queue that was opened after it ends a pass
over `g`. -/
structure Unwinding (w : Heap) (g : CollectorId) (q : QueueId) : Prop where
  sound : w.Sound
  queues : ∃ above xs below, w.queues = above ++ ⟨q, xs, .unlock g⟩ :: below ∧
    ∀ r ∈ above, r.pass? g = none

theorem Unwinding.mem_queues (hw : w.Unwinding g q) :
    ∃ p ∈ w.queues, p.id = q ∧ p.unlocks g = true := by
  obtain ⟨above, xs, below, hq, -⟩ := hw.queues
  refine ⟨⟨q, xs, .unlock g⟩, ?_, rfl, by simp [ReleaseQueue.unlocks]⟩
  rw [hq]
  exact List.mem_append_right _ List.mem_cons_self

theorem Unwinding.locked (hw : w.Unwinding g q) : (w.collector g).locked = true := by
  obtain ⟨p, hp, -, hu⟩ := hw.mem_queues
  exact hw.sound.guarded.locked hp hu

/-- What is next does not take the lock. -/
theorem Unwinding.lock? (hw : w.Unwinding g q) (ha : a.InTurn w) : a.lock? ≠ some g := by
  intro hlock
  have hfree := (ha.findsFree g hlock).2
  rw [hw.locked] at hfree
  cases hfree

/-- Until the queue is closed, only what is above it is worked off. -/
theorem Unwinding.queues_perform (hw : w.Unwinding g q) (ha : a.InTurn w) (hc : a ≠ .close q) :
    ∃ above xs below, (a.perform w).queues = above ++ ⟨q, xs, .unlock g⟩ :: below ∧
      ∀ r ∈ above, r.pass? g = none := by
  obtain ⟨above, xs, below, hq, habove⟩ := hw.queues
  obtain ⟨r, rfl⟩ | ⟨r, rfl⟩ | ⟨hr, hcl⟩ := a.release_or_close
  · obtain ⟨p, ps, hhead, rfl, -⟩ := Action.inTurn_release_iff.mp ha
    rw [Action.perform, hw.sound.numbered.releaseNext_head hhead]
    rw [hhead] at hq
    cases above with
    | nil =>
      obtain ⟨rfl, rfl⟩ := List.cons.inj hq
      exact ⟨[], xs.tail, _, rfl, by simp⟩
    | cons r above =>
      obtain ⟨rfl, rfl⟩ := List.cons.inj hq
      refine ⟨_ :: above, xs, below, rfl, fun r hr => ?_⟩
      rcases List.mem_cons.mp hr with rfl | hr
      · exact habove p List.mem_cons_self
      · exact habove r (List.mem_cons_of_mem _ hr)
  · obtain ⟨p, ps, hhead, rfl, -⟩ := Action.inTurn_close_iff.mp ha
    rw [Action.perform, hw.sound.numbered.closeQueue_head hhead]
    rw [hhead] at hq
    cases above with
    | nil =>
      obtain ⟨rfl, rfl⟩ := List.cons.inj hq
      exact absurd rfl hc
    | cons r above =>
      obtain ⟨rfl, rfl⟩ := List.cons.inj hq
      exact ⟨above, xs, below, rfl, fun r hr => habove r (List.mem_cons_of_mem _ hr)⟩
  · obtain ⟨new, hnew, hpass, -⟩ := opens_perform (w := w) hr hcl
    refine ⟨new.toList ++ above, xs, below, ?_, fun r hr => ?_⟩
    · rw [hnew.queues, hq, List.append_assoc]
    · rcases List.mem_append.mp hr with hr | hr
      · obtain rfl : new = some r := by simpa using hr
        have hg := hpass g
        rwa [Action.pass?_of_lock? w (hw.lock? ha), ite_self] at hg
      · exact habove r hr

theorem Unwinding.perform (hw : w.Unwinding g q) (ha : a.InTurn w) (hc : a ≠ .close q) :
    (a.perform w).Unwinding g q ∧ (w.collector g).Kept ((a.perform w).collector g) := by
  refine ⟨⟨hw.sound.perform ha.findsFree, hw.queues_perform ha hc⟩,
    kept_perform (hw.lock? ha) ?_⟩
  -- the queue that is closed is the latest, and so one of those above
  rintro r rfl
  obtain ⟨p, ps, hhead, rfl, -⟩ := Action.inTurn_close_iff.mp ha
  obtain ⟨above, xs, below, hq, habove⟩ := hw.queues
  rw [queue?_head hhead]
  rw [hhead] at hq
  cases above with
  | nil =>
    obtain ⟨rfl, -⟩ := List.cons.inj hq
    exact absurd rfl hc
  | cons r above =>
    obtain ⟨rfl, -⟩ := List.cons.inj hq
    exact habove p List.mem_cons_self

theorem Unwinding.performs (hw : w.Unwinding g q) (has : w.Orderly as) (hc : .close q ∉ as) :
    (w.performs as).Unwinding g q ∧ (w.collector g).Kept ((w.performs as).collector g) := by
  induction as generalizing w with
  | nil => exact ⟨hw, .refl _⟩
  | cons a as ih =>
    rw [List.mem_cons, not_or] at hc
    obtain ⟨hw, hkept⟩ := hw.perform has.1 (Ne.symm hc.1)
    obtain ⟨hw, hkept'⟩ := ih hw has.2 hc.2
    exact ⟨hw, hkept.trans hkept'⟩

/-- The end of the queue gives the lock back and does nothing else to the collector. -/
theorem Unwinding.close (hw : w.Unwinding g q) :
    (w.collector g).Kept ((w.closeQueue q).collector g) ∧
      ((w.closeQueue q).collector g).locked = false := by
  obtain ⟨p, hp, rfl, hu⟩ := hw.mem_queues
  have hqueue := hw.sound.numbered.queue?_eq hp
  have hpass : p.pass? g = none := by
    have hafter : p.afterwards = .unlock g := by simpa [ReleaseQueue.unlocks] using hu
    simp [ReleaseQueue.pass?, hafter]
  refine ⟨kept_perform (a := .close p.id) (by simp [Action.lock?]) ?_, ?_⟩
  · rintro q hq
    obtain rfl := Action.close.inj hq
    rw [hqueue]
    exact hpass
  · rw [locked_closeQueue hqueue, hu]
    simp

/-! ## What a refusal does -/

/-- From `w` to `v`, collector `g` refused to register the object of `x` once more. -/
structure Refused (w v : Heap) (g : CollectorId) (x : Holder) : Prop where
  registered : ∀ h, v.Registered g h ↔ w.Registered g h ∧ (w.PassDue g → w.Live g h)
  own : v.slot? g x.handle = some x
  others : ∀ h, h ≠ x.handle → v.Registered g h → v.slot? g h = w.slot? g h
  pending_of_due : w.PassDue g → (v.collector g).pending = 0
  pending_of_not_due : ¬ w.PassDue g → (v.collector g).pending = (w.collector g).pending
  state : (v.collector g).state = (w.collector g).state
  counters : (v.collector g).counters = (w.collector g).counters

theorem Refused.kept {v' : Heap} (hv : w.Refused v g x)
    (hk : (v.collector g).Kept (v'.collector g)) : w.Refused v' g x := by
  have hslot : ∀ h, v'.slot? g h = v.slot? g h := fun h => by rw [slot?, hk.registry]; rfl
  have hregistered : ∀ h, v'.Registered g h ↔ v.Registered g h := registered_congr hk.registry
  refine ⟨fun h => (hregistered h).trans (hv.registered h), (hslot _).trans hv.own,
    fun h hne hr => (hslot h).trans (hv.others h hne ((hregistered h).mp hr)),
    fun hd => hk.pending.trans (hv.pending_of_due hd),
    fun hd => hk.pending.trans (hv.pending_of_not_due hd), hk.state.trans hv.state,
    hk.counters.trans hv.counters⟩

/-- A due pass keeps the slots of live objects as they are. -/
theorem slot?_duePass (hr : w.Registered g h) (hl : w.PassDue g → w.Live g h) :
    (w.duePass g).2.slot? g h = w.slot? g h := by
  by_cases hd : w.PassDue g
  · obtain ⟨c, hc, -⟩ := registered_iff_getElem?.mp hr
    rw [duePass_of_due hd]
    exact slot?_runPass (w := w.emit _) hc ((live_emit w _ g h).mpr (hl hd))
  · rw [duePass_of_not_due hd]

/-- An object that the application holds is live if it is registered at all. -/
theorem live_of_count (hx : 0 < w.held.count x) (hr : w.Registered g x.handle) :
    w.Live g x.handle := .held hr (.inl (heldCount_pos_of_count hx))

theorem count_hold_pos (w : Heap) (x : Holder) : 0 < (w.hold x).held.count x := by
  rw [hold, Bag.count_add, if_pos rfl]
  exact Nat.succ_pos _

/-- Of a held object, a registration is refused iff it is registered already. -/
theorem isAccepted_register (hg : g < w.collectors.length) (hx : 0 < w.held.count x) :
    (w.register g x).1.isAccepted = false ↔ w.Registered g x.handle := by
  have hcontains := registered_duePass (List.getElem?_eq_getElem hg) x.handle
  rw [(collector_register hg x).1, Bool.not_eq_false']
  exact hcontains.trans ⟨fun h => h.1, fun hr => ⟨hr, fun _ => live_of_count hx hr⟩⟩

theorem isAccepted_of_unregistered (hg : g < w.collectors.length) (hx : 0 < w.held.count x)
    (hr : ¬ w.Registered g x.handle) : (w.register g x).1.isAccepted = true := by
  rw [← Bool.not_eq_false, isAccepted_register hg hx]
  exact hr

theorem refused_register (hx : 0 < w.held.count x) (hr : w.Registered g x.handle) :
    w.Refused (w.register g x).2 g x := by
  have hg := hr.lt_length
  have hlive := live_of_count hx hr
  obtain ⟨c, hc, -⟩ := registered_iff_getElem?.mp hr
  have hregistered := registered_register hc x
  have hrefused := (isAccepted_register hg hx).mpr hr
  have hcol := (collector_register hg x).2
  rw [hrefused] at hcol
  have hslot : ∀ h, (w.register g x).2.slot? g h =
      if x.handle = h then some x else (w.duePass g).2.slot? g h := slot?_register hg x
  refine ⟨fun h => (hregistered h).trans ⟨?_, .inr⟩, ?_, fun h hne hh => ?_, fun hd => ?_,
    fun hd => ?_, state_register w g g x, ?_⟩
  · rintro (rfl | hh)
    · exact ⟨hr, fun _ => hlive⟩
    · exact hh
  · rw [hslot, if_pos rfl]
  · obtain ⟨hh, hl⟩ := ((hregistered h).mp hh).resolve_left hne
    rw [hslot, if_neg (Ne.symm hne), slot?_duePass hh hl]
  · obtain ⟨keep, -, -, hpass⟩ := collector_runPass (w := w.emit
      (.thresholdReached (w.collector g).pending (w.collector g).step)) hc
    rw [hcol, duePass_of_due hd]
    show Collector.pending (collector _ g) = 0
    rw [collector_eq hpass]
  · rw [hcol, duePass_of_not_due hd]
    rfl
  · exact counters_perform (a := .register g x) (fun _ he => by cases he) g

/-- The queue that a refused registration opens is still to be worked off. -/
theorem unwinding_register (hw : w.Sound) (ha : (Action.register g x).InTurn w)
    (hx : 0 < w.held.count x) (hr : w.Registered g x.handle) :
    (w.register g x).2.Unwinding g w.opened := by
  refine ⟨hw.perform ha.findsFree, ?_⟩
  obtain ⟨y, hy⟩ : ∃ y, (w.duePass g).2.slot? g x.handle = some y := by
    rw [slot?_duePass hr fun _ => live_of_count hx hr, ← Option.isSome_iff_exists]
    exact (Registry.isSome_slot? _ _).trans hr
  exact ⟨[], y :: w.dueSwept g, w.queues, (register_of_slot hy).2, by simp⟩

/-- If the queues are closed in the end, a refused registration is over at some point. -/
theorem close_mem_of_refused (hw : w.Sound) (hx : 0 < w.held.count x)
    (hr : w.Registered g x.handle) (has : w.Orderly (.register g x :: as))
    (hq : (w.performs (.register g x :: as)).queues = []) : .close w.opened ∈ as := by
  by_contra hn
  have hunwinding := (unwinding_register hw has.1 hx hr).performs has.2 hn
  obtain ⟨p, hp, -⟩ := hunwinding.1.mem_queues
  have hq : ((w.register g x).2.performs as).queues = [] := hq
  rw [hq] at hp
  exact List.not_mem_nil hp

/-- When it is over, what it did to the collector is still all that happened to it. -/
theorem refused_performs (hw : w.Sound) (hx : 0 < w.held.count x) (hr : w.Registered g x.handle)
    (has : w.Orderly (.register g x :: as)) (hc : .close w.opened ∉ as) :
    let v := w.performs (.register g x :: as ++ [.close w.opened])
    w.Refused v g x ∧ (v.collector g).locked = false := by
  obtain ⟨hunwinding, hkept⟩ := (unwinding_register hw has.1 hx hr).performs has.2 hc
  obtain ⟨hend, hfree⟩ := hunwinding.close
  have hv : w.performs (.register g x :: as ++ [.close w.opened]) =
      ((w.register g x).2.performs as).closeQueue w.opened := performs_append _ _ _
  dsimp only
  rw [hv]
  exact ⟨((refused_register hx hr).kept hkept).kept hend, hfree⟩

end Heap

namespace Program.Session

/-- What an initialiser returns is refused iff it is registered when the initialiser is done. -/
theorem createFrom_refused_iff {α : Type} (run : Runner) {g : CollectorId}
    {init : Session → α × Holder × Session} {s t : Session} {x : Holder}
    (hinit : (init s).2 = (x, t)) (hs : t.stuck = false) (hg : g < t.heap.collectors.length)
    (hlock : (t.heap.collector g).locked = false) :
    (∃ h, (s.createFrom run g init).2.1 = .error h) ↔ t.heap.Registered g x.handle := by
  have hrefused := isAccepted_register (w := t.heap.hold x) hg (count_hold_pos t.heap x)
  have hacquire : t.acquire g = t := by
    unfold acquire
    rw [hlock]
    rfl
  have hcreate : (s.createFrom run g init).2 = t.register run g x := by
    unfold createFrom
    generalize init s = result at *
    obtain ⟨told, y, u⟩ := result
    obtain ⟨rfl, rfl⟩ := Prod.mk.inj hinit
    rfl
  refine Iff.trans ?_ hrefused
  rw [hcreate, register, hacquire]
  dsimp only
  rw [hs, if_neg Bool.false_ne_true]
  generalize (t.heap.hold x).register g x = result
  obtain ⟨result, v⟩ := result
  cases result with
  | accepted swept => cases swept <;> simp [Registration.isAccepted]
  | refused q => simp [Registration.isAccepted]

end Program.Session

namespace Heap

/-- What a bare registry holds after an insertion. -/
theorem slot?_registryInsert {w : Heap} {r : RegistryId} (hr : r < w.registries.length) (x : Holder)
    (h : Handle) : ((w.registryInsert r x).2.registry r).slot? h =
      if x.handle = h then some x else (w.registry r).slot? h := by
  have hreg : (w.registryInsert r x).2.registry r = ((w.registry r).insert x).2 := by
    simp [registryInsert, setRegistry, letGo, registry, hr]
  rw [hreg, Registry.slot?_insert]

/-- **A refused registration undoes nothing.** A program that does not get stuck is the run of a single
thread, whose queues are closed when its steps are over. What an initialiser returns is refused iff it
is registered already when the initialiser is done. Now take such a run in which an object is refused.
At some point the lock is given back. If a pass was due, it has swept and nothing is pending any more;
apart from that the same handles are registered, with the same slots, the same number is pending, and
the state and the counters are the same. But the slot of the object itself is the holder that was to be
registered, whatever it presents. A bare registry likewise puts the new holder in the place of the one
that it hands back, and leaves all other slots as they are. -/
theorem refusal_undoes_nothing :
    (∀ depth steps name spec, ∃ as,
      Session.Ran (initial 1) (runSteps depth steps (.start name spec)).2 as) ∧
    (∀ (α : Type) (run : Runner) (g : CollectorId) (init : Session → α × Holder × Session)
      (s t : Session) (x : Holder), (init s).2 = (x, t) → t.stuck = false →
      g < t.heap.collectors.length → (t.heap.collector g).locked = false →
      ((∃ h, (s.createFrom run g init).2.1 = .error h) ↔ t.heap.Registered g x.handle)) ∧
    (∀ (w : Heap) (g : CollectorId) (x : Holder) (as : List Action), w.Sound →
      0 < w.held.count x → w.Registered g x.handle → w.Orderly (.register g x :: as) →
      (w.performs (.register g x :: as)).queues = [] →
      .close w.opened ∈ as ∧ ∀ during later, as = during ++ .close w.opened :: later →
        .close w.opened ∉ during →
        let v := w.performs (.register g x :: during ++ [.close w.opened])
        w.Refused v g x ∧ (v.collector g).locked = false) ∧
    ∀ (w : Heap) (r : RegistryId) (x : Holder), r < w.registries.length →
      let v := (w.registryInsert r x).2
      (w.registryInsert r x).1 = (w.registry r).slot? x.handle ∧
        ∀ h, (v.registry r).slot? h = if x.handle = h then some x else (w.registry r).slot? h := by
  refine ⟨runSteps_ran, ?_, ?_, fun w r x hr => ⟨rfl, slot?_registryInsert hr x⟩⟩
  · exact fun α run g init s t x hinit hs hg => Session.createFrom_refused_iff run hinit hs hg
  · intro w g x as hw hx hr has hq
    refine ⟨close_mem_of_refused hw hx hr has hq, ?_⟩
    rintro during later rfl hc
    have hduring : w.Orderly (.register g x :: during ++ .close w.opened :: later) := has
    exact refused_performs hw hx hr (each_append.mp hduring).1 hc

/-- Two nodes are registered and the second one is let go, so with step two the attempt to register the
base of the first one sweeps the second. While the slots are released, another collector is made and
asked. -/
theorem refusal_undoes_nothing_of_due :
    let x (n : Nat) : Holder := ⟨.fresh n, .whole⟩
    let base : Holder := ⟨.fresh 0, .base⟩
    let before : List Action := [.addCollector 3, .allocate .node, .clone (x 0), .register 0 (x 0),
      .allocate .node, .clone (x 1), .register 0 (x 1), .drop (x 1), .clone base, .clone base]
    let during : List Action := [.release 0, .addCollector 5, .cleanup 1, .close 1, .release 0]
    let w := (initial 1).performs before
    let v := w.performs (.register 0 base :: during ++ [.close 0])
    w.PassDue 0 ∧ w.slot? 0 (.fresh 0) = some (x 0) ∧ w.Registered 0 (.fresh 1) ∧
      (w.collector 0).pending = 2 ∧ w.Refused v 0 base ∧ v.slot? 0 (.fresh 0) = some base ∧
      ¬ v.Registered 0 (.fresh 1) ∧ (v.collector 0).pending = 0 := by
  intro x base before during w v
  have hw : w.Sound := (sound_initial 1).performs (by decide +kernel)
  have hr : w.Registered 0 base.handle := by rw [Registered]; decide +kernel
  have horderly : w.Orderly (.register 0 base :: (during ++ [.close 0])) := by decide +kernel
  have hq : (w.performs (.register 0 base :: (during ++ [.close 0]))).queues = [] := by
    rw [← List.isEmpty_iff]
    decide +kernel
  have hheld : 0 < w.held.count base := by decide +kernel
  have hover := refusal_undoes_nothing.2.2.1 w 0 base (during ++ [.close 0]) hw hheld hr horderly
  obtain ⟨-, hduring⟩ := hover hq
  have hopened : w.opened = 0 := by decide +kernel
  rw [hopened] at hduring
  obtain ⟨hrefused, -⟩ := hduring during [] rfl (by simp [during])
  have hd : w.PassDue 0 := ⟨by decide +kernel, by decide +kernel⟩
  refine ⟨hd, by decide +kernel, by rw [Registered]; decide +kernel, by decide +kernel, hrefused,
    hrefused.own, ?_, hrefused.pending_of_due hd⟩
  rw [Registered]
  decide +kernel

end Heap

/-- With step two, the attempt to register the base of a node once more runs a due pass and is refused.
Nothing is pending any more, and the handle, which had one registration pending and was looked up as a
node, now presents a plain object. -/
theorem Program.Session.slot_changed_by_refusal :
    let s := (runSteps 20 [.mk "gc" (.create (.fresh .node []) none (some "a")),
      .mk "gc" (.base "a" (some "b"))] (.start "gc" (.withStep 2))).2
    let last := runSteps 20 [.mk "gc" (.create (.again "b") (some []) none)] s
    let t := last.2
    last.1.map (fun | .mk (.failed f) _ _ => f.message | _ => "") =
        ["handle gc#1 registered twice"] ∧
      (s.heap.collector 0).pending = 1 ∧ (t.heap.collector 0).pending = 0 ∧
      s.heap.lookup 0 .node (.fresh 0) = some ⟨.fresh 0, .whole⟩ ∧
      t.heap.lookup 0 .node (.fresh 0) = none ∧
      t.heap.lookup 0 .object (.fresh 0) = some ⟨.fresh 0, .base⟩ := by
  decide +kernel

end SharedHeap
