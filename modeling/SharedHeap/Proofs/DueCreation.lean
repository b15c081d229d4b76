import SharedHeap.Proofs.Sweep

/-! # A creation that is due

A creation that reaches the step runs a pass before its object has a slot, with two holders of the
object about, and counts the pass after the object. It comes to the same as a cleanup and then a
creation that runs no pass, but for the order in which all this is reported. Only with step one the
second creation would run a pass of its own. -/

namespace SharedHeap

open Program (Runner Session)

/-- What a collector is once an object has a slot that had none. -/
def Collector.enroll (c : Collector) (x : Holder) : Collector :=
  { c with registry := (c.registry.insert x).2, pending := c.pending + 1 }

namespace Heap

variable {w : Heap} {g : CollectorId} {c : Collector} {x : Holder}

/-! ## What the new object has no part in -/

/-- A further holder of an object that is not registered makes no difference to a marking. -/
theorem markFrom_hold (hc : w.collectors[g]? = some c) (hx : ¬ w.Registered g x.handle) :
    (w.hold x).markFrom c.registry = w.markFrom c.registry := by
  refine markFrom_congr ?_ fun a ha => ?_
  · intro a; rfl
  · have hne : x.handle ≠ a := fun he => hx (he ▸ registered_iff_getElem?.mpr ⟨c, hc, ha⟩)
    have hcount : (w.hold x).holderCount a = w.holderCount a := by
      rw [holderCount, heldCount_hold, if_neg hne, Nat.add_zero]
      rfl
    rw [isRoot, hcount]
    rfl

/-! ## Registrations -/

/-- A registration that is not due puts the new object into its slot and counts it. -/
theorem register_of_not_due (hc : w.collectors[g]? = some c) (hd : ¬ w.PassDue g)
    (hx : ¬ w.Registered g x.handle) :
    w.register g x = (.accepted none, { w with
      collectors := w.collectors.set g (c.enroll x)
      held := w.held.remove x
      events := .objectRegistered x.handle :: w.events }) := by
  rw [register_of_new ⟨c, hc⟩ hx, duePass_of_not_due hd]
  simp only [insertSlot, accept, modifyCollector, letGo, emit, collector_eq hc,
    List.modify_modify_eq]
  rw [modify_eq_set hc]
  rfl

/-- After a pass it is the same, and the pass is counted when its queue is closed. -/
theorem closeQueue_accept (hn : w.Numbered) (hc : w.collectors[g]? = some c)
    (pass : PassStats × List Holder) :
    ((w.insertSlot g x).2.accept g x.handle (some pass)).2.closeQueue w.opened = { w with
      collectors := w.collectors.set g { c.enroll x with
        collectionsRun := c.collectionsRun + 1
        objectsSwept := c.objectsSwept + pass.1.swept }
      held := w.held.remove x
      opened := w.opened + 1
      events := .passComplete pass.1.swept pass.1.reachable :: .objectRegistered x.handle ::
        w.events } := by
  let counted := ((w.insertSlot g x).2.modifyCollector g fun c => { c with
    pending := c.pending + 1 }).emit (.objectRegistered x.handle)
  have hnumbered : counted.Numbered := hn.opens (.none rfl rfl)
  refine (closeQueue_openQueue hnumbered pass.2 g pass.1).trans ?_
  simp only [counted, insertSlot, modifyCollector, letGo, emit, finishPass, collector_eq hc,
    List.modify_modify_eq]
  rw [modify_eq_set hc]
  rfl

/-- A pass, and then the object that it was run for. -/
theorem closeQueue_accept_runPass (hn : w.Numbered) (hc : w.collectors[g]? = some c) :
    ∃ events, (((w.runPass g).2.insertSlot g x).2.accept g x.handle
        (some (w.runPass g).1)).2.closeQueue w.opened = { w with
      collectors := w.collectors.set g ((c.sweep (w.markFrom c.registry).marked).enroll x)
      held := w.held.remove x
      opened := w.opened + 1
      events } := by
  have hnumbered : (w.runPass g).2.Numbered := hn.opens (.none rfl rfl)
  have hcol := getElem?_modifyCollector hc fun d => { d with
    registry := (c.registry.retain (w.markFrom c.registry).marked).2, state := .idle, pending := 0 }
  have hclose := closeQueue_accept (x := x) hnumbered (by rw [runPass_eq hc]; exact hcol)
    (w.runPass g).1
  refine ⟨.passComplete (w.runPass g).1.1.swept (w.runPass g).1.1.reachable ::
    .objectRegistered x.handle :: (w.runPass g).2.events, hclose.trans ?_⟩
  rw [runPass_eq hc, modify_eq_set hc]
  simp only [List.set_set]
  rfl

/-- One that is due runs a pass first. -/
theorem register_of_due (hn : w.Numbered) (hc : w.collectors[g]? = some c) (hd : w.PassDue g)
    (hx : ¬ w.Registered g x.handle) :
    (w.register g x).1 = .accepted (some w.opened) ∧
      ∃ events, (w.register g x).2.closeQueue w.opened = { w with
        collectors := w.collectors.set g ((c.sweep (w.markFrom c.registry).marked).enroll x)
        held := w.held.remove x
        opened := w.opened + 1
        events } := by
  let due := w.emit (.thresholdReached (w.collector g).pending (w.collector g).step)
  have hnumbered : due.Numbered := hn.opens (.none rfl rfl)
  have hcol : due.collectors[g]? = some c := hc
  have haccept : ∀ (v : Heap) (pass : PassStats × List Holder),
      (v.accept g x.handle (some pass)).1 = .accepted (some v.opened) := fun _ _ => rfl
  have hclose := closeQueue_accept_runPass (x := x) hnumbered hcol
  have hopened : ((w.duePass g).2.insertSlot g x).2.opened = w.opened :=
    (duePass_frame w g).2.2.2.2.2.1
  rw [register_of_new ⟨c, hc⟩ hx]
  rw [duePass_of_due hd] at hopened ⊢
  exact ⟨(haccept _ _).trans (congrArg (Registration.accepted ∘ some) hopened), hclose⟩

/-! ## After a cleanup -/

/-- After a pass nothing is pending, so the next registration is due only with step one. -/
theorem passDue_cleanup_iff (hn : w.Numbered) (hc : w.collectors[g]? = some c)
    (hs : c.state ≠ .stopped) : (w.cleanup g).2.PassDue g ↔ c.step ≤ 1 := by
  rw [cleanup_eq hn hc, PassDue, collector_eq (collectors_settle hc _), Collector.clean, if_neg hs]
  simp [Collector.sweep, Collector.isDue]

/-- What a cleanup makes of a heap, but for what it reports. -/
theorem cleanup_of_ne_stopped (hn : w.Numbered) (hc : w.collectors[g]? = some c)
    (hs : c.state ≠ .stopped) :
    (w.cleanup g).2.collectors[g]? = some (c.sweep (w.markFrom c.registry).marked) ∧
      ∃ events, (w.cleanup g).2 = { w with
        collectors := w.collectors.set g (c.sweep (w.markFrom c.registry).marked)
        opened := w.opened + 1
        events } := by
  have hclean : (c.clean (w.markFrom c.registry)).collector =
      c.sweep (w.markFrom c.registry).marked ∧ (c.clean (w.markFrom c.registry)).opened = 1 := by
    rw [Collector.clean, if_neg hs]
    exact ⟨rfl, rfl⟩
  rw [cleanup_eq hn hc, ← hclean.1, ← hclean.2]
  exact ⟨collectors_settle hc _, _, rfl⟩

/-- Only a collector that is there is due, for one that is not would have the default step. -/
theorem PassDue.exists_collector (hd : w.PassDue g) : w.collectors[g]? = some (w.collector g) := by
  cases hc : w.collectors[g]? with
  | some c => rw [collector_eq hc]
  | none =>
    have hdefault : w.collector g = .withStep Collector.defaultStep := by
      rw [collector, hc]
      rfl
    rw [PassDue, hdefault] at hd
    exact absurd hd (by decide)

end Heap

open Heap

namespace Program.Session

variable {s : Session} {g : CollectorId} {c : Collector} {x : Holder}

theorem register_of_not_due (run : Runner) (hl : (s.acquire g).stuck = false)
    (hc : s.heap.collectors[g]? = some c) (hd : ¬ s.heap.PassDue g)
    (hx : ¬ s.heap.Registered g x.handle) :
    s.register run g x = (.ok x, s.update fun w => { w with
      collectors := w.collectors.set g (c.enroll x)
      held := (w.held.add x).remove x
      events := .objectRegistered x.handle :: w.events }) := by
  rw [register_of_acquire hl, Heap.register_of_not_due (w := s.heap.hold x) hc hd hx]
  rfl

/-- Where no hook runs, nothing comes between the parts of a registration. -/
theorem register_of_due (run : Runner) (hooks : s.hooks = ∅) (hn : s.heap.Numbered)
    (hl : (s.acquire g).stuck = false) (hc : s.heap.collectors[g]? = some c)
    (hd : s.heap.PassDue g) (hx : ¬ s.heap.Registered g x.handle) :
    ∃ events, s.register run g x = (.ok x, s.update fun w => { w with
      collectors := w.collectors.set g ((c.sweep (w.markFrom c.registry).marked).enroll x)
      held := (w.held.add x).remove x
      opened := w.opened + 1
      events }) := by
  have hst : s.stuck = false := by rw [← acquire_eq hl]; exact hl
  obtain ⟨hr, events, hclose⟩ :=
    Heap.register_of_due (w := s.heap.hold x) (hn.opens (.none rfl rfl)) hc hd hx
  rw [markFrom_hold hc hx] at hclose
  refine ⟨events, ?_⟩
  rw [register_of_acquire hl]
  generalize (s.heap.hold x).register g x = result at hr hclose ⊢
  obtain ⟨r, heap⟩ := result
  obtain rfl : r = _ := hr
  have hdrain := drain_eq (s := { s with heap }) run hooks hst s.heap.opened
    (heap.waiting s.heap.opened)
  have hheap := hdrain.trans (congrArg (fun heap => { s with heap }) hclose)
  exact congrArg (Prod.mk (Except.ok x)) hheap

theorem acquire_acquire (s : Session) (g : CollectorId) : (s.acquire g).acquire g = s.acquire g := by
  unfold acquire
  split <;> simp_all

/-- Behind a lock that is held nothing happens. -/
theorem register_of_stuck (run : Runner) (hl : (s.acquire g).stuck = true) (x : Holder) :
    s.register run g x = (.ok x, s.acquire g) := by
  simp [register, hl]

theorem cleanup_of_stuck (run : Runner) (hl : (s.acquire g).stuck = true) :
    s.cleanup run g = (.none, s.acquire g) := by
  simp [cleanup, hl]

/-- A cleanup gives the lock back. -/
theorem acquire_cleanup (run : Runner) (hooks : s.hooks = ∅) (hn : s.heap.Numbered)
    (hl : (s.acquire g).stuck = false) (hc : s.heap.collectors[g]? = some c) :
    ((s.cleanup run g).2.acquire g).stuck = false := by
  have hst : s.stuck = false := by rw [← acquire_eq hl]; exact hl
  have hlocked : (s.heap.collector g).locked = false := by
    simp only [acquire] at hl
    split at hl
    · cases hl
    · exact Bool.eq_false_iff.mpr ‹_›
  rw [collector_eq hc] at hlocked
  rw [cleanup_eq run hooks hl, acquire, locked_cleanup hn hc, hlocked]
  exact hst

/-- A creation after a cleanup runs no pass, unless the step is one. -/
theorem not_runsPass_cleanup (run : Runner) (hooks : s.hooks = ∅) (hn : s.heap.Numbered)
    (hc : s.heap.collectors[g]? = some c) (hs : c.state ≠ .stopped) (hstep : 2 ≤ c.step) :
    ¬ (s.cleanup run g).2.RunsPass g := by
  rintro ⟨hl', hd⟩
  cases hl : (s.acquire g).stuck with
  | true =>
    rw [cleanup_of_stuck run hl, acquire_acquire, hl] at hl'
    cases hl'
  | false =>
    rw [cleanup_eq run hooks hl, passDue_cleanup_iff hn hc hs] at hd
    omega

/-- A registration that is due is a cleanup and a registration, but for what is reported. -/
theorem register_cleanup_of_due (run : Runner) (hooks : s.hooks = ∅) (hn : s.heap.Numbered)
    (hc : s.heap.collectors[g]? = some c) (hd : s.heap.PassDue g) (hstep : 2 ≤ c.step)
    (hx : ¬ s.heap.Registered g x.handle) :
    ∃ events, (s.cleanup run g).2.register run g x =
      ((s.register run g x).1, (s.register run g x).2.update fun w => { w with events }) := by
  have hs : c.state ≠ .stopped := by
    rw [← collector_eq hc, hd.2]
    exact CollectorState.noConfusion
  cases hl : (s.acquire g).stuck with
  | true =>
    have hstuck : ((s.cleanup run g).2.acquire g).stuck = true := by
      rw [cleanup_of_stuck run hl, acquire_acquire, hl]
    refine ⟨(s.acquire g).heap.events, ?_⟩
    rw [register_of_stuck run hstuck, cleanup_of_stuck run hl, acquire_acquire,
      register_of_stuck run hl]
    rfl
  | false =>
    have hcleaned := cleanup_eq run hooks hl
    obtain ⟨hcol, reports, hheap⟩ := cleanup_of_ne_stopped hn hc hs
    have hdue : ¬ (s.cleanup run g).2.heap.PassDue g := by
      rw [hcleaned, passDue_cleanup_iff hn hc hs]
      omega
    have hnew : ¬ (s.cleanup run g).2.heap.Registered g x.handle := by
      rw [hcleaned]
      exact fun hr => hx ((registered_cleanup hn hc _).mp hr).1
    obtain ⟨events, hfirst⟩ := register_of_due run hooks hn hl hc hd hx
    refine ⟨.objectRegistered x.handle :: reports, ?_⟩
    rw [register_of_not_due run (acquire_cleanup run hooks hn hl hc) (by rw [hcleaned]; exact hcol)
      hdue hnew, hfirst, hcleaned, hheap]
    simp only [update, List.set_set]

/-- **A creation that is due is a cleanup and a creation.** Open queues have different numbers in every
run, also of a program. Now let an initialiser return an object that is not registered and leave a
session without hooks, in which the collector is idle, has a step of two or more, and is due. Then the
creation ends in the same session, but for what was reported, as the initialiser, a cleanup and a
creation that is handed the same object; and that second creation runs no pass. The first one did,
unless it waits for a lock for ever, and has left the new object pending alone. -/
theorem due_creation_is_cleanup_and_creation :
    (∀ n as, ((initial n).performs as).Numbered) ∧
    (∀ depth steps name spec, (Program.runSteps depth steps (.start name spec)).2.heap.Numbered) ∧
    ∀ (α : Type) (run : Runner) (g : CollectorId) (init : Session → α × Holder × Session)
      (s : Session),
      let told := (init s).1
      let x := (init s).2.1
      let t := (init s).2.2
      let c := t.heap.collector g
      t.hooks = ∅ → t.heap.Numbered → ¬ t.heap.Registered g x.handle →
      c.state = .idle → 2 ≤ c.step → c.step ≤ c.pending + 1 →
      let first := s.createFrom run g init
      let cleaned := (t.cleanup run g).2
      let second := cleaned.createFrom run g fun s => (told, x, s)
      ¬ cleaned.RunsPass g ∧ second.1 = first.1 ∧ second.2.1 = first.2.1 ∧
        (∃ events, second.2.2 = first.2.2.update fun w => { w with events }) ∧
        ((t.acquire g).stuck = false → first.2.1 = .ok x ∧
          first.2.2.heap.Registered g x.handle ∧ (first.2.2.heap.collector g).pending = 1 ∧
          (first.2.2.heap.collector g).collectionsRun = c.collectionsRun + 1) := by
  refine ⟨fun n as => (numbered_initial n).performs as, numbered_runSteps, ?_⟩
  intro α run g init s told x t c hooks hn hx hidle hstep hreached first cleaned second
  have hd : t.heap.PassDue g := ⟨decide_eq_true hreached, hidle⟩
  have hc := hd.exists_collector
  obtain ⟨reports, hsecond⟩ := register_cleanup_of_due run hooks hn hc hd hstep hx
  refine ⟨not_runsPass_cleanup run hooks hn hc ?_ hstep, rfl,
    (congrArg Prod.fst hsecond).trans rfl, ⟨reports, (congrArg Prod.snd hsecond).trans rfl⟩,
    fun hl => ?_⟩
  · rw [hidle]
    exact CollectorState.noConfusion
  · obtain ⟨events, hfirst⟩ := register_of_due run hooks hn hl hc hd hx
    have hcollector : first.2.2.heap.collectors[g]? =
        some ((c.sweep (t.heap.markFrom c.registry).marked).enroll x) := by
      show (t.register run g x).2.heap.collectors[g]? = _
      rw [hfirst]
      exact List.getElem?_set_self (List.getElem?_eq_some_iff.mp hc).1
    refine ⟨congrArg Prod.fst hfirst, ?_, ?_, ?_⟩
    · rw [Registered, collector_eq hcollector, Collector.enroll, Registry.contains_insert]
      simp
    · rw [collector_eq hcollector]
      rfl
    · rw [collector_eq hcollector]
      rfl

/-- With step two, an initialiser that registers a child and drops it leaves a collector that is due.
The creation of the parent sweeps the child, as does a cleanup before the parent is registered. -/
theorem due_creation_of_parent :
    let run : Runner := fun _ s => ([], s)
    let s : Session := .start "gc" (.withStep 2)
    let x := (s.parentOfChild run).2.1
    let t := (s.parentOfChild run).2.2
    let first := s.createFrom run 0 (parentOfChild run)
    let cleaned := (t.cleanup run 0).2
    let second := cleaned.createFrom run 0 fun s => ((), x, s)
    ¬ cleaned.RunsPass 0 ∧ (∃ events, second.2.2 = first.2.2.update fun w => { w with events }) ∧
      (first.2.2.heap.collector 0).collectionsRun = 1 ∧
      (first.2.2.heap.collector 0).registry.handles = [.fresh 0] := by
  intro run s x t first cleaned second
  have hooks : t.hooks = ∅ := by rfl
  have hn : t.heap.Numbered := ⟨by decide +kernel, by decide +kernel⟩
  have hx : ¬ t.heap.Registered 0 x.handle := by rw [Heap.Registered]; decide +kernel
  obtain ⟨hpass, -, -, hsame, -⟩ := due_creation_is_cleanup_and_creation.2.2 Unit run 0
    (parentOfChild run) s hooks hn hx (by decide +kernel) (by decide +kernel) (by decide +kernel)
  exact ⟨hpass, hsame, by decide +kernel, by decide +kernel⟩

end Program.Session

end SharedHeap
