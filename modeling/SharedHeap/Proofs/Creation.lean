import SharedHeap.Proofs.Cleanup
import SharedHeap.Proofs.Registration
import SharedHeap.Program.Run

/-! # What a creation keeps

The pass that a creation may run comes after its initialiser and before the new object has its slot,
so the links of the new object do not count for it. What the new object links to is kept if no pass
runs, or if a registered object that is held elsewhere reaches it too. -/

namespace SharedHeap

namespace Heap

variable {w : Heap} {g : CollectorId} {h : Handle}

/-- The registered objects that `x` links to, directly or through other registered ones. -/
inductive LinkedFrom (w : Heap) (g : CollectorId) (x : Handle) : Handle → Prop where
  | direct {b} : b ∈ w.linked x → w.Registered g b → w.LinkedFrom g x b
  | through {a b} : w.LinkedFrom g x a → b ∈ w.linked a → w.Registered g b → w.LinkedFrom g x b

theorem LinkedFrom.registered {x : Handle} (hl : w.LinkedFrom g x h) : w.Registered g h := by
  cases hl with
  | direct _ hr => exact hr
  | through _ _ hr => exact hr

/-- A further holder of an object that is not registered makes no other object live. -/
theorem live_hold {x : Holder} (hx : ¬ w.Registered g x.handle) (h : Handle) :
    (w.hold x).Live g h ↔ w.Live g h := by
  refine live_congr ?_ ?_ ?_ h
  · intro a; rfl
  · intro a; rfl
  · intro a ha
    have hne : x.handle ≠ a := fun he => hx (he ▸ ha)
    have hcount : (w.hold x).heldCount a = w.heldCount a := by
      rw [heldCount_hold, if_neg hne, Nat.add_zero]
    rw [HeldElsewhere, hcount]
    rfl

/-- The release of a slot makes no difference to what closing its queue does. -/
theorem closeQueue_releaseNext (w : Heap) (q : QueueId) :
    (w.releaseNext q).closeQueue q = w.closeQueue q := by
  have hqueue : (w.releaseNext q).queue? q =
      (w.queue? q).map fun p => { p with waiting := p.waiting.tail } := by
    unfold queue? releaseNext
    generalize w.queues = ps
    induction ps with
    | nil => rfl
    | cons p rest ih =>
      by_cases hid : p.id = q
      · simp [hid]
      · simpa [hid] using ih
  have hothers : (w.releaseNext q).queues.filter (·.id != q) = w.queues.filter (·.id != q) := by
    unfold releaseNext
    generalize w.queues = ps
    induction ps with
    | nil => rfl
    | cons p rest ih =>
      by_cases hid : p.id = q
      · simpa [hid] using ih
      · simpa [hid] using ih
  unfold closeQueue
  rw [hqueue, hothers]
  cases hq : w.queue? q with
  | some p => rfl
  | none =>
    have hnone : ∀ p ∈ w.queues, p.id ≠ q := by simpa [queue?] using hq
    have hsame : w.queues.map (fun p =>
        if p.id == q then { p with waiting := p.waiting.tail } else p) = w.queues := by
      refine (List.map_congr_left fun p hp => ?_).trans (List.map_id _)
      simp [hnone p hp]
    rw [Option.map_none, releaseNext, hsame]

end Heap

namespace Program.Session

variable {s : Session} {g : CollectorId} {x : Holder}

theorem afterDrop_of_no_hooks (run : Runner) (hs : s.hooks = ∅) (x : Holder) :
    s.afterDrop run x = s := by
  simp [afterDrop, hs]

theorem dropHolder_of_no_hooks (run : Runner) (hooks : s.hooks = ∅) (x : Holder) :
    s.dropHolder run x = s.update (·.letGo x) :=
  afterDrop_of_no_hooks (s := s.update (·.letGo x)) run hooks x

theorem registered_dropHolder (run : Runner) (hs : s.hooks = ∅) (x : Holder) (g : CollectorId)
    (h : Handle) : (if s.stuck then s else s.dropHolder run x).heap.Registered g h ↔
      s.heap.Registered g h := by
  split
  · rfl
  · rw [dropHolder_of_no_hooks run hs]
    rfl

/-- Without hooks, releasing slots changes no registration. -/
theorem drain_of_no_hooks (run : Runner) (q : QueueId) (xs : List Holder) (hs : s.hooks = ∅) :
    (s.drain run q xs).hooks = ∅ ∧
      ∀ g h, (s.drain run q xs).heap.Registered g h ↔ s.heap.Registered g h := by
  induction xs generalizing s with
  | nil => exact ⟨hs, fun g => Heap.registered_congr (Heap.registry_closeQueue s.heap q g)⟩
  | cons x rest ih =>
    have hs' : (s.update (·.releaseNext q)).hooks = ∅ := hs
    rw [drain, afterDrop_of_no_hooks run hs']
    split
    · exact ⟨hs, fun _ _ => Iff.rfl⟩
    · obtain ⟨hh, hr⟩ := ih hs'
      exact ⟨hh, fun g h => (hr g h).trans Iff.rfl⟩

/-- Where no hook runs, all slots of a queue are released before anything else happens. -/
theorem drain_eq (run : Runner) (hooks : s.hooks = ∅) (hst : s.stuck = false) (q : QueueId)
    (xs : List Holder) : s.drain run q xs = s.update (·.closeQueue q) := by
  induction xs generalizing s with
  | nil => rfl
  | cons x rest ih =>
    have hooks' : (s.update (·.releaseNext q)).hooks = ∅ := hooks
    rw [drain, afterDrop_of_no_hooks run hooks', ih hooks' hst]
    simp [update, hst, Heap.closeQueue_releaseNext]

theorem register_of_acquire (hl : (s.acquire g).stuck = false) (run : Runner) (x : Holder) :
    s.register run g x =
      match (s.heap.hold x).register g x with
      | (.accepted none, heap) => (.ok x, { s with heap })
      | (.accepted (some q), heap) => (.ok x, { s with heap }.release run q)
      | (.refused q, heap) =>
        let s := { s with heap }.release run q
        (.error x.handle, if s.stuck then s else s.dropHolder run x) := by
  have hst := hl
  rw [acquire_eq hl] at hst
  unfold register
  rw [acquire_eq hl]
  exact if_neg (by rw [hst]; decide)

/-- The next registration in `g` gets the lock and runs a pass first. -/
def RunsPass (s : Session) (g : CollectorId) : Prop :=
  (s.acquire g).stuck = false ∧ s.heap.PassDue g

/-- Without hooks, a registration leaves registered what a due pass does not sweep. -/
theorem registered_register_iff (run : Runner) (hooks : s.hooks = ∅)
    (hx : ¬ s.heap.Registered g x.handle) {h : Handle} (hh : s.heap.Registered g h) :
    (s.register run g x).2.heap.Registered g h ↔ (s.RunsPass g → s.heap.Live g h) := by
  obtain ⟨c, hc, -⟩ := Heap.registered_iff_getElem?.mp hh
  have hne : h ≠ x.handle := fun he => hx (he ▸ hh)
  by_cases hl : (s.acquire g).stuck = false
  · have hreg : ((s.heap.hold x).register g x).2.Registered g h ↔
        (s.RunsPass g → s.heap.Live g h) := by
      rw [Heap.registered_register (w := s.heap.hold x) hc, Heap.live_hold hx]
      have hdue : (s.heap.hold x).PassDue g ↔ s.RunsPass g := (and_iff_right hl).symm
      rw [hdue]
      exact ⟨fun ho => (ho.resolve_left hne).2, fun ho => .inr ⟨hh, ho⟩⟩
    rw [← hreg]
    rw [register_of_acquire hl]
    obtain ⟨_ | q, heap⟩ := (s.heap.hold x).register g x
    · rename_i swept
      cases swept with
      | none => rfl
      | some q => exact (drain_of_no_hooks (s := { s with heap }) run q (heap.waiting q) hooks).2 g h
    · obtain ⟨hh, hr⟩ := drain_of_no_hooks (s := { s with heap }) run q (heap.waiting q) hooks
      exact (registered_dropHolder run hh x g h).trans (hr g h)
  · have hstuck : (s.acquire g).stuck = true := by simpa using hl
    have hr : s.register run g x = (.ok x, s.acquire g) := by simp [register, hstuck]
    have hw : (s.acquire g).heap = s.heap := by unfold acquire; split <;> rfl
    rw [hr]
    simp only [hw]
    exact ⟨fun _ hp => absurd hp.1 hl, fun _ => hh⟩

/-- **What a creation keeps of the links of its object.** Let an initialiser return an object that is
not registered, and let no hooks be there. Then a handle that the object links to, directly or through
registered objects, is still registered after the creation iff the creation runs no pass or some
registered object that is held elsewhere reaches the handle as well. The new object itself does not
count. -/
theorem kept_by_creation_iff {α : Type} (run : Runner) (g : CollectorId)
    (init : Session → α × Holder × Session) (s : Session)
    (hooks : (init s).2.2.hooks = ∅)
    (hx : ¬ (init s).2.2.heap.Registered g (init s).2.1.handle) {h : Handle}
    (hl : (init s).2.2.heap.LinkedFrom g (init s).2.1.handle h) :
    (s.createFrom run g init).2.2.heap.Registered g h ↔
      ((init s).2.2.RunsPass g → (init s).2.2.heap.Live g h) :=
  registered_register_iff run hooks hx hl.registered

/-- An initialiser that makes a parent, registers a child, links the parent to it, drops the child
and returns the parent. -/
def parentOfChild (run : Runner) (s : Session) : Unit × Holder × Session :=
  let (parent, s) := s.make "gc" .node [] none
  match s.create run "gc" 0 .object with
  | (.ok child, s) =>
    ((), parent, (s.update (·.link parent.handle child.handle)).dropHolder run child)
  | (.error _, s) => ((), parent, s)

/-- With room for one more registration the child stays. -/
theorem kept_by_creation_below_step :
    let run : Runner := fun _ s => ([], s)
    let s : Session := .start "gc" (.withStep 3)
    (s.parentOfChild run).2.2.hooks = ∅ ∧
      (s.parentOfChild run).2.2.heap.LinkedFrom 0 (.fresh 0) (.fresh 1) ∧
      ¬ (s.parentOfChild run).2.2.RunsPass 0 ∧
      (s.createFrom run 0 (parentOfChild run)).2.2.heap.Registered 0 (.fresh 1) := by
  intro run s
  have hooks : (s.parentOfChild run).2.2.hooks = ∅ := by rfl
  have hx : ¬ (s.parentOfChild run).2.2.heap.Registered 0 (s.parentOfChild run).2.1.handle := by
    rw [Heap.Registered]; decide +kernel
  have hl : (s.parentOfChild run).2.2.heap.LinkedFrom 0 (.fresh 0) (.fresh 1) :=
    .direct (by decide +kernel) (by rw [Heap.Registered]; decide +kernel)
  have hp : ¬ (s.parentOfChild run).2.2.RunsPass 0 := by
    rw [RunsPass, Heap.PassDue]; decide +kernel
  exact ⟨hooks, hl, hp, (kept_by_creation_iff run 0 _ s hooks hx hl).mpr fun h => absurd h hp⟩

/-- If the registration of the parent reaches the step, its child is swept: the creation succeeds and
the parent, which the caller holds, has a link to what is registered no more. -/
theorem child_lost_by_creation :
    let run : Runner := fun _ s => ([], s)
    let s : Session := .start "gc" (.withStep 2)
    let after := s.createFrom run 0 (parentOfChild run)
    (s.parentOfChild run).2.2.hooks = ∅ ∧
      (s.parentOfChild run).2.1 = ⟨.fresh 0, .whole⟩ ∧
      ¬ (s.parentOfChild run).2.2.heap.Registered 0 (.fresh 0) ∧
      (s.parentOfChild run).2.2.heap.LinkedFrom 0 (.fresh 0) (.fresh 1) ∧
      after.2.1.toOption = some ⟨.fresh 0, .whole⟩ ∧
      after.2.2.heap.Registered 0 (.fresh 0) ∧ 0 < after.2.2.heap.heldCount (.fresh 0) ∧
      .fresh 1 ∈ after.2.2.heap.linked (.fresh 0) ∧
      ¬ after.2.2.heap.Registered 0 (.fresh 1) := by
  intro run s after
  refine ⟨rfl, by decide +kernel, ?_, .direct (by decide +kernel) ?_, by decide +kernel, ?_,
    by decide +kernel, by decide +kernel, ?_⟩ <;> rw [Heap.Registered] <;> decide +kernel

end Program.Session

end SharedHeap
