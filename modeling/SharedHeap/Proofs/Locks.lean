import SharedHeap.Proofs.Commands
import SharedHeap.Proofs.Departure
import SharedHeap.Proofs.Cleanup

/-! # When slots are released

No critical section releases a slot: whatever leaves the registry of a collector goes to a queue, and
the slots there are released one by one, with hooks in between. Meanwhile the lock of the collector is
free, with one exception. A registration that is refused keeps the lock and gives it back at the end of
its queue, so the slots there are released under the lock, and a hook of theirs that asks for the same
lock waits for its own thread. -/

namespace SharedHeap

open Heap Program

/-- The collector that the slots of a queue come from, unless it was given up. -/
def ReleaseQueue.origin? (p : ReleaseQueue) : Option CollectorId :=
  match p.afterwards with
  | .complete g _ | .unlock g => some g
  | .nothing => none

namespace Action

/-- The lock that the action takes is free, and no queue is closed before its slots are released. The
threads of a program act like this together, in any order. -/
def Proper (w : Heap) (a : Action) : Prop :=
  a.FindsFree w ∧ ∀ q ∈ a.closes?, w.waiting q = []

/-- If a slot is released, the collector that it comes from is not locked. -/
def Unlocked (w : Heap) (a : Action) : Prop :=
  ∀ q ∈ a.releases?, ∀ p ∈ w.queue? q, p.waiting ≠ [] →
    ∀ g ∈ p.origin?, (w.collector g).locked = false

/-- If an object is registered, it is not refused. -/
def Accepted (w : Heap) (a : Action) : Prop := ∀ g ∈ a.lock?, a.refuses w g = false

instance (w : Heap) (a : Action) : Decidable (a.Proper w) := by
  unfold Proper
  infer_instance

instance (w : Heap) (a : Action) : Decidable (a.Unlocked w) := by
  unfold Unlocked
  infer_instance

instance (w : Heap) (a : Action) : Decidable (a.Accepted w) := by
  unfold Accepted
  infer_instance

variable {w : Heap} {a : Action} {g : CollectorId}

theorem InTurn.proper (ha : a.InTurn w) : a.Proper w := by
  refine ⟨ha.findsFree, fun q hq => ?_⟩
  cases a with
  | close q' =>
    obtain ⟨p, ps, hqueues, rfl, hp⟩ := inTurn_close_iff.mp ha
    obtain rfl : p.id = q := Option.some.inj hq
    exact (waiting_head hqueues).trans hp
  | _ => cases hq

theorem accepted_register_iff {x : Holder} :
    (register g x).Accepted w ↔ (w.register g x).1.isAccepted = true := by
  simp [Accepted, lock?, refuses]

theorem Accepted.refuses_eq (ha : a.Accepted w) (g : CollectorId) : a.refuses w g = false := by
  cases a with
  | register g' x =>
    by_cases he : g' = g
    · exact ha g (congrArg some he)
    · simp [refuses, he]
  | _ => rfl

end Action

namespace Heap

variable {w : Heap} {a : Action} {as : List Action} {g : CollectorId} {h : Handle} {x y : Holder}
  {p : ReleaseQueue}

/-! ## Slots that leave -/

/-- A slot that a due pass takes out is among those it swept. -/
theorem mem_dueSwept_of_slot? (hx : w.slot? g h = some x)
    (hn : (w.duePass g).2.slot? g h ≠ some x) : x ∈ w.dueSwept g := by
  by_cases hd : w.PassDue g
  · obtain ⟨c, hc, -⟩ := registered_iff_getElem?.mp (registered_of_slot? hx)
    obtain rfl := Registry.handle_of_slot? hx
    rw [duePass_of_due hd] at hn
    rw [dueSwept, duePass_of_due hd]
    refine (mem_swept_iff (w := w.emit _) hc x).mpr ⟨hx, fun hl => hn ?_⟩
    exact (slot?_runPass (w := w.emit _) hc hl).trans hx
  · rw [duePass_of_not_due hd] at hn
    exact absurd hx hn

/-- The slots that a registration moves out of a registry go to one queue: the one that it displaces,
and those that a due pass swept. -/
theorem queue_register {v : Heap} (hv : (w.duePass g).2 = v)
    (hne : (v.slot? g x.handle).toList ++ w.dueSwept g ≠ []) :
    ∃ p, (w.register g x).2.queues = p :: w.queues ∧ p.origin? = some g ∧
      p.waiting = (v.slot? g x.handle).toList ++ w.dueSwept g := by
  subst hv
  cases hy : (w.duePass g).2.slot? g x.handle with
  | some y => exact ⟨_, (register_of_slot hy).2, rfl, rfl⟩
  | none =>
    obtain ⟨-, -, -, hq, -⟩ := duePass_frame w g
    have hfound : ((w.duePass g).2.insertSlot g x).1 = none := hy
    rw [hy] at hne
    rw [register_eq, hfound, dueSwept, ← hq]
    cases hp : (w.duePass g).1 with
    | none => simp [dueSwept, hp] at hne
    | some pass => exact ⟨_, rfl, rfl, rfl⟩

/-- **What leaves a registry waits.** If an action takes a slot out of the registry of a collector, it
has opened a queue in which that slot waits. -/
theorem waits_of_slot? (hx : w.slot? g h = some x) (hn : (a.perform w).slot? g h ≠ some x) :
    ∃ p, (a.perform w).queues = p :: w.queues ∧ x ∈ p.waiting ∧
      (p.origin? = some g ∨ a = .retire g) := by
  have hh : x.handle = h := Registry.handle_of_slot? hx
  by_cases ha : a.Restructures g
  · cases a with
    | register g' y =>
      obtain rfl : g' = g := ha
      have hwaits : x ∈ ((w.duePass g').2.slot? g' y.handle).toList ++ w.dueSwept g' := by
        by_cases hdue : (w.duePass g').2.slot? g' h = some x
        · -- the due pass keeps the slot, so it is displaced
          have hy : h = y.handle := by
            by_contra hne
            refine hn ((slot?_register (registered_of_slot? hx).lt_length y h).trans ?_)
            rw [if_neg (Ne.symm hne), hdue]
          rw [← hy, hdue]
          exact List.mem_cons_self
        · exact List.mem_append_right _ (mem_dueSwept_of_slot? hx hdue)
      obtain ⟨p, hq, ho, hp⟩ := queue_register rfl (List.ne_nil_of_mem hwaits)
      exact ⟨p, hq, hp ▸ hwaits, .inl ho⟩
    | cleanup g' =>
      obtain rfl : g' = g := ha
      obtain ⟨c, hc, -⟩ := registered_iff_getElem?.mp (registered_of_slot? hx)
      by_cases hs : c.state = .stopped
      · rw [Action.perform, beginCleanup_of_stopped hc hs] at hn
        exact absurd hx hn
      · rw [Action.perform, beginCleanup_of_ne hc hs] at hn ⊢
        refine ⟨_, rfl, (mem_swept_iff hc x).mpr ⟨hh ▸ hx, fun hl => hn ?_⟩, .inl rfl⟩
        exact (slot?_runPass hc (hh ▸ hl)).trans hx
    | retire g' =>
      obtain rfl : g' = g := ha
      exact ⟨_, rfl, ((w.collector g').registry.mem_holders x).mpr (hh ▸ hx), .inr rfl⟩
    | _ => exact ha.elim
  · rw [slot?, registry_perform ha] at hn
    exact absurd hx hn

/-! ## Locks that are free -/

/-- No collector is locked. -/
def Free (w : Heap) : Prop := ∀ g, (w.collector g).locked = false

theorem free_initial (n : Nat) : (initial n).Free := fun _ => locked_of_length_le (Nat.zero_le _)

/-- Where no registration is refused, critical sections leave all locks free. -/
theorem Free.perform (hw : w.Free) (ha : a.Accepted w) : (a.perform w).Free := by
  intro g
  by_cases hc : ∃ q, a = .close q
  · obtain ⟨q, rfl⟩ := hc
    cases hq : w.queue? q with
    | none =>
      rw [Action.perform, closeQueue, hq]
      exact hw g
    | some p => rw [Action.perform, locked_closeQueue hq, hw g, Bool.false_and]
  · rw [locked_perform (fun q he => hc ⟨q, he⟩), hw g, ha.refuses_eq g, Bool.false_or]

theorem Free.performs (hw : w.Free) (has : w.Each Action.Accepted as) :
    (w.performs as).Free ∧ w.Each Action.Unlocked as := by
  refine Each.invariant (I := Free) (fun w a hw ha => ⟨hw.perform ha, ?_⟩) hw has
  exact fun _ _ _ _ _ g _ => hw g

/-! ## Locks that are kept -/

/-- An open queue stays as it is until it is its turn. -/
theorem mem_queues_perform (hp : p ∈ w.queues) (hr : a ≠ .release p.id)
    (hc : a ≠ .close p.id) : p ∈ (a.perform w).queues := by
  obtain ⟨q, rfl⟩ | ⟨q, rfl⟩ | ⟨hrelease, hclose⟩ := a.release_or_close
  · refine List.mem_map.mpr ⟨p, hp, if_neg ?_⟩
    simpa using fun he : p.id = q => hr (he ▸ rfl)
  · rw [Action.perform, (queues_closeQueue w q).1]
    refine List.mem_filter.mpr ⟨hp, ?_⟩
    simpa using fun he : p.id = q => hc (he ▸ rfl)
  · obtain ⟨new, hnew, -⟩ := opens_perform (w := w) hrelease hclose
    rw [hnew.queues]
    exact List.mem_append_right _ hp

/-- As long as no slot is released under a lock, a queue that gives a lock back stays open. -/
theorem Sound.mem_performs (hw : w.Sound) (has : w.Each Action.Proper as)
    (hfree : w.Each Action.Unlocked as) (hp : p ∈ w.queues) (hu : p.unlocks g = true)
    (hne : p.waiting ≠ []) : p ∈ (w.performs as).queues := by
  induction as generalizing w with
  | nil => exact hp
  | cons a as ih =>
    have hqueue : w.queue? p.id = some p := hw.numbered.queue?_eq hp
    refine ih (hw.perform has.1.1) has.2 hfree.2 (mem_queues_perform hp ?_ ?_)
    · rintro rfl
      have horigin : p.origin? = some g := by
        have hafter : p.afterwards = .unlock g := by simpa [ReleaseQueue.unlocks] using hu
        simp [ReleaseQueue.origin?, hafter]
      have hunlocked : (w.collector g).locked = false := hfree.1 _ rfl p hqueue hne g horigin
      rw [hw.guarded.locked hp hu] at hunlocked
      cases hunlocked
    · rintro rfl
      have hempty : w.waiting p.id = [] := has.1.2 _ rfl
      rw [waiting, hqueue] at hempty
      exact hne hempty

/-- Once all queues are closed, a slot was released under its lock for every refused registration. -/
theorem Sound.accepted_of_unlocked (hw : w.Sound) (has : w.Each Action.Proper as)
    (hq : (w.performs as).queues = []) (hfree : w.Each Action.Unlocked as) :
    w.Each Action.Accepted as := by
  induction as generalizing w with
  | nil => trivial
  | cons a as ih =>
    refine ⟨?_, ih (hw.perform has.1.1) has.2 hq hfree.2⟩
    cases a with
    | register g x =>
      refine Action.accepted_register_iff.mpr (by_contra fun hrefused => ?_)
      cases hy : (w.duePass g).2.slot? g x.handle with
      | none =>
        have hfound : ((w.duePass g).2.insertSlot g x).1 = none := hy
        refine hrefused ?_
        rw [register_eq, hfound]
        exact isAccepted_accept ..
      | some y =>
        have hmem := (hw.perform has.1.1).mem_performs (g := g)
          (p := ⟨w.opened, y :: w.dueSwept g, .unlock g⟩) has.2 hfree.2
          (by rw [Action.perform, (register_of_slot hy).2]; exact List.mem_cons_self)
          (by simp [ReleaseQueue.unlocks]) (List.cons_ne_nil _ _)
        have hq : ((Action.perform w (.register g x)).performs as).queues = [] := hq
        rw [hq] at hmem
        exact List.not_mem_nil hmem
    | _ => exact fun _ _ => rfl

/-- **Slots are released outside the lock unless a registration is refused.** Take any run from an empty
heap, by any number of threads. If no registration in it is refused, then no slot is released while its
collector is locked, and whenever a hook asks for a lock, all locks are free. If the run is over, so
that its queues are closed, the converse holds as well: a slot was released under the lock for each
refused registration. Slots that leave the registry of a collector wait in such a queue, since no
action that takes them out releases them. So a program in which no registration is refused never waits
for a lock of its own, and one in which some are refused does, or it releases a slot under the lock. -/
theorem unlocked_iff_accepted (n : Nat) (as : List Action)
    (has : (initial n).Each Action.Proper as) :
    ((initial n).Each Action.Accepted as → (initial n).Each Action.Unlocked as ∧
      ∀ before, before <+: as → ∀ g, (((initial n).performs before).collector g).locked = false) ∧
    (((initial n).performs as).queues = [] →
      ((initial n).Each Action.Unlocked as ↔ (initial n).Each Action.Accepted as)) ∧
    (∀ (w : Heap) (a : Action) (g : CollectorId) (h : Handle) (x : Holder), w.slot? g h = some x →
      (a.perform w).slot? g h ≠ some x →
      ∃ p, (a.perform w).queues = p :: w.queues ∧ x ∈ p.waiting ∧
        (p.origin? = some g ∨ a = .retire g)) ∧
    ∀ depth steps name spec, let w := initial 1
      let s := (runSteps depth steps (.start name spec)).2
      ∃ as, Session.Ran w s as ∧
        (s.stuck = false ∧ w.Each Action.Unlocked as ↔ w.Each Action.Accepted as) := by
  have hfree : ∀ {n : Nat} {as before : List Action}, (initial n).Each Action.Accepted as →
      before <+: as → ((initial n).performs before).Free := by
    rintro n _ before has ⟨after, rfl⟩
    exact ((free_initial n).performs (each_append.mp has).1).1
  refine ⟨fun ha => ⟨((free_initial n).performs ha).2, fun before hp => hfree ha hp⟩,
    fun hq => ⟨(sound_initial n).accepted_of_unlocked has hq, fun ha => ?_⟩,
    fun w a g h x => waits_of_slot?, ?_⟩
  · exact ((free_initial n).performs ha).2
  · intro depth steps name spec w s
    obtain ⟨as, hran⟩ := runSteps_ran depth steps name spec
    refine ⟨as, hran, fun ⟨hs, hu⟩ => ?_, fun ha => ⟨?_, ((free_initial 1).performs ha).2⟩⟩
    · obtain ⟨horderly, hq⟩ := hran.orderly hs
      rw [hran.heap] at hq
      exact (sound_initial 1).accepted_of_unlocked (horderly.imp fun _ _ hi => hi.proper) hq hu
    · cases hs : s.stuck with
      | false => rfl
      | true =>
        obtain ⟨before, hp, -, g, hlocked⟩ := hran.blocked hs
        rw [hfree ha hp g] at hlocked
        cases hlocked

/-- The second registration sweeps the first object, whose hook collects once more and looks the second
object up before the queue is closed. When the second object is registered again, its former slot is
released under the lock. -/
theorem unlocked_iff_accepted_of_reentrant :
    let x (n : Nat) : Holder := ⟨.fresh n, .whole⟩
    let reentrant : List Action := [.addCollector 1, .allocate .probe, .clone (x 0),
      .register 0 (x 0), .close 0, .drop (x 0), .allocate .node, .clone (x 1), .register 0 (x 1),
      .release 1, .cleanup 0, .close 2, .getObject 0 (.fresh 1), .close 1]
    let again : List Action := [.clone (x 1), .register 0 (x 1), .release 3, .close 3]
    let w := initial 1
    w.Each Action.Proper (reentrant ++ again) ∧ (w.performs (reentrant ++ again)).queues = [] ∧
      w.Each Action.Unlocked reentrant ∧ ¬ w.Each Action.Unlocked (reentrant ++ again) := by
  intro x reentrant again w
  have hproper : w.Each Action.Proper (reentrant ++ again) := by decide +kernel
  have hq : (w.performs (reentrant ++ again)).queues = [] := by
    rw [← List.isEmpty_iff]
    decide +kernel
  refine ⟨hproper, hq, ?_, fun hu => ?_⟩
  · have hfirst := unlocked_iff_accepted 1 reentrant (each_append.mp hproper).1
    exact (hfirst.1 (by decide +kernel)).1
  · have hboth := unlocked_iff_accepted 1 (reentrant ++ again) hproper
    have hrefused : ¬ w.Each Action.Accepted (reentrant ++ again) := by decide +kernel
    exact hrefused ((hboth.2.1 hq).mp hu)

end Heap

/-- A program whose probe has lost its whole holders but not its slot. When the probe is registered
again through its base, the slot is displaced and released under the lock, and the hook of the probe,
which asks for the size of the same collector, waits for ever. -/
theorem Program.Session.stuck_in_own_hook :
    let s := (runSteps 20 [
      .mk "gc" (.create (.fresh .probe [.mk "gc" .size]) none (some "p")),
      .mk "gc" (.base "p" (some "b")), .mk "gc" (.drop "p"),
      .mk "gc" (.create (.again "b") (some []) (some "c"))] (.start "gc" (.withStep 9))).2
    (s.heap.collector 0).locked = true ∧ s.heap.queues.map (·.waiting) = [[]] ∧
      s.stuck = true := by
  decide +kernel

end SharedHeap
