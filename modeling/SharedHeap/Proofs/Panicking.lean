import SharedHeap.Program.Panicking
import SharedHeap.Proofs.Creation
import SharedHeap.Proofs.Departure

/-! # Panics of hooks

A hook that panics while the slots of a pass are released keeps none of the other slots from being
released, and whether a hook of them panics decides whether the registration that ran the pass does. The
panic goes on until somebody catches it, and then the application still has all that it needs: what is
missing is that the pass was counted. -/

namespace SharedHeap

open Heap

/-- A queue that ends a pass may be given up at its end as well as closed. -/
theorem Heap.Sound.abandonQueue {w : Heap} (hw : w.Sound) {q : QueueId} {g : CollectorId}
    {stats : PassStats} {ps : List ReleaseQueue} (hq : w.queues = ⟨q, [], .complete g stats⟩ :: ps) :
    (w.abandonQueue q).Sound ∧ (w.abandonQueue q).queues = ps := by
  have hsame : (w.closeQueue q).queues = (w.abandonQueue q).queues := (queues_closeQueue w q).1
  have hopened : (w.closeQueue q).opened = w.opened := (queues_closeQueue w q).2
  have hnumbered := hw.numbered.closeQueue q
  refine ⟨⟨⟨hsame ▸ hnumbered.nodup, hsame ▸ hopened ▸ hnumbered.lt_opened⟩, fun k => ?_⟩,
    hsame.symm.trans (hw.numbered.closeQueue_head hq)⟩
  have hguarded := hw.guarded.closeQueue hw.numbered q k
  rw [hsame, locked_closeQueue (queue?_head hq)] at hguarded
  show (w.abandonQueue q).queues.countP (·.unlocks k) = if (w.collector k).locked then 1 else 0
  simpa [ReleaseQueue.unlocks] using hguarded

namespace Program

/-- What the application has in hand after a registration. -/
def Ending.inHand : Ending → List Holder
  | returned x => [x]
  | refused _ | unwound | halted => []

namespace Session

variable {s t u : Session} {F G H : Hand} {g : CollectorId} {x : Holder} {run : Runner}

/-! ## What is in hand -/

/-- With `F` in hand, `s` becomes `t`, and then `G` is in hand. That takes operations, and whatever else
hooks can do: they clone what a pass releases, and they panic and are caught. -/
inductive Comes : Session → Hand → Session → Hand → Prop
  | goes {s t : Session} {F G : Hand} (h : Goes s F t G) : Comes s F t G
  /-- A hook clones whatever it can reach, and be it the base of its own object. -/
  | clone (s : Session) (F : Hand) (x : Holder) : Comes s F (s.update (·.hold x)) (F.more [x])
  /-- A panic leaves a pass, whose slots are all released. -/
  | abandon (s : Session) (F : Hand) (q : QueueId) (g : CollectorId) (stats : PassStats) :
    Comes s (F.opened ⟨q, [], .complete g stats⟩) (s.update (·.abandonQueue q)) F
  /-- A panic leaves a hook while another one is on its way. -/
  | abort (s : Session) (F : Hand) : Comes s F { s with stuck := true } F
  | trans {s t u : Session} {F G H : Hand} (h : Comes s F t G) (h' : Comes t G u H) : Comes s F u H

theorem composes_comes : Composes Comes := ⟨.goes, .trans⟩

/-- However `run` runs steps, what was in hand before is in hand afterwards, although they may clone what a
pass releases, and panic and be caught. -/
abbrev Tolerant (run : Runner) : Prop := RunsBy Comes run

theorem Honest.tolerant (hrun : Honest run) : Tolerant run :=
  fun steps s F h => .goes (hrun steps s F h)

theorem owns_abandon {q : QueueId} {stats : PassStats}
    (ho : s.Owns (F.opened ⟨q, [], .complete g stats⟩)) :
    (s.update (·.abandonQueue q)).Owns F := by
  refine ⟨ho.covers, fun hs => ?_, ho.alone⟩
  obtain ⟨hsound, hqueues, hinUse, hnamed, hlt, hunlocks⟩ := ho.inOrder hs
  obtain ⟨hsound, hrest⟩ := hsound.abandonQueue hqueues
  exact ⟨hsound, hrest, hinUse, hnamed, hlt,
    fun p hp => hunlocks p (List.mem_cons_of_mem _ hp)⟩

/-- What is kept in hand stays registered in the collectors in use, whatever is done meanwhile. -/
theorem Goes.registered (h : Goes s F t G) (ho : s.Owns F) (hg : g ∈ F.inUse) (hx : x ∈ F.kept)
    (hr : s.heap.Registered g x.handle) : t.heap.Registered g x.handle := by
  obtain ⟨⟨os, hl⟩, -⟩ := h ho
  have hkept : 0 < F.kept.count x := List.count_pos_iff.mpr hx
  rw [← hl.performs]
  refine registered_performs (hl.spares g hg) hr fun p hp => .inl ?_
  exact heldCount_pos_of_count (Nat.lt_of_lt_of_le hkept (hl.keeps p hp x))

theorem Comes.registered (h : Comes s F t G) (ho : s.Owns F) : t.Owns G ∧ F.Within G ∧
    ∀ g ∈ F.inUse, ∀ x ∈ F.kept, s.heap.Registered g x.handle → t.heap.Registered g x.handle := by
  induction h with
  | goes h =>
    obtain ⟨-, ho', hw⟩ := h ho
    exact ⟨ho', hw, fun g hg x hx hr => h.registered ho hg hx hr⟩
  | clone s F x =>
    refine ⟨⟨ho.covers.add x, fun hs => ?_, ho.alone⟩, F.within _ _, fun _ _ _ _ hr => hr⟩
    obtain ⟨hsound, hqueues, hinUse, hnamed, hlt, hunlocks⟩ := ho.inOrder hs
    have hsound' : (s.heap.hold x).Sound :=
      ⟨⟨hsound.numbered.nodup, hsound.numbered.lt_opened⟩, hsound.guarded⟩
    exact ⟨hsound', hqueues, hinUse, hnamed, hlt, hunlocks⟩
  | abandon s F q g stats =>
    exact ⟨owns_abandon ho, ⟨id, rfl, fun _ hg => hg⟩, fun _ _ _ _ hr => hr⟩
  | abort s F =>
    exact ⟨⟨ho.covers, fun hs => Bool.noConfusion hs, ho.alone⟩, F.within _ _,
      fun _ _ _ _ hr => hr⟩
  | trans _ _ ih ih' =>
    obtain ⟨ho, hw, hregistered⟩ := ih ho
    obtain ⟨ho, hw', hregistered'⟩ := ih' ho
    refine ⟨ho, hw.trans hw', fun g hg x hx hr => ?_⟩
    exact hregistered' g (hw.inUse hg) x (hw.kept ▸ hx) (hregistered g hg x hx hr)

/-! ## Which hooks panic -/

variable {panics : Panics} {q : QueueId} {xs : List Holder} {panicking : Bool}

/-- When these slots of queue `q` are released one after the other, the hook of one of them panics. -/
def HookPanics (run : Runner) (panics : Panics) (q : QueueId) : List Holder → Session → Prop
  | [], _ => False
  | x :: rest, s =>
    let s := s.update (·.releaseNext q)
    s.panicsAfter panics x = true ∨ HookPanics run panics q rest (s.afterDrop run x)

/-- The registration of `x` in `g` runs a pass, and one of the hooks that the pass brings about panics. -/
def SweptPanics (run : Runner) (panics : Panics) (g : CollectorId) (x : Holder) (t : Session) : Prop :=
  ∃ q heap, (t.heap.hold x).register g x = (.accepted (some q), heap) ∧
    HookPanics run panics q (heap.waiting q) { t with heap }

/-- Who is not stuck after a release had no panic, or no other panic was on its way. -/
theorem afterDropPanicking_eq (hs : (s.afterDropPanicking run panics panicking x).2.stuck = false) :
    s.afterDropPanicking run panics panicking x =
      (panicking || s.panicsAfter panics x, s.afterDrop run x) := by
  unfold afterDropPanicking at hs ⊢
  cases hp : panicking && s.panicsAfter panics x with
  | false => simp [hp]
  | true => simp [hp] at hs

/-- The release of one slot, if all of them are released in the end. -/
theorem releaseAll_cons (hs : (s.releaseAll run panics q panicking (x :: xs)).2.stuck = false) :
    let u := s.update (·.releaseNext q)
    (u.afterDrop run x).stuck = false ∧ s.releaseAll run panics q panicking (x :: xs) =
      (u.afterDrop run x).releaseAll run panics q (panicking || u.panicsAfter panics x) xs := by
  intro u
  cases hu : (u.afterDropPanicking run panics panicking x).2.stuck with
  | true => simp [releaseAll, u, hu] at hs
  | false =>
    have he := afterDropPanicking_eq hu
    have hfree : (u.afterDrop run x).stuck = false := by rwa [he] at hu
    refine ⟨hfree, ?_⟩
    rw [releaseAll, he]
    exact if_neg (by simp [hfree])

/-- After the release of all slots a panic is on its way if one was before or a hook panicked. -/
theorem panicking_releaseAll (hs : (s.releaseAll run panics q panicking xs).2.stuck = false) :
    (s.releaseAll run panics q panicking xs).1 = true ↔
      panicking = true ∨ HookPanics run panics q xs s := by
  induction xs generalizing s panicking with
  | nil => simp [releaseAll, HookPanics]
  | cons x rest ih =>
    obtain ⟨-, he⟩ := releaseAll_cons hs
    rw [he] at hs ⊢
    rw [ih hs, Bool.or_eq_true, or_assoc]
    rfl

/-- As long as no hook panics, slots are released as if none could. -/
theorem drain_eq_releaseAll (hs : (s.releaseAll run panics q false xs).2.stuck = false)
    (hp : (s.releaseAll run panics q false xs).1 = false) :
    s.drain run q xs = (s.releaseAll run panics q false xs).2.update (·.closeQueue q) := by
  induction xs generalizing s with
  | nil => rfl
  | cons x rest ih =>
    obtain ⟨hu, he⟩ := releaseAll_cons hs
    have hnone : (s.update (·.releaseNext q)).panicsAfter panics x = false := by
      refine Bool.eq_false_iff.mpr fun h => ?_
      rw [(panicking_releaseAll hs).mpr (.inr (.inl h))] at hp
      cases hp
    rw [hnone, Bool.or_false] at he
    rw [he] at hs hp ⊢
    rw [drain, if_neg (by simp [hu])]
    exact ih hs hp

/-! ## How creations end -/

theorem registerPanicking_of_acquire (hfree : (t.acquire g).stuck = false) :
    t.registerPanicking run panics g x =
      match (t.heap.hold x).register g x with
      | (.accepted none, heap) => (.returned x, { t with heap })
      | (.accepted (some q), heap) =>
        let (panicking, s) := { t with heap }.releaseAll run panics q false (heap.waiting q)
        if s.stuck then (.halted, s)
        else if panicking then (s.update (·.abandonQueue q)).unwind run panics x .unwound
        else (.returned x, s.update (·.closeQueue q))
      | (.refused q, heap) =>
        let (_, s) := { t with heap }.releaseAll run panics q true (heap.waiting q)
        if s.stuck then (.halted, s)
        else (s.update (·.closeQueue q)).unwind run panics x (.refused x.handle) := by
  have hs := hfree
  rw [acquire_eq hfree] at hs
  unfold registerPanicking
  rw [acquire_eq hfree]
  exact if_neg (by simp [hs])

/-- A panic that leaves a creation stays what it is, or it is the end of everything. -/
theorem unwind_cases (run : Runner) (panics : Panics) (x : Holder) (ending : Ending) (s : Session) :
    let result := s.unwind run panics x ending
    result.1 = .halted ∧ result.2.stuck = true ∨ result.1 = ending ∧ result.2.stuck = false := by
  unfold unwind
  cases h : ((s.update (·.letGo x)).afterDropPanicking run panics true x).2.stuck with
  | true => exact .inl ⟨if_pos h, h⟩
  | false => exact .inr ⟨if_neg (by simp [h]), h⟩

theorem sweptPanics_iff {heap : Heap}
    (he : (t.heap.hold x).register g x = (.accepted (some q), heap)) :
    t.SweptPanics run panics g x ↔
      HookPanics run panics q (heap.waiting q) { t with heap } := by
  refine ⟨?_, fun h => ⟨q, heap, he, h⟩⟩
  rintro ⟨q', heap', he', h⟩
  cases he.symm.trans he'
  exact h

/-- A registration that comes to an end is refused, or is accepted and a hook panics, or is accepted and
no hook panics, and then all is as if none could. -/
theorem registerPanicking_cases (run : Runner) (panics : Panics)
    (hfree : (t.acquire g).stuck = false) :
    let result := t.registerPanicking run panics g x
    let accepted := ((t.heap.hold x).register g x).1.isAccepted
    result.1 = .halted ∧ result.2.stuck = true ∨ result.2.stuck = false ∧
      (accepted = false ∧ result.1 = .refused x.handle ∨
        accepted = true ∧ t.SweptPanics run panics g x ∧ result.1 = .unwound ∨
        accepted = true ∧ ¬ t.SweptPanics run panics g x ∧ result.1 = .returned x ∧
          t.register run g x = (.ok x, result.2)) := by
  have hs : t.stuck = false := by rwa [acquire_eq hfree] at hfree
  rw [registerPanicking_of_acquire hfree, register_of_acquire hfree]
  rcases he : (t.heap.hold x).register g x with ⟨(_ | q) | q, heap⟩ <;> dsimp only
  · -- no pass is run
    refine .inr ⟨hs, .inr (.inr ⟨rfl, ?_, rfl, rfl⟩)⟩
    rintro ⟨q, heap', he', -⟩
    cases he.symm.trans he'
  · -- a pass is run, whose slots are released after the registration
    rw [sweptPanics_iff he, release]
    have hpanicking := @panicking_releaseAll { t with heap } run panics q (heap.waiting q) false
    have hdrain := @drain_eq_releaseAll { t with heap } run panics q (heap.waiting q)
    generalize { t with heap }.releaseAll run panics q false (heap.waiting q) = result at *
    obtain ⟨panicking, u⟩ := result
    dsimp only at hpanicking hdrain ⊢
    cases hu : u.stuck with
    | true => exact .inl ⟨rfl, hu⟩
    | false =>
      have hpanicking := hpanicking hu
      cases panicking with
      | true =>
        have hhook := (hpanicking.mp rfl).resolve_left Bool.false_ne_true
        refine (unwind_cases run panics x .unwound (u.update (·.abandonQueue q))).imp_right fun h => ?_
        exact ⟨h.2, .inr (.inl ⟨rfl, hhook, h.1⟩)⟩
      | false =>
        refine .inr ⟨hu, .inr (.inr ⟨rfl, fun h => ?_, rfl, ?_⟩)⟩
        · cases hpanicking.mpr (.inr h)
        · rw [hdrain hu rfl]
          rfl
  · -- the slots are released while the panic of the refusal is on its way
    generalize { t with heap }.releaseAll run panics q true (heap.waiting q) = result
    obtain ⟨-, u⟩ := result
    cases hu : u.stuck with
    | true => exact .inl ⟨rfl, hu⟩
    | false =>
      refine (unwind_cases run panics x (.refused x.handle) (u.update (·.closeQueue q))).imp_right
        fun h => ?_
      exact ⟨h.2, .inl ⟨rfl, h.1⟩⟩

/-! ## Where no hook panics -/

theorem afterDropPanicking_of_never (hn : ∀ u h hook, panics u h hook = false) :
    s.afterDropPanicking run panics panicking x = (panicking, s.afterDrop run x) := by
  have hnone : s.panicsAfter panics x = false := by
    unfold panicsAfter
    split
    · rw [hn, ite_self]
    · rfl
  simp [afterDropPanicking, hnone]

theorem releaseAll_of_never (hn : ∀ u h hook, panics u h hook = false) (hs : s.stuck = false) :
    let result := s.releaseAll run panics q panicking xs
    result.1 = panicking ∧ s.drain run q xs =
      if result.2.stuck then result.2 else result.2.update (·.closeQueue q) := by
  induction xs generalizing s with
  | nil => exact ⟨rfl, (if_neg (by simp [releaseAll, hs])).symm⟩
  | cons x rest ih =>
    rw [releaseAll, drain, afterDropPanicking_of_never hn]
    dsimp only
    cases hu : ((s.update (·.releaseNext q)).afterDrop run x).stuck with
    | true => simp [hu]
    | false => exact ih hu

/-- Where no hook panics, a registration does what it does when none can, and answers the same if it
comes to an end. -/
theorem registerPanicking_of_never (hn : ∀ u h hook, panics u h hook = false)
    (hfree : (t.acquire g).stuck = false) :
    let result := t.registerPanicking run panics g x
    result.2 = (t.register run g x).2 ∧
      result.1.answer? = if result.2.stuck then none else some (t.register run g x).1 := by
  have hs : t.stuck = false := by rwa [acquire_eq hfree] at hfree
  rw [registerPanicking_of_acquire hfree, register_of_acquire hfree]
  obtain ⟨(_ | q) | q, heap⟩ := (t.heap.hold x).register g x
  · exact ⟨rfl, (if_neg (by simp [hs])).symm⟩
  · obtain ⟨hnone, hdrain⟩ := @releaseAll_of_never { t with heap } run panics q (heap.waiting q) false
      hn hs
    dsimp only at hdrain ⊢
    rw [release, hdrain, hnone]
    generalize ({ t with heap }.releaseAll run panics q false (heap.waiting q)).2 = u
    cases hu : u.stuck <;> simp [hu, update, Ending.answer?]
  · obtain ⟨-, hdrain⟩ := @releaseAll_of_never { t with heap } run panics q (heap.waiting q) true hn hs
    dsimp only at hdrain ⊢
    rw [release, hdrain]
    generalize ({ t with heap }.releaseAll run panics q true (heap.waiting q)).2 = u
    cases hu : u.stuck with
    | true => simp [hu, Ending.answer?]
    | false =>
      have hfree : (u.update (·.closeQueue q)).stuck = false := hu
      simp only [Bool.false_eq_true, ↓reduceIte, hfree, unwind, afterDropPanicking_of_never hn]
      refine ⟨rfl, ?_⟩
      show Ending.answer? (if ((u.update (·.closeQueue q)).dropHolder run x).stuck then _ else _) =
        if ((u.update (·.closeQueue q)).dropHolder run x).stuck then _ else _
      split <;> rfl

theorem afterDropPanicking_of_no_hooks (hooks : s.hooks = ∅) :
    s.afterDropPanicking run panics panicking x = (panicking, s) := by
  have hnone : s.panicsAfter panics x = false := by simp [panicsAfter, hooks]
  simp [afterDropPanicking, hnone, afterDrop_of_no_hooks run hooks]

theorem releaseAll_of_no_hooks (hooks : s.hooks = ∅) (hs : s.stuck = false) :
    (s.releaseAll run panics q panicking xs).2.stuck = false ∧
      (s.releaseAll run panics q panicking xs).2.hooks = ∅ := by
  induction xs generalizing s with
  | nil => exact ⟨hs, hooks⟩
  | cons x rest ih =>
    have hooks' : (s.update (·.releaseNext q)).hooks = ∅ := hooks
    have hu : (s.update (·.releaseNext q)).stuck = false := hs
    rw [releaseAll, afterDropPanicking_of_no_hooks hooks']
    dsimp only
    rw [hu, if_neg Bool.false_ne_true]
    exact ih hooks' hu

theorem unwind_of_no_hooks {ending : Ending} (hooks : s.hooks = ∅) (hs : s.stuck = false)
    (f : Heap → Heap) : ((s.update f).unwind run panics x ending).1 = ending := by
  have hooks' : ((s.update f).update (·.letGo x)).hooks = ∅ := hooks
  rw [unwind, afterDropPanicking_of_no_hooks hooks']
  exact if_neg (ne_true_of_eq_false hs)

/-- Where there are no hooks, nothing keeps a registration from its end. -/
theorem registerPanicking_of_no_hooks (hooks : t.hooks = ∅) (hfree : (t.acquire g).stuck = false) :
    (t.registerPanicking run panics g x).1 ≠ .halted := by
  have hs : t.stuck = false := by rwa [acquire_eq hfree] at hfree
  rw [registerPanicking_of_acquire hfree]
  obtain ⟨(_ | q) | q, heap⟩ := (t.heap.hold x).register g x
  · exact Ending.noConfusion
  · obtain ⟨hu, hooks'⟩ := @releaseAll_of_no_hooks { t with heap } run panics q (heap.waiting q) false
      hooks hs
    dsimp only
    rw [hu, if_neg Bool.false_ne_true]
    split
    · rw [unwind_of_no_hooks hooks' hu]
      exact Ending.noConfusion
    · exact Ending.noConfusion
  · obtain ⟨hu, hooks'⟩ := @releaseAll_of_no_hooks { t with heap } run panics q (heap.waiting q) true
      hooks hs
    dsimp only
    rw [hu, if_neg Bool.false_ne_true, unwind_of_no_hooks hooks' hu]
    exact Ending.noConfusion

/-! ## What is in hand after a registration -/

theorem comes_afterDropPanicking (hrun : Tolerant run) (panics : Panics) (panicking : Bool)
    (x : Holder) (s : Session) :
    Comes s F (s.afterDropPanicking run panics panicking x).2 F := by
  have hdrop : Comes s F (s.afterDrop run x) F := composes_comes.afterDrop hrun x s
  unfold afterDropPanicking
  dsimp only
  split
  · exact hdrop.trans (.abort _ F)
  · exact hdrop

theorem comes_releaseAll (hrun : Tolerant run) (panics : Panics) (panicking : Bool) (q : QueueId)
    (after : Afterwards) (xs : List Holder) (s : Session) :
    Comes s (F.opened ⟨q, xs, after⟩) (s.releaseAll run panics q panicking xs).2
      (F.opened ⟨q, [], after⟩) := by
  induction xs generalizing s panicking with
  | nil => exact .goes (.refl _ _)
  | cons x rest ih =>
    have hdrop := Comes.trans (.goes (goes_releaseNext (F := F) q x rest after s))
      (comes_afterDropPanicking hrun panics panicking x _)
    rw [releaseAll]
    dsimp only
    split
    · rename_i hs
      have hend : Goes _ (F.opened ⟨q, rest, after⟩) _ (F.opened ⟨q, [], after⟩) :=
        Goes.of_stuck (G := F.opened ⟨q, [], after⟩) (Goes.refl _ _) hs
      exact hdrop.trans (.goes hend)
    · exact hdrop.trans (ih _ _)

theorem comes_unwind (hrun : Tolerant run) (x : Holder) {ending : Ending} (hend : ending.inHand = [])
    (s : Session) : Comes s (F.more [x]) (s.unwind run panics x ending).2
      (F.more (s.unwind run panics x ending).1.inHand) := by
  have hnone : (s.unwind run panics x ending).1.inHand = [] := by
    rcases unwind_cases run panics x ending s with ⟨he, -⟩ | ⟨he, -⟩ <;> rw [he]
    · rfl
    · exact hend
  rw [hnone]
  exact .trans (.goes .letGo) (comes_afterDropPanicking hrun panics true x _)

/-- If it is caught that a registration panics, the application has what it had. -/
theorem comes_registerPanicking (hrun : Tolerant run) (hg : g ∈ F.inUse)
    (hfree : (t.acquire g).stuck = false) :
    Comes t (F.more [x]) (t.registerPanicking run panics g x).2
      (F.more (t.registerPanicking run panics g x).1.inHand) := by
  have hslot : ∀ new : List ReleaseQueue, _ := fun new =>
    @goes_intoSlot F g t x hg (fun _ => acquire_eq hfree ▸ findsFree_acquire rfl hfree) new
  have hqueues := queues_register (t.heap.hold x) g x
  rw [registerPanicking_of_acquire hfree]
  generalize (t.heap.hold x).register g x = result at *
  obtain ⟨(_ | q) | q, heap⟩ := result
  · exact .goes (hslot [] hqueues (by simp))
  · obtain ⟨xs, stats, hq⟩ := hqueues
    have hrelease := Comes.trans (.goes (hslot [_] hq (by simp [ReleaseQueue.unlocks])))
      (comes_releaseAll (F := F.more [x]) hrun panics false q (.complete g stats) xs _)
    dsimp only
    rw [waiting_head hq]
    generalize { t with heap }.releaseAll run panics q false xs = released at *
    split
    · rename_i hs
      exact hrelease.trans (.goes ((Goes.refl _ _).of_stuck hs).weaken)
    · split
      · exact hrelease.trans (.trans (.abandon _ _ q g stats) (comes_unwind hrun x rfl _))
      · exact hrelease.trans (.goes (goes_closeQueue q _ _))
  · obtain ⟨xs, hq⟩ := hqueues
    have hrelease := Comes.trans (.goes (hslot [_] hq (by simp [ReleaseQueue.unlocks, eq_comm])))
      (comes_releaseAll (F := F.more [x]) hrun panics true q (.unlock g) xs _)
    dsimp only
    rw [waiting_head hq]
    generalize { t with heap }.releaseAll run panics q true xs = released at *
    split
    · rename_i hs
      exact hrelease.trans (.goes ((Goes.refl _ _).of_stuck hs).weaken)
    · exact hrelease.trans (.trans (.goes (goes_closeQueue q _ _)) (comes_unwind hrun x rfl _))

end Session

end Program

end SharedHeap
