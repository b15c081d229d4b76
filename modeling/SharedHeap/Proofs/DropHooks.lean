import Mathlib.Data.List.Forall2
import SharedHeap.Proofs.Duplicates
import SharedHeap.Proofs.Releases

/-! # The hooks of what a pass swept

While the slots of a pass are released one by one, each destroys an object, and if that has a hook, the
hook runs. Until then the hook is there: it goes away only when it runs, and it runs only when the
object has no whole holder left, while the slot that waits is one. Once it ran it is gone for good, for
hooks are given to new objects only. So what hooks a pass runs is known before any of them runs, and so
is their order. -/

namespace SharedHeap

open Heap

namespace Program

namespace Session

variable {s t : Session} {F G : Hand} {g : CollectorId} {x : Holder} {run : Runner}
  {os : List Operation} {h : Handle} {q : QueueId} {swept xs : List Holder} {after : Afterwards}
  {stats : PassStats}

/-! ## What operations keep -/

theorem Leads.known (hl : s.Leads F t os) (hk : s.heap.Known) : t.heap.Known :=
  hl.performs ▸ hl.sequential.legal.invariant (fun _ _ he hk => hk.of_perform he) hk

theorem Leads.leaving (hl : s.Leads F t os) (hb : t.heap.allocated < UInt64.size)
    (hh : s.heap.Leaving q h) : t.heap.Leaving q h :=
  hl.performs ▸ hh.performs hl.sequential.legal (hl.performs ▸ hb)

/-- Among the handles that were given out, none is given out again. -/
theorem Leads.not_fresh (hl : s.Leads F t os) (hb : t.heap.allocated < UInt64.size)
    (hh : ∃ n < s.heap.allocated, h = .fresh n) :
    ¬ ∃ n, s.heap.allocated ≤ n ∧ n < t.heap.allocated ∧ h = .fresh n := by
  rintro ⟨m, hle, hlt, rfl⟩
  obtain ⟨n, hn, he⟩ := hh
  have hle' := hl.allocated_le
  obtain rfl : m = n := Handle.fresh_injective (by omega) (by omega) he
  omega

/-- An object that has no hook gets none. -/
theorem Leads.hook_eq_none (hl : s.Leads F t os) (hb : t.heap.allocated < UInt64.size)
    (hh : ∃ n < s.heap.allocated, h = .fresh n) (hn : s.hooks[h]? = none) :
    t.hooks[h]? = none := by
  rcases hl.hooks h with he | ⟨he, -⟩ | hfresh
  · exact he.trans hn
  · exact he
  · exact absurd hfresh (hl.not_fresh hb hh)

/-- While its slot waits, a hook stays. -/
theorem Leads.hook_eq (hl : s.Leads F t os) (hb : t.heap.allocated < UInt64.size)
    (hk : s.heap.Known) (hn : s.heap.Numbered) (hq : q < s.heap.opened)
    (hx : ⟨h, .whole⟩ ∈ t.heap.waiting q) : t.hooks[h]? = s.hooks[h]? := by
  -- nothing is put into a queue later, so what waits at the end has waited all along
  have hwaits : ∀ p, p <+: s.heap.actionsOf os → ⟨h, .whole⟩ ∈ (s.heap.performs p).waiting q := by
    rintro p ⟨rest, he⟩
    have hsuffix := (hn.performs p).waiting_performs
      (Nat.lt_of_lt_of_le hq (opened_le_performs s.heap p)) rest
    rw [← performs_append, he, hl.performs] at hsuffix
    exact hsuffix.subset hx
  rcases hl.hooks h with he | ⟨-, p, hp, hw⟩ | hfresh
  · exact he
  · exact absurd hw (Nat.ne_of_gt (wholeCount_pos_of_waiting (hwaits p hp)))
  · obtain ⟨p, hp, hx⟩ := mem_queue_of_waiting (hwaits [] List.nil_prefix)
    exact absurd hfresh (hl.not_fresh hb (hk h (.inr ⟨p, hp, _, hx, rfl⟩)))

/-! ## Reports of the step in progress -/

/-- What runs within a step leaves the reports of that step as they are. -/
def KeepsDrops (run : Runner) : Prop := ∀ steps s, (run steps s).2.drops = s.drops

theorem drops_runStep (run : Runner) (step : Step) (s : Session) :
    (s.runStep run step).2.drops = s.drops := by
  obtain ⟨collector, command⟩ := step
  rfl

theorem keepsDrops_runSteps (depth : Nat) : KeepsDrops (runSteps depth) := by
  induction depth with
  | zero => exact fun steps s => rfl
  | succ depth ih =>
    intro steps s
    cases steps with
    | nil => rfl
    | cons step rest =>
      rw [runSteps]
      split
      · rfl
      · exact (ih rest _).trans (drops_runStep (runSteps depth) step s)

/-! ## The release of one slot -/

/-- The hooks of the whole objects in these slots, in their order. A slot that holds a base alone is not
the last whole holder of anything, so it runs none. -/
def armed (s : Session) (xs : List Holder) : List (Holder × Hook) :=
  xs.filterMap fun x => if x.view = .whole then s.hooks[x.handle]?.map (x, ·) else none

theorem armed_congr (hooks : ∀ x ∈ xs, x.view = .whole → t.hooks[x.handle]? = s.hooks[x.handle]?) :
    t.armed xs = s.armed xs := by
  refine List.filterMap_congr fun x hx => ?_
  by_cases hv : x.view = .whole
  · rw [if_pos hv, if_pos hv, hooks x hx hv]
  · rw [if_neg hv, if_neg hv]

/-- The hook of an object in one of the slots that a pass swept ran and left this report. It began when
the slots up to its own had been released and the others still waited, and none of them was to be
found in any collector. -/
def RanHook (run : Runner) (q : QueueId) (swept : List Holder) (after : Afterwards) :
    Holder × Hook → DropReport → Prop := fun (x, hook) report =>
  ∃ u : Session, ∃ k, swept[k]? = some x ∧ u.heap.Releasing q swept after (k + 1) ∧
    (∀ y ∈ swept, u.heap.Unresolved y.handle) ∧ u.hooks[x.handle]? = some hook ∧
    report = .mk hook.name (u.summary hook.collector)
      (run hook.steps { u with hooks := u.hooks.erase x.handle }).1

/-- Nothing is done by who is stuck. -/
theorem stuck_of_ite (h : (if s.stuck then s else t).stuck = false) : s.stuck = false := by
  cases hs : s.stuck with
  | false => rfl
  | true => rw [if_pos hs, hs] at h; cases h

/-- A hook gets stuck at once or runs. -/
theorem runHook_eq {hook : Hook} (hs : (s.runHook run h hook).stuck = false) :
    s.runHook run h hook =
      let result := run hook.steps { s with hooks := s.hooks.erase h }
      { result.2 with
        drops := result.2.drops ++ [.mk hook.name (s.summary hook.collector) result.1] } := by
  unfold runHook at hs ⊢
  cases hc : s.collectors[hook.collector]? with
  | none =>
    simp only [hc] at hs ⊢
    exact if_neg (by simp [stuck_of_ite hs])
  | some g =>
    simp only [hc] at hs ⊢
    have hstuck := stuck_of_ite hs
    rw [if_neg (by simp [hstuck]), acquire_eq hstuck]

/-- If the object that has lost its last holder has a hook, the hook runs once and for all and leaves one
report. -/
theorem afterDrop_reports (hrun : Honest run) (hdrops : KeepsDrops run) (ho : s.Owns F)
    (hw : s.heap.wholeCount x.handle = 0) (hx : ∃ n < s.heap.allocated, x.handle = .fresh n)
    (hs : (s.afterDrop run x).stuck = false)
    (hb : (s.afterDrop run x).heap.allocated < UInt64.size) {R : Holder × Hook → DropReport → Prop}
    (hR : ∀ hook, s.hooks[x.handle]? = some hook → R (x, hook) (.mk hook.name
      (s.summary hook.collector) (run hook.steps { s with hooks := s.hooks.erase x.handle }).1)) :
    ∃ reports, (s.afterDrop run x).drops = s.drops ++ reports ∧
      List.Forall₂ R (s.armed [x]) reports ∧
      (x.view = .whole → (s.afterDrop run x).hooks[x.handle]? = none) := by
  cases hhook : s.hooks[x.handle]? with
  | none =>
    have he : s.afterDrop run x = s := by simp [afterDrop, hhook]
    have harmed : s.armed [x] = [] := by simp [armed, hhook]
    rw [he, harmed]
    exact ⟨[], by simp, .nil, fun _ => hhook⟩
  | some hook =>
    by_cases hv : x.view = .whole
    · have he : s.afterDrop run x = s.runHook run x.handle hook := by
        simp [afterDrop, hhook, hv, hw]
      have harmed : s.armed [x] = [(x, hook)] := by simp [armed, hhook, hv]
      rw [he] at hs hb
      rw [runHook_eq hs] at hb
      rw [he, harmed, runHook_eq hs]
      have hrest : Owns { s with hooks := s.hooks.erase x.handle } F := (goes_eraseHook s hw ho).2.1
      obtain ⟨⟨os, hl⟩, -⟩ := hrun hook.steps _ F (fun hF => ho.alone hF x.handle hook hhook) hrest
      refine ⟨[_], congrArg (· ++ _) (hdrops _ _), .cons (hR hook hhook) .nil, fun _ => ?_⟩
      exact hl.hook_eq_none hb hx (by simp)
    · have he : s.afterDrop run x = s := by simp [afterDrop, hhook, hv]
      have harmed : s.armed [x] = [] := by simp [armed, hv]
      rw [he, harmed]
      exact ⟨[], by simp, .nil, fun h => absurd h hv⟩

/-! ## The release of all slots -/

/-- Of the slots that a pass swept those in `done` are released and those in `xs` are next. -/
structure Draining (s : Session) (F : Hand) (q : QueueId) (swept done xs : List Holder)
    (after : Afterwards) : Prop where
  owns : s.Owns (F.opened ⟨q, xs, after⟩)
  known : s.heap.Known
  split : done ++ xs = swept
  ascending : swept.Pairwise fun x y => x.handle.raw < y.handle.raw
  leaving : ∀ x ∈ swept, s.heap.Leaving q x.handle

section

variable {done : List Holder}

theorem Draining.releaseNext (hd : s.Draining F q swept done (x :: xs) after)
    (hb : s.heap.allocated < UInt64.size) :
    (s.update (·.releaseNext q)).Draining F q swept (done ++ [x]) xs after := by
  obtain ⟨⟨os, hl⟩, ho, -⟩ := goes_releaseNext q x xs after s hd.owns
  exact ⟨ho, hl.known hd.known, by simp [← hd.split], hd.ascending,
    fun y hy => hl.leaving hb (hd.leaving y hy)⟩

theorem Draining.queues (hd : s.Draining F q swept done xs after) (hs : s.stuck = false) :
    s.heap.queues = ⟨q, xs, after⟩ :: F.queues := (hd.owns.inOrder hs).queues

theorem Draining.releasing (hd : s.Draining F q swept done xs after) (hs : s.stuck = false) :
    s.heap.Releasing q swept after done.length := by
  refine .of_leaving (hd.owns.inOrder hs).sound.numbered ?_ hd.ascending hd.leaving
  rw [← hd.split, List.drop_left]
  exact queue?_head (hd.queues hs)

/-- What operations leave in the queue keeps its hooks. -/
theorem Draining.of_leads (hd : s.Draining F q swept done xs after) (hs : s.stuck = false)
    (hl : s.Leads G t os) (ho : t.Owns (F.opened ⟨q, xs, after⟩)) (ht : t.stuck = false)
    (hb : t.heap.allocated < UInt64.size) :
    t.Draining F q swept done xs after ∧ t.armed xs = s.armed xs := by
  have hd' : t.Draining F q swept done xs after := ⟨ho, hl.known hd.known, hd.split, hd.ascending,
    fun y hy => hl.leaving hb (hd.leaving y hy)⟩
  have hn := (hd.owns.inOrder hs).sound.numbered
  have hq : q < s.heap.opened := hn.lt_opened ⟨q, xs, after⟩ (hd.queues hs ▸ List.mem_cons_self)
  refine ⟨hd', armed_congr fun y hy hview => hl.hook_eq hb hd.known hn hq ?_⟩
  rw [waiting_head (hd'.queues ht), ← hview]
  exact hy

/-- When a slot is released, its hook runs and those of the slots that still wait stay. -/
theorem Draining.afterDrop_reports (hrun : Honest run) (hdrops : KeepsDrops run)
    (hd : s.Draining F q swept (done ++ [x]) xs after) (hs : (s.afterDrop run x).stuck = false)
    (hb : (s.afterDrop run x).heap.allocated < UInt64.size) :
    (s.afterDrop run x).Draining F q swept (done ++ [x]) xs after ∧
      (s.afterDrop run x).armed xs = s.armed xs ∧
      ∃ reports, (s.afterDrop run x).drops = s.drops ++ reports ∧
        List.Forall₂ (RanHook run q swept after) (s.armed [x]) reports ∧
        (x.view = .whole → (s.afterDrop run x).hooks[x.handle]? = none) := by
  have hgoes := goes_afterDrop (F := F.opened ⟨q, xs, after⟩) hrun x s
  have hstuck := hgoes.stuck_of hd.owns hs
  obtain ⟨⟨os, hl⟩, ho, -⟩ := hgoes hd.owns
  have hget : swept[done.length]? = some x := by simp [← hd.split]
  have hx : x ∈ swept.take (done ++ [x]).length := by simp [← hd.split, List.take_append]
  have hreleasing := hd.releasing hstuck
  have hgone : s.heap.wholeCount x.handle = 0 := by
    have hle := wholeCount_le_holderCount s.heap x.handle
    rw [hreleasing.released x hx] at hle
    exact Nat.le_zero.mp hle
  obtain ⟨hd', harmed⟩ := hd.of_leads hstuck hl ho hs hb
  rw [List.length_append] at hreleasing
  exact ⟨hd', harmed, Session.afterDrop_reports hrun hdrops hd.owns hgone
    (hd.leaving x (List.mem_of_mem_take hx)).spent.2 hs hb fun hook hhook =>
      ⟨s, done.length, hget, hreleasing, fun y hy => (hd.leaving y hy).spent.not_resolved, hhook,
        rfl⟩⟩

/-- The slots of a pass are all released, and `t` is about to close their queue. The hooks that were
there at the beginning ran in the order of the slots, each once. -/
structure Releases (run : Runner) (s : Session) (q : QueueId) (swept xs : List Holder)
    (after : Afterwards) (reports : List DropReport) (t : Session) : Prop where
  releasing : t.heap.Releasing q swept after swept.length
  drops : t.drops = s.drops ++ reports
  hooks : List.Forall₂ (RanHook run q swept after) (s.armed xs) reports
  gone : ∀ x ∈ xs, x.view = .whole → t.hooks[x.handle]? = none

theorem Draining.releases (hrun : Honest run) (hdrops : KeepsDrops run)
    (hd : s.Draining F q swept done xs after) (hs : (s.drain run q xs).stuck = false)
    (hb : (s.drain run q xs).heap.allocated < UInt64.size) :
    ∃ reports t, Releases run s q swept xs after reports t ∧
      s.drain run q xs = t.update (·.closeQueue q) := by
  -- with each release the next slot goes over from `xs` to `done`
  induction xs generalizing done s with
  | nil =>
    have hdone := hd.releasing hs
    rw [← List.append_nil done, hd.split] at hdone
    exact ⟨[], s, ⟨hdone, by simp, .nil, by simp⟩, rfl⟩
  | cons x rest ih =>
    obtain ⟨⟨os, hl⟩, -⟩ := goes_drain hrun q after (x :: rest) s hd.owns
    have hnext := hd.releaseNext (Nat.lt_of_le_of_lt hl.allocated_le hb)
    rw [drain] at hs hb ⊢
    have hsame : (s.update (·.releaseNext q)).drops = s.drops ∧
        (s.update (·.releaseNext q)).hooks = s.hooks := ⟨rfl, rfl⟩
    generalize s.update (·.releaseNext q) = v at *
    have hsv : (v.afterDrop run x).stuck = false := stuck_of_ite hs
    rw [if_neg (by simp [hsv])] at hs hb ⊢
    obtain ⟨-, ho, -⟩ := goes_afterDrop hrun x v hnext.owns
    obtain ⟨⟨ps, hp⟩, -⟩ := goes_drain hrun q after rest _ ho
    obtain ⟨hd, harmed, first, hfirst, hran, hnone⟩ :=
      hnext.afterDrop_reports hrun hdrops hsv (Nat.lt_of_le_of_lt hp.allocated_le hb)
    obtain ⟨later, t, ⟨hdone, hlater, hrest, hnever⟩, ht⟩ := ih hd hs hb
    refine ⟨first ++ later, t, ⟨hdone, ?_, ?_, fun y hy hview => ?_⟩, ht⟩
    · rw [hlater, hfirst, hsame.1, List.append_assoc]
    · have hsplit : s.armed (x :: rest) = v.armed [x] ++ (v.afterDrop run x).armed rest := by
        rw [harmed, armed, ← hsame.2, armed, armed, ← List.filterMap_append]
        rfl
      rw [hsplit]
      exact List.rel_append hran hrest
    · rcases List.mem_cons.mp hy with rfl | hy
      · have hy : y ∈ swept := hd.split ▸ by simp
        have hnone := hp.hook_eq_none hb (hd.leaving y hy).spent.2 (hnone hview)
        rwa [ht] at hnone
      · exact hnever y hy hview

end

/-! ## The passes of a session -/

/-- What comes after a pass, once its queue is open. -/
theorem releases_of_sweeps (hrun : Honest run) (hdrops : KeepsDrops run) {w : Heap} {a : Action}
    (hk : w.Known) (he : a.Enabled w) (hp : a.PassesOver w g)
    (hsweeps : w.Sweeps (a.perform w) g swept stats)
    (ho : Owns { s with heap := a.perform w } (F.opened ⟨w.opened, swept, .complete g stats⟩))
    (hs : (release run w.opened { s with heap := a.perform w }).stuck = false)
    (hb : (release run w.opened { s with heap := a.perform w }).heap.allocated < UInt64.size) :
    ∃ reports t, Releases run s w.opened swept swept (.complete g stats) reports t ∧
      release run w.opened { s with heap := a.perform w } = t.update (·.closeQueue w.opened) := by
  have hd : Draining { s with heap := a.perform w } F w.opened swept [] swept
      (.complete g stats) := ⟨ho, hk.of_perform he, rfl, hsweeps.ascending,
    fun x hx => leaving_of_swept hk hp hsweeps hx⟩
  rw [release, hsweeps.waiting_eq] at hs hb ⊢
  obtain ⟨reports, t, ⟨hreleasing, hreports, hhooks, hgone⟩, ht⟩ := hd.releases hrun hdrops hs hb
  exact ⟨reports, t, ⟨hreleasing, hreports, hhooks, hgone⟩, ht⟩

/-- A cleanup takes its slots out and then releases them. -/
theorem cleanup_releases (hrun : Honest run) (hdrops : KeepsDrops run) (ho : s.Owns F)
    (hg : g ∈ F.inUse) (hk : s.heap.Known) (hstate : (s.heap.collector g).state ≠ .stopped)
    (hs : (s.cleanup run g).2.stuck = false)
    (hb : (s.cleanup run g).2.heap.allocated < UInt64.size) :
    ∃ swept stats reports t, s.heap.Sweeps (s.heap.beginCleanup g).2 g swept stats ∧
      Releases run s s.heap.opened swept swept (.complete g stats) reports t ∧
      (s.cleanup run g).2 = t.update (·.closeQueue s.heap.opened) := by
  have hfree : (s.acquire g).stuck = false := by
    rw [cleanup, apply_ite Prod.snd] at hs
    exact stuck_of_ite hs
  have hacquire := acquire_eq hfree
  have hstuck := hacquire ▸ hfree
  have hlt := (ho.inOrder hstuck).inUse_lt g hg
  have hc := List.getElem?_eq_getElem hlt
  have hne := collector_eq hc ▸ hstate
  have hsweeps := sweeps_cleanup hc hne
  have hcleanup : s.cleanup run g = ((s.heap.runPass g).1.1,
      release run s.heap.opened { s with heap := (s.heap.beginCleanup g).2 }) := by
    rw [cleanup, hacquire, if_neg (by simp [hstuck]), beginCleanup_of_ne hc hne]
    rfl
  have hopened := goes_opened (s := s) (F := F) (.cleanup g) ⟨trivial, rfl⟩
    (fun _ _ => hacquire ▸ findsFree_acquire rfl hfree (hacquire.symm ▸ hlt)) trivial
    (fun _ _ _ he => by cases he) hsweeps.queues (fun _ he => by cases he)
    (s.heap.beginCleanup_frame g).1
  rw [hcleanup] at hs hb ⊢
  obtain ⟨reports, t, hreleases, ht⟩ := releases_of_sweeps (a := .cleanup g) hrun hdrops hk trivial
    ⟨rfl, hstate⟩ hsweeps (hopened ho).2.1 hs hb
  exact ⟨_, _, reports, t, hsweeps, hreleases, ht⟩

/-- A registration that is accepted ends with the release of the queue that it opened. -/
theorem register_eq_release (hfree : (s.acquire g).stuck = false)
    (hx : ((s.heap.hold x).register g x).1.isAccepted = true)
    (hq : ((s.heap.hold x).register g x).2.queues = ⟨q, xs, after⟩ :: s.heap.queues) :
    (s.register run g x).2 =
      release run q { s with heap := ((s.heap.hold x).register g x).2 } := by
  have hqueues := queues_register (s.heap.hold x) g x
  rw [register_of_acquire hfree]
  generalize (s.heap.hold x).register g x = result at *
  obtain ⟨(_ | q') | q', heap⟩ := result
  · rw [hqueues] at hq
    exact absurd hq.symm (List.cons_ne_self _ _)
  · obtain ⟨xs', stats, hq'⟩ := hqueues
    rw [hq'] at hq
    cases hq
    rfl
  · cases hx

/-- A registration whose pass is due takes slots out, registers its object, and then releases the
slots. -/
theorem register_releases (hrun : Honest run) (hdrops : KeepsDrops run)
    (ho : s.Owns (F.more [x])) (hg : g ∈ F.inUse) (hk : s.heap.Known) (hdue : s.heap.PassDue g)
    (hx : ¬ s.heap.Registered g x.handle) (hs : (s.register run g x).2.stuck = false)
    (hb : (s.register run g x).2.heap.allocated < UInt64.size) :
    let v := ((s.heap.hold x).register g x).2
    ∃ swept stats reports t, (s.heap.hold x).Sweeps v g swept stats ∧
      v.Registered g x.handle ∧ (v.collector g).pending = 1 ∧
      Releases run s s.heap.opened swept swept (.complete g stats) reports t ∧
      (s.register run g x).2 = t.update (·.closeQueue s.heap.opened) := by
  intro v
  have hfree : (s.acquire g).stuck = false := by
    rw [register, apply_ite Prod.snd] at hs
    exact stuck_of_ite hs
  have hacquire := acquire_eq hfree
  have hstuck := hacquire ▸ hfree
  have hlt := (ho.inOrder hstuck).inUse_lt g hg
  have hc : (s.heap.hold x).collectors[g]? = some _ := List.getElem?_eq_getElem hlt
  have hheld : 0 < s.heap.held.count x := ho.covers.count_pos List.mem_cons_self
  have hcount : 2 ≤ (s.heap.hold x).held.count x := by
    rw [hold, Bag.count_add, if_pos rfl]
    omega
  obtain ⟨stats, hsweeps, hregistered, hpending⟩ := sweeps_register (w := s.heap.hold x) hc hdue
    (Nat.lt_of_lt_of_le Nat.two_pos hcount) hx
  have hopened : Owns { s with heap := v }
      ((F.more [x]).opened ⟨s.heap.opened, _, .complete g stats⟩) :=
    (@goes_intoSlot F g s x hg
      (fun _ _ => hacquire ▸ findsFree_acquire rfl hfree (hacquire.symm ▸ hlt)) [_] hsweeps.queues
      (by simp [ReleaseQueue.unlocks]) ho).2.1
  have hregister : (s.register run g x).2 = release run s.heap.opened { s with heap := v } :=
    register_eq_release hfree (isAccepted_of_unregistered (w := s.heap.hold x) hlt
      (count_hold_pos s.heap x) hx) hsweeps.queues
  rw [hregister] at hs hb ⊢
  obtain ⟨reports, t, hreleases, ht⟩ := releases_of_sweeps (a := .register g x) hrun hdrops
    (hk.of_perform (a := .clone x) (ho.cloneable List.mem_cons_self)) hcount ⟨rfl, hdue⟩ hsweeps
    hopened hs hb
  exact ⟨_, stats, reports, t, hsweeps, hregistered, hpending, hreleases, ht⟩

/-- What steps and initialisers come to is as good a start as what they began with. -/
theorem Goes.known (h : Goes s F t G) (ho : s.Owns F) (hk : s.heap.Known) :
    t.Owns G ∧ t.heap.Known := by
  obtain ⟨⟨os, hl⟩, ho, -⟩ := h ho
  exact ⟨ho, hl.known hk⟩

/-- **Slots are released in order, and hooks see nothing of them.** Take any run of what threads can do
in which no `Drop` clones the object that it is about, locks are taken when they are free, queues are
closed when they are empty, and handles do not wrap around. A pass, unless a refused registration runs
it, takes its slots out in ascending order, and all of them are out before any is released; if a
registration runs the pass, the new object is registered and counted as pending by then. The slots are
released one after the other in that order. Each is the last holder of its object until then, so its
release destroys the object. The pass is counted after the last release. From beginning to end no
collector resolves any of the handles, whatever hooks do. A `Drop` that clones its own object out of the
slot that is dying can undo all this: see `resolved_by_later_hook`.

In a session, a cleanup and a creation release what their pass took out in this way, unless they get
stuck: the hooks that the objects had before the pass run in the order of the slots, each once, when
its own slot was just released, and then they are gone. A slot that holds a base alone runs none: the
hook of its object ran when the last whole holder went. What programs do to their heaps are such runs,
and they come to such sessions only. -/
theorem released_in_order :
    (∀ (n : Nat) (before : List Action) (a : Action) (later : List Action) (g : CollectorId),
      (initial n).Each Action.Possible (before ++ a :: later) →
      (initial n).Each (fun w a => ¬ a.Revives w) (before ++ a :: later) →
      (initial n).Each Action.Proper (before ++ a :: later) →
      ((initial n).performs (before ++ a :: later)).allocated < UInt64.size →
      let w := (initial n).performs before
      a.PassesOver w g → a.refuses w g = false →
      ∃ swept stats, w.PassRun a g later swept stats) ∧
    (∀ (run : Runner) (s : Session) (F : Hand) (g : CollectorId), Honest run → KeepsDrops run →
      s.Owns F → g ∈ F.inUse → s.heap.Known → (s.heap.collector g).state ≠ .stopped →
      let done := (s.cleanup run g).2
      done.stuck = false → done.heap.allocated < UInt64.size →
      ∃ swept stats reports t, s.heap.Sweeps (s.heap.beginCleanup g).2 g swept stats ∧
        Releases run s s.heap.opened swept swept (.complete g stats) reports t ∧
        done = t.update (·.closeQueue s.heap.opened)) ∧
    (∀ (α : Type) (run : Runner) (init : Session → α × Holder × Session) (s t : Session) (F : Hand)
      (g : CollectorId) (x : Holder), Honest run → KeepsDrops run → (init s).2 = (x, t) →
      t.Owns (F.more [x]) → g ∈ F.inUse → t.heap.Known → t.heap.PassDue g →
      ¬ t.heap.Registered g x.handle →
      let v := ((t.heap.hold x).register g x).2
      let done := (s.createFrom run g init).2.2
      done.stuck = false → done.heap.allocated < UInt64.size →
      ∃ swept stats reports u, (t.heap.hold x).Sweeps v g swept stats ∧
        v.Registered g x.handle ∧ (v.collector g).pending = 1 ∧
        Releases run t t.heap.opened swept swept (.complete g stats) reports u ∧
        done = u.update (·.closeQueue t.heap.opened)) ∧
    (∀ depth, Honest (runSteps depth) ∧ KeepsDrops (runSteps depth) ∧
      ∀ steps s (F : Hand), ¬ F.alone → s.Owns F → s.heap.Known →
        let t := (runSteps depth steps s).2
        t.Owns F ∧ t.heap.Known) ∧
    (∀ name spec, let s := Session.start name spec
      s.Owns (.empty False) ∧ s.heap.Known ∧ ∀ depth steps, let t := (runSteps depth steps s).2
        t.stuck = false → ∃ as, (initial 1).Each Action.Possible as ∧
          (initial 1).Each (fun w a => ¬ a.Revives w) as ∧ (initial 1).Each Action.Proper as ∧
          t.heap = (initial 1).performs as ∧ t.heap.queues = []) ∧
    (∀ (s : Session) (F : Hand) (name : String) (g : CollectorId), s.Owns F →
      s.collectors[name]? = some g → Owns { s with inUse := g :: s.inUse } (F.using g)) ∧
    ∀ depth collector source taken steps name s (F : Hand), ¬ F.alone →
      s.Owns (F.more taken.toList) → s.heap.Known →
      let result := initialise (runSteps depth) collector source taken steps name s
      result.2.2.Owns (F.more [result.2.1]) ∧ result.2.2.heap.Known := by
  refine ⟨?_, ?_, ?_, fun depth => ⟨honest_runSteps depth, keepsDrops_runSteps depth, ?_⟩, ?_, ?_, ?_⟩
  · intro n before a later g hpossible hspares hproper hb w hp hr
    have hl := legal_iff.mpr ⟨hpossible, hspares⟩
    rw [legal_append] at hl
    rw [each_append] at hproper
    rw [performs_append] at hb
    exact passRun_of_legal (known_of_legal hl.1) ((numbered_initial n).performs before) hl.2
      hproper.2 hb hp hr
  · intro run s F g hrun hdrops ho hg hk hstate done hs hb
    exact cleanup_releases hrun hdrops ho hg hk hstate hs hb
  · intro α run init s t F g x hrun hdrops hinit ho hg hk hdue hx v done hs hb
    have hregister : done = (t.register run g x).2 := congrArg Prod.snd (createFrom_eq hinit)
    rw [hregister] at hs hb ⊢
    exact register_releases hrun hdrops ho hg hk hdue hx hs hb
  · intro steps s F hF ho hk
    exact (honest_runSteps depth steps s F fun h => absurd h hF).known ho hk
  · intro name spec s
    obtain ⟨as, hstart⟩ := runSteps_ran 0 [] name spec
    have hs : s.heap = (initial 1).performs as := hstart.heap
    refine ⟨owns_start name spec False, hs ▸ known_of_legal hstart.legal, fun depth steps => ?_⟩
    intro t hstuck
    obtain ⟨bs, hran⟩ := runSteps_ran depth steps name spec
    obtain ⟨horderly, hqueues⟩ := hran.orderly hstuck
    obtain ⟨hpossible, hspares⟩ := legal_iff.mp hran.legal
    exact ⟨bs, hpossible, hspares, horderly.imp fun _ _ ha => ha.proper, hran.heap, hqueues⟩
  · intro s F name g ho hname
    exact (goes_using (fun hs => (ho.inOrder hs).named_lt name g hname) ho).2.1
  · intro depth collector source taken steps name s F hF ho hk result
    have hinit : Goes s (F.more taken.toList) result.2.2 (F.more [result.2.1]) :=
      goes_initialise (honest_runSteps depth) collector taken name s (fun h => absurd h hF)
        fun h => absurd h hF
    exact hinit.known ho hk

/-- Two probes are swept. The hook of the first looks for the second, whose slot still waits, and
collects again, and the pass within is counted before the one around it. The same happens when a
creation sweeps the probes. -/
theorem released_in_order_of_nested :
    let x : Holder := ⟨.fresh 0, .whole⟩
    let y : Holder := ⟨.fresh 1, .whole⟩
    let before : List Action := [.addCollector 3, .allocate .probe, .clone x, .register 0 x,
      .allocate .probe, .clone y, .register 0 y, .drop x, .drop y]
    let later : List Action := [.release 0, .get 0 .probe y.handle, .cleanup 0, .close 1, .release 0,
      .close 0]
    let w := (initial 1).performs before
    let hook : List Step := [.mk "gc" (.get .probe (.raw y.handle) none), .mk "gc" .cleanup]
    let s := (runSteps 20 [.mk "gc" (.create (.fresh .probe hook) none (some "p")),
      .mk "gc" (.create (.fresh .probe []) none (some "q")), .mk "gc" (.drop "p"),
      .mk "gc" (.drop "q")] (.start "gc" (.withStep 3))).2
    let s' := { s with inUse := 0 :: s.inUse }
    let init := initialise (runSteps 20) "gc" (.fresh .node []) none [] none
    let t := (init s').2.2
    let z : Holder := ⟨.fresh 2, .whole⟩
    let cleaned := (s'.cleanup (runSteps 20) 0).2
    let created := (s'.createFrom (runSteps 20) 0 init).2.2
    (∃ stats, w.PassRun (.cleanup 0) 0 later [x, y] stats) ∧
      ((w.performs (.cleanup 0 :: later)).collector 0).counters = (2, 2) ∧
      cleaned.drops.map (fun | .mk name _ inner => (name, inner.length)) = [("p", 2), ("q", 0)] ∧
      (∃ swept stats reports u, Releases (runSteps 20) s' s'.heap.opened swept swept
        (.complete 0 stats) reports u ∧ cleaned = u.update (·.closeQueue s'.heap.opened)) ∧
      created.drops.map (fun | .mk name _ inner => (name, inner.length)) = [("p", 2), ("q", 0)] ∧
      ∃ swept stats reports u, ((t.heap.hold z).register 0 z).2.Registered 0 z.handle ∧
        Releases (runSteps 20) t t.heap.opened swept swept (.complete 0 stats) reports u ∧
        created = u.update (·.closeQueue t.heap.opened) := by
  intro x y before later w hook s s' init t z cleaned created
  obtain ⟨hpass, hcleanup, hcreation, hruns, hstart, huse, hinit⟩ := released_in_order
  obtain ⟨hhonest, hdrops, hsteps⟩ := hruns 20
  obtain ⟨swept, stats, hrun⟩ := hpass 1 before (.cleanup 0) later 0 (by decide +kernel)
    (by decide +kernel) (by decide +kernel) (by decide +kernel) ⟨rfl, by decide +kernel⟩ rfl
  have hwaiting : ((Action.cleanup 0).perform w).waiting w.opened = [x, y] := by decide +kernel
  have hswept : swept = [x, y] := hrun.sweeps.waiting_eq.symm.trans hwaiting
  have hcounted : ((w.performs (.cleanup 0 :: later)).collector 0).counters = (2, 2) := by
    decide +kernel
  have hcleaned : cleaned.drops.map (fun | .mk name _ inner => (name, inner.length)) =
      [("p", 2), ("q", 0)] := by decide +kernel
  have hcreated : created.drops.map (fun | .mk name _ inner => (name, inner.length)) =
      [("p", 2), ("q", 0)] := by decide +kernel
  have hname : s.collectors["gc"]? = some 0 := by decide +kernel
  have hstate : (s'.heap.collector 0).state ≠ .stopped := by decide +kernel
  have hfree : cleaned.stuck = false ∧ cleaned.heap.allocated < UInt64.size := by decide +kernel
  have hfree' : created.stuck = false ∧ created.heap.allocated < UInt64.size := by decide +kernel
  have hz : (init s').2.1 = z := by decide +kernel
  have hdue : t.heap.PassDue 0 := by
    rw [PassDue]
    decide +kernel
  have hnew : ¬ t.heap.Registered 0 z.handle := by
    rw [Registered]
    decide +kernel
  obtain ⟨howns, hknown, -⟩ := hstart "gc" (.withStep 3)
  have hready : s.Owns (.empty False) ∧ s.heap.Known := hsteps _ _ _ id howns hknown
  -- nothing else counts of the start
  clear_value s z
  have hs' : s'.Owns ((Hand.empty False).using 0) := huse s _ "gc" 0 hready.1 hname
  obtain ⟨ht, hkt⟩ := hinit 20 "gc" (.fresh .node []) none [] none s' ((Hand.empty False).using 0) id
    hs' hready.2
  obtain ⟨_, _, _, u, -, hreleases, hu⟩ := hcleanup (runSteps 20) s' ((Hand.empty False).using 0) 0
    hhonest hdrops hs' List.mem_cons_self hready.2 hstate hfree.1 hfree.2
  obtain ⟨_, _, _, u', -, hregistered, -, hreleases', hu'⟩ := hcreation _ (runSteps 20) init s' t
    ((Hand.empty False).using 0) 0 z hhonest hdrops (Prod.ext hz rfl) (hz ▸ ht) List.mem_cons_self
    hkt hdue hnew hfree'.1 hfree'.2
  exact ⟨⟨stats, hswept ▸ hrun⟩, hcounted, hcleaned, ⟨_, _, _, u, hreleases, hu⟩, hcreated, _, _, _,
    u', hregistered, hreleases', hu'⟩

/-- Two probes are swept. When the slot of the first goes out, its `Drop` clones the base and registers
it again. So the slot was not the last holder, and the hook of the second, whose slot is next, finds the
handle that the same pass swept. -/
theorem resolved_by_later_hook :
    let x : Holder := ⟨.fresh 0, .whole⟩
    let y : Holder := ⟨.fresh 1, .whole⟩
    let base : Holder := ⟨.fresh 0, .base⟩
    let before : List Action := [.addCollector 3, .allocate .probe, .clone x, .register 0 x,
      .allocate .probe, .clone y, .register 0 y, .drop x, .drop y]
    let revival : List Action := [.clone base, .clone base, .register 0 base, .drop base, .release 0]
    let w := (initial 1).performs before
    let v := ((Action.cleanup 0).perform w).performs revival
    (initial 1).Each Action.Possible (before ++ .cleanup 0 :: revival) ∧
      (initial 1).Each Action.Proper (before ++ .cleanup 0 :: revival) ∧
      v.allocated < UInt64.size ∧ (Action.cleanup 0).PassesOver w 0 ∧
      ((Action.cleanup 0).perform w).waiting w.opened = [x, y] ∧
      v.waiting w.opened = [y] ∧ v.holderCount x.handle = 1 ∧ v.lookupBase 0 x.handle = some base ∧
      ¬ ∃ swept stats, w.PassRun (.cleanup 0) 0 revival swept stats := by
  intro x y base before revival w v
  have hpossible : (initial 1).Each Action.Possible (before ++ .cleanup 0 :: revival) := by
    decide +kernel
  have hproper : (initial 1).Each Action.Proper (before ++ .cleanup 0 :: revival) := by
    decide +kernel
  have hb : v.allocated < UInt64.size := by decide +kernel
  have hstate : (w.collector 0).state ≠ .stopped := by decide +kernel
  have hwaiting : ((Action.cleanup 0).perform w).waiting w.opened = [x, y] := by decide +kernel
  have hnext : v.waiting w.opened = [y] := by decide +kernel
  have hcount : v.holderCount x.handle = 1 := by decide +kernel
  have hfound : v.lookupBase 0 x.handle = some base := by decide +kernel
  have hv : ((Action.cleanup 0).perform w).performs revival = v := rfl
  -- the states count by what was found out about them only
  clear_value v w
  refine ⟨hpossible, hproper, hb, ⟨rfl, hstate⟩, hwaiting, hnext, hcount, hfound, ?_⟩
  rintro ⟨swept, stats, hrun⟩
  have hx : x ∈ swept := by
    rw [← hrun.sweeps.waiting_eq, hwaiting]
    exact List.mem_cons_self
  obtain ⟨-, -, hnone⟩ := hrun.unresolved revival List.prefix_rfl x hx 0 .probe
  rw [hv, hfound] at hnone
  cases hnone

end Session

end Program

end SharedHeap
