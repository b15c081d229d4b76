import SharedHeap.Proofs.Departure
import SharedHeap.Proofs.Locks
import SharedHeap.Proofs.Refusal

/-! # In which order slots are released

A pass takes its slots out in ascending order of their handles, and they wait in that order in a queue
of their own. Each of them was the last holder of its object, so each release destroys one object, and
until its turn comes the object has no other holder and nobody can get at it. The pass is counted when
the queue is closed, after the last release. -/

namespace SharedHeap

/-- The slots of a registry are in the order of their handles. -/
theorem Registry.ascending_holders (r : Registry) :
    r.holders.Pairwise fun x y => x.handle.raw < y.handle.raw := by
  refine List.pairwise_map.mpr (Std.ExtTreeMap.ordered_keys_toList.imp fun {a b} hab => ?_)
  exact (Handle.compare_eq_lt_iff a.1 b.1).mp hab

/-- The pass over `g` that an action counts. -/
def Action.counts? (g : CollectorId) (w : Heap) : Action → Option PassStats
  | close q => (w.queue? q).bind (·.pass? g)
  | _ => none

/-! ## What a `Drop` has in hand -/

/-- The slot of `h` is the next that goes out of some queue, and it holds the whole object. When it goes,
the `Drop` of the object runs first, and the slot is its holder still. -/
def Heap.Dying (w : Heap) (h : Handle) : Prop :=
  ∃ p ∈ w.queues, p.waiting.head? = some ⟨h, .whole⟩

instance (w : Heap) (h : Handle) : Decidable (w.Dying h) := by
  unfold Heap.Dying
  infer_instance

namespace Action

/-- The holder that an action makes a clone of. -/
def clones? : Action → Option Holder
  | clone x => some x
  | _ => none

/-- An object is cloned of which nothing is to be had but the slot that is dying: its own `Drop` does
that. -/
def Revives (w : Heap) (a : Action) : Prop :=
  ∃ x ∈ a.clones?, w.Dying x.handle ∧ ¬ w.Cloneable x

/-- Somebody can do this: who has what it takes, or the `Drop` of a dying object. -/
def Possible (w : Heap) (a : Action) : Prop := a.Enabled w ∨ a.Revives w

instance (w : Heap) (a : Action) : Decidable (a.Revives w) := by
  unfold Revives
  infer_instance

instance (w : Heap) (a : Action) : Decidable (a.Possible w) := by
  unfold Possible
  infer_instance

end Action

section

variable {w : Heap} {g : CollectorId} {a : Action}

theorem Action.PassesOver.ne_close (hp : a.PassesOver w g) (q : QueueId) : a ≠ .close q := by
  rintro rfl
  exact hp

theorem Action.PassesOver.lock?_eq (hp : a.PassesOver w g) : a.lock? = some g := by
  cases a with
  | register g' x | cleanup g' => exact congrArg some hp.1
  | _ => exact hp.elim

end

namespace Heap

variable {w v u : Heap} {a : Action} {as : List Action} {g : CollectorId} {h : Handle}
  {x : Holder} {q : QueueId} {xs swept : List Holder} {stats : PassStats} {after : Afterwards}
  {c : Collector}

/-! ## What a pass takes out -/

/-- From `w` to `v` a pass over `g` takes these slots out, in ascending order. They wait in a queue with
the next number, at whose end the pass is counted. -/
structure Sweeps (w v : Heap) (g : CollectorId) (swept : List Holder) (stats : PassStats) :
    Prop where
  queues : v.queues = ⟨w.opened, swept, .complete g stats⟩ :: w.queues
  ascending : swept.Pairwise fun x y => x.handle.raw < y.handle.raw
  mem_iff : ∀ x, x ∈ swept ↔ w.slot? g x.handle = some x ∧ ¬ v.Registered g x.handle
  length : stats.swept = swept.length

theorem Sweeps.waiting_eq (hs : w.Sweeps v g swept stats) : v.waiting w.opened = swept :=
  waiting_head hs.queues

theorem ascending_swept (hc : w.collectors[g]? = some c) :
    (w.runPass g).1.2.Pairwise fun x y => x.handle.raw < y.handle.raw := by
  obtain ⟨keep, -, hswept, -⟩ := collector_runPass hc
  rw [hswept]
  exact c.registry.ascending_holders.filter _

theorem sweeps_cleanup (hc : w.collectors[g]? = some c) (hs : c.state ≠ .stopped) :
    w.Sweeps (w.beginCleanup g).2 g (w.runPass g).1.2 (w.runPass g).1.1 := by
  rw [beginCleanup_of_ne hc hs]
  refine ⟨rfl, ascending_swept hc, fun x => ?_, (stats_runPass hc).2.2.1⟩
  rw [mem_swept_iff hc, ← registered_runPass hc]
  rfl

/-- A due pass goes before the registration, which is over before any of its slots is released. -/
theorem sweeps_register (hc : w.collectors[g]? = some c) (hd : w.PassDue g)
    (hx : 0 < w.held.count x) (hr : ¬ w.Registered g x.handle) :
    ∃ stats, w.Sweeps (w.register g x).2 g (w.dueSwept g) stats ∧
      (w.register g x).2.Registered g x.handle ∧
      ((w.register g x).2.collector g).pending = 1 := by
  have hg : g < w.collectors.length := (List.getElem?_eq_some_iff.mp hc).1
  have hacc := isAccepted_of_unregistered hg hx hr
  have hslot : ((w.duePass g).2.insertSlot g x).1 = none := by
    cases hslot : ((w.duePass g).2.insertSlot g x).1 with
    | none => rfl
    | some y =>
      rw [register_eq, hslot] at hacc
      cases hacc
  -- the pass is one over the heap in which it was reported to be due
  obtain ⟨v, hv, hlive, hslots, hrun⟩ : ∃ v : Heap, v.collectors = w.collectors ∧
      (∀ k, v.Live g k ↔ w.Live g k) ∧ (∀ k, v.slot? g k = w.slot? g k) ∧
      w.duePass g = (some (v.runPass g).1, (v.runPass g).2) :=
    ⟨w.emit _, rfl, live_emit w _ g, fun _ => rfl, duePass_of_due hd⟩
  have hc' : v.collectors[g]? = some c := by rw [hv, hc]
  have hswept : w.dueSwept g = (v.runPass g).1.2 := by
    rw [dueSwept, hrun]
    rfl
  have hregistered := registered_register hc x
  refine ⟨(v.runPass g).1.1, ⟨?_, ?_, fun y => ?_, ?_⟩, (hregistered _).mpr (.inl rfl), ?_⟩
  · obtain ⟨-, -, -, hq, -, ho, -⟩ := duePass_frame w g
    rw [register_eq, hslot, hswept, ← hq, ← ho, hrun]
    rfl
  · rw [hswept]
    exact ascending_swept hc'
  · have hy : y ∈ w.dueSwept g ↔ w.slot? g y.handle = some y ∧ ¬ w.Live g y.handle := by
      rw [hswept, mem_swept_iff hc', hslots, hlive]
    rw [hy, hregistered, not_or, not_and]
    constructor
    · rintro ⟨hslot, hl⟩
      have hyr := registered_of_slot? hslot
      exact ⟨hslot, fun he => hr (he ▸ hyr), fun _ hl' => hl (hl' hd)⟩
    · rintro ⟨hslot, -, hl⟩
      exact ⟨hslot, fun hl' => hl (registered_of_slot? hslot) fun _ => hl'⟩
  · rw [hswept]
    exact (stats_runPass hc').2.2.1
  · obtain ⟨keep, -, -, hpass⟩ := collector_runPass hc'
    have hcol := (collector_register hg x).2
    rw [hacc, if_pos rfl, hrun] at hcol
    rw [hcol]
    show Collector.pending (collector _ g) + 1 = 1
    rw [collector_eq hpass]

/-- What an action does that runs a pass, unless it is a registration that is refused. -/
theorem sweeps_perform (hg : g < w.collectors.length) (he : a.Enabled w) (hp : a.PassesOver w g)
    (hr : a.refuses w g = false) :
    ∃ swept stats, w.Sweeps (a.perform w) g swept stats ∧
      ∀ x, a = .register g x →
        (a.perform w).Registered g x.handle ∧ ((a.perform w).collector g).pending = 1 := by
  have hc := List.getElem?_eq_getElem hg
  cases a with
  | register g' x =>
    obtain ⟨rfl, hd⟩ := hp
    have hx : 0 < w.held.count x := Nat.lt_of_lt_of_le Nat.two_pos he
    have hnew : ¬ w.Registered g' x.handle := by
      rw [← isAccepted_register hg hx]
      simpa [Action.refuses] using hr
    obtain ⟨stats, hsweeps, hdone⟩ := sweeps_register hc hd hx hnew
    refine ⟨_, stats, hsweeps, fun y hy => ?_⟩
    obtain ⟨-, rfl⟩ := Action.register.inj hy
    exact hdone
  | cleanup g' =>
    obtain ⟨rfl, hs⟩ := hp
    exact ⟨_, _, sweeps_cleanup hc (collector_eq hc ▸ hs), fun _ he => by cases he⟩
  | _ => exact hp.elim

/-! ## What waits in one queue only -/

/-- Nobody can get at a holder of `h` any more, and only in the queue `q` slots of `h` may wait. -/
structure Leaving (w : Heap) (q : QueueId) (h : Handle) : Prop where
  spent : w.Spent h
  only : ∀ p ∈ w.queues, p.id ≠ q → ∀ x ∈ p.waiting, x.handle ≠ h

theorem Leaving.perform (hh : w.Leaving q h) (he : a.Enabled w)
    (hb : (a.perform w).allocated < UInt64.size) : (a.perform w).Leaving q h := by
  refine ⟨hh.spent.of_perform he hb, fun p hp hne x hx hxh => ?_⟩
  rcases waits_of_perform he hp hx with ⟨p', hp', hid, hx⟩ | ho
  · exact hh.only p' hp' (hid ▸ hne) x hx hxh
  · exact hh.spent.1 (hxh ▸ ho)

theorem Leaving.performs (hh : w.Leaving q h) (hl : w.Legal as)
    (hb : (w.performs as).allocated < UInt64.size) : (w.performs as).Leaving q h := by
  induction as generalizing w with
  | nil => exact hh
  | cons a as ih =>
    have hle := allocated_le_performs (a.perform w) as
    exact ih (hh.perform hl.1 (Nat.lt_of_le_of_lt hle hb)) hl.2 hb

/-- All holders of what leaves wait in its queue. -/
theorem Leaving.holderCount_eq (hh : w.Leaving q h) (hn : w.Numbered)
    (hq : w.queue? q = some ⟨q, xs, after⟩) :
    w.holderCount h = xs.countP (·.sameObject h) := by
  obtain ⟨⟨ho, -⟩, honly⟩ := hh
  have hheld : w.heldCount h = 0 := Nat.eq_zero_of_not_pos fun hpos => ho (.inl hpos)
  have hslots : w.slotCount h = 0 := by
    have hcollectors : w.collectors.countP (fun c => c.registry.contains h) = 0 := by
      refine List.countP_eq_zero.mpr fun c hc hreg => ho (.inr (.inl ?_))
      obtain ⟨g, hg⟩ := List.mem_iff_getElem?.mp hc
      exact ⟨g, registered_iff_getElem?.mpr ⟨c, hg, hreg⟩⟩
    have hbare : w.registries.countP (fun r => r.contains h) = 0 :=
      List.countP_eq_zero.mpr fun r hr hreg => ho (.inr (.inr ⟨r, hr, hreg⟩))
    rw [slotCount, hcollectors, hbare]
  have hwaiting : w.waitingCount h = xs.countP (·.sameObject h) := by
    have hperm := hn.perm_filter (List.mem_of_find?_eq_some hq)
    have hothers : ((w.queues.filter (·.id != q)).flatMap (·.waiting)).countP
        (·.sameObject h) = 0 := by
      refine List.countP_eq_zero.mpr fun x hx hxh => ?_
      obtain ⟨p, hp, hx⟩ := List.mem_flatMap.mp hx
      obtain ⟨hp, hid⟩ := List.mem_filter.mp hp
      exact honly p hp (by simpa using hid) x hx (of_decide_eq_true hxh)
    rw [waitingCount, (hperm.flatMap_right _).countP_eq, List.flatMap_cons, List.countP_append,
      hothers, Nat.add_zero]
  rw [holderCount, hheld, hslots, hwaiting]
  omega

/-- What a pass takes out waits in its queue only. -/
theorem leaving_of_swept (hk : w.Known) (hp : a.PassesOver w g)
    (hs : w.Sweeps (a.perform w) g swept stats) (hx : x ∈ swept) :
    (a.perform w).Leaving w.opened x.handle := by
  obtain ⟨hslot, hn⟩ := (hs.mem_iff x).mp hx
  have hr := registered_of_slot? hslot
  have hh : ¬ w.HeldElsewhere g x.handle := by
    rcases departure hr hn with rfl | ⟨-, hh⟩
    · exact hp.elim
    · exact hh
  refine ⟨spent_of_departure hk hr hp hh hn, fun p hp' hid y hy hyx => ?_⟩
  rw [hs.queues] at hp'
  rcases List.mem_cons.mp hp' with rfl | hp'
  · exact hid rfl
  · exact hh (.inr (.inr (.inr ⟨p, hp', y, hy, hyx⟩)))

/-- No collector has `h`, and none resolves it. -/
def Unresolved (w : Heap) (h : Handle) : Prop :=
  ∀ g kind, ¬ w.Registered g h ∧ w.lookup g kind h = none ∧ w.lookupBase g h = none

/-! ## Releases -/

/-- Until a queue is closed, its slots are released one after the other. -/
theorem Numbered.queue?_perform (hn : w.Numbered) (hq : w.queue? q = some ⟨q, xs, after⟩)
    (hc : a ≠ .close q) :
    (a.perform w).queue? q =
      some ⟨q, xs.drop (if a.releases? = some q then 1 else 0), after⟩ := by
  have hp : ⟨q, xs, after⟩ ∈ w.queues := List.mem_of_find?_eq_some hq
  by_cases hr : a = .release q
  · subst hr
    have hp : ⟨q, xs.tail, after⟩ ∈ (w.releaseNext q).queues :=
      List.mem_map.mpr ⟨_, hp, by simp⟩
    rw [show (Action.release q).releases? = some q from rfl, if_pos rfl, List.drop_one]
    exact (hn.releaseNext q).queue?_eq hp
  · have hnone : a.releases? ≠ some q := by
      intro h
      cases a with
      | release q' => exact hr (congrArg Action.release (Option.some.inj h))
      | _ => cases h
    rw [if_neg hnone]
    exact (hn.perform a).queue?_eq (mem_queues_perform hp hr hc)

theorem Numbered.queue?_performs (hn : w.Numbered) (hq : w.queue? q = some ⟨q, xs, after⟩)
    (hc : .close q ∉ as) :
    (w.performs as).queue? q =
      some ⟨q, xs.drop (as.countP (·.releases? = some q)), after⟩ := by
  induction as generalizing w xs with
  | nil => exact hq
  | cons a as ih =>
    rw [List.mem_cons, not_or] at hc
    have hnext := ih (hn.perform a) (hn.queue?_perform hq (Ne.symm hc.1)) hc.2
    rw [Heap.performs, hnext, List.drop_drop, List.countP_cons, Nat.add_comm]
    simp only [decide_eq_true_eq]

theorem id_of_perform {p : ReleaseQueue} (hp : p ∈ (a.perform w).queues) :
    p.id = w.opened ∨ ∃ p' ∈ w.queues, p'.id = p.id := by
  obtain ⟨q, rfl⟩ | ⟨q, rfl⟩ | ⟨hr, hc⟩ := a.release_or_close
  · obtain ⟨f, hf, hid, -⟩ := queues_releaseNext w q
    rw [Action.perform, hf] at hp
    obtain ⟨p', hp', rfl⟩ := List.mem_map.mp hp
    exact .inr ⟨p', hp', (hid p').symm⟩
  · rw [Action.perform, (queues_closeQueue w q).1] at hp
    exact .inr ⟨p, List.mem_of_mem_filter hp, rfl⟩
  · obtain ⟨new, hnew, -⟩ := opens_perform (w := w) hr hc
    rw [hnew.queues] at hp
    rcases List.mem_append.mp hp with hp | hp
    · exact .inl (hnew.id_eq p (by simpa using hp))
    · exact .inr ⟨p, hp, rfl⟩

theorem opened_le_perform (w : Heap) (a : Action) : w.opened ≤ (a.perform w).opened := by
  obtain ⟨q, rfl⟩ | ⟨q, rfl⟩ | ⟨hr, hc⟩ := a.release_or_close
  · exact Nat.le_refl _
  · exact Nat.le_of_eq (queues_closeQueue w q).2.symm
  · obtain ⟨new, hnew, -⟩ := opens_perform (w := w) hr hc
    exact hnew.opened ▸ Nat.le_add_right _ _

theorem opened_le_performs (w : Heap) (as : List Action) : w.opened ≤ (w.performs as).opened := by
  induction as generalizing w with
  | nil => exact Nat.le_refl _
  | cons a as ih => exact Nat.le_trans (opened_le_perform w a) (ih (a.perform w))

/-- Nothing is added to a queue once it is opened. -/
theorem Numbered.waiting_perform (hn : w.Numbered) (hq : q < w.opened) (a : Action) :
    (a.perform w).waiting q <:+ w.waiting q := by
  cases hp : (a.perform w).queue? q with
  | none =>
    rw [waiting, hp]
    exact List.nil_suffix
  | some p =>
    have hid : p.id = q := by simpa using List.find?_some hp
    rcases id_of_perform (List.mem_of_find?_eq_some hp) with he | ⟨p', hp', he⟩
    · exact absurd (hid.symm.trans he) (Nat.ne_of_lt hq)
    · obtain ⟨id, xs, after⟩ := p'
      obtain rfl : id = q := he.trans hid
      have hbefore : w.queue? id = some ⟨id, xs, after⟩ := hn.queue?_eq hp'
      have hc : a ≠ .close id := by
        rintro rfl
        have hmem := List.mem_of_find?_eq_some hp
        rw [Action.perform, (queues_closeQueue w id).1] at hmem
        simp [hid] at hmem
      rw [waiting, waiting, hn.queue?_perform hbefore hc, hbefore]
      exact List.drop_suffix _ _

theorem Numbered.waiting_performs (hn : w.Numbered) (hq : q < w.opened) (as : List Action) :
    (w.performs as).waiting q <:+ w.waiting q := by
  induction as generalizing w with
  | nil => exact List.suffix_refl _
  | cons a as ih =>
    have hq' := Nat.lt_of_lt_of_le hq (opened_le_perform w a)
    exact (ih (hn.perform a) hq').trans (hn.waiting_perform hq a)

theorem mem_queue_of_waiting (hx : x ∈ w.waiting q) : ∃ p ∈ w.queues, x ∈ p.waiting := by
  unfold waiting at hx
  cases hp : w.queue? q with
  | none => simp [hp] at hx
  | some p =>
    rw [hp] at hx
    exact ⟨p, List.mem_of_find?_eq_some hp, hx⟩

theorem wholeCount_pos_of_waiting (hx : ⟨h, .whole⟩ ∈ w.waiting q) : 0 < w.wholeCount h := by
  obtain ⟨p, hp, hx⟩ := mem_queue_of_waiting hx
  exact Nat.add_pos_right _ (List.count_pos_iff.mpr (List.mem_flatMap.mpr ⟨p, hp, hx⟩))

theorem wholeCount_le_holderCount (w : Heap) (h : Handle) : w.wholeCount h ≤ w.holderCount h := by
  have hslot : ∀ r : Registry, (r.slot? h == some ⟨h, .whole⟩) = true → r.contains h = true := by
    intro r hr
    rw [← Registry.isSome_slot?, eq_of_beq hr]
    rfl
  have hcollectors := List.countP_mono_left (l := w.collectors)
    fun c _ hc => hslot c.registry hc
  have hbare := List.countP_mono_left (l := w.registries) fun r _ hr => hslot r hr
  have hwaiting : (w.queues.flatMap (·.waiting)).count ⟨h, .whole⟩ ≤
      (w.queues.flatMap (·.waiting)).countP (·.sameObject h) := by
    refine List.countP_mono_left fun x _ hx => ?_
    rw [eq_of_beq hx]
    exact decide_eq_true rfl
  unfold wholeCount holderCount heldCount slotCount waitingCount
  omega

/-- Of the slots that a pass swept, the first `k` are released and their objects are gone. The others
wait in the queue, each the last holder of its object. -/
structure Releasing (w : Heap) (q : QueueId) (swept : List Holder) (after : Afterwards) (k : Nat) :
    Prop where
  queue : w.queue? q = some ⟨q, swept.drop k, after⟩
  released : ∀ x ∈ swept.take k, w.holderCount x.handle = 0
  waiting : ∀ x ∈ swept.drop k, w.holderCount x.handle = 1

theorem countP_sameObject (xs : List Holder) (h : Handle) :
    xs.countP (·.sameObject h) = (xs.map Holder.handle).count h := by
  rw [List.count_eq_countP, List.countP_map]
  rfl

theorem Releasing.of_leaving {k : Nat} (hn : w.Numbered)
    (hq : w.queue? q = some ⟨q, swept.drop k, after⟩)
    (hs : swept.Pairwise fun x y => x.handle.raw < y.handle.raw)
    (hl : ∀ x ∈ swept, w.Leaving q x.handle) : w.Releasing q swept after k := by
  have hnodup : ((swept.take k).map Holder.handle ++ (swept.drop k).map Holder.handle).Nodup := by
    rw [← List.map_append, List.take_append_drop]
    refine List.pairwise_map.mpr (hs.imp fun {x y} hlt he => ?_)
    rw [he] at hlt
    exact absurd hlt (UInt64.lt_irrefl _)
  obtain ⟨-, hdrop, hapart⟩ := List.nodup_append.mp hnodup
  refine ⟨hq, fun x hx => ?_, fun x hx => ?_⟩
  · rw [(hl x (List.mem_of_mem_take hx)).holderCount_eq hn hq, countP_sameObject]
    refine List.count_eq_zero.mpr fun hx' => ?_
    exact hapart _ (List.mem_map_of_mem hx) _ hx' rfl
  · rw [(hl x (List.mem_of_mem_drop hx)).holderCount_eq hn hq, countP_sameObject]
    rw [hdrop.count, if_pos (List.mem_map_of_mem hx)]

/-! ## Counting -/

/-- What is counted of a collector is what was counted before and each pass whose queue is closed. -/
theorem counters_performs (hg : g < w.collectors.length) (as : List Action) :
    let counted := w.gather (Action.counts? g) as
    ((w.performs as).collector g).counters =
      ((w.collector g).collectionsRun + counted.length,
        (w.collector g).objectsSwept + sweptBy counted) := by
  induction as generalizing w with
  | nil => rfl
  | cons a as ih =>
    have hstep : ((a.perform w).collector g).counters =
        ((w.collector g).collectionsRun + (a.counts? g w).toList.length,
          (w.collector g).objectsSwept + sweptBy (a.counts? g w).toList) := by
      cases a with
      | close q => exact counters_closeQueue fun _ => hg
      | _ => exact counters_perform (fun _ he => by cases he) g
    obtain ⟨hruns, hswept⟩ := Prod.mk.inj hstep
    have hrest := ih (Nat.lt_of_lt_of_le hg (length_perform_le w a))
    dsimp only at hrest hruns hswept ⊢
    rw [performs, hrest, gather, List.length_append, sweptBy_append, hruns, hswept]
    refine Prod.ext ?_ ?_ <;> dsimp only <;> omega

/-! ## Over a whole run -/

/-- Legal is what is possible as long as no `Drop` clones the object that it is about. -/
theorem legal_iff : w.Legal as ↔
    w.Each Action.Possible as ∧ w.Each (fun w a => ¬ a.Revives w) as := by
  induction as generalizing w with
  | nil => exact ⟨fun _ => ⟨trivial, trivial⟩, fun _ => trivial⟩
  | cons a as ih =>
    have hnever : a.Enabled w → ¬ a.Revives w := by
      rintro he ⟨x, hx, -, hn⟩
      cases a with
      | clone y =>
        obtain rfl : y = x := Option.some.inj hx
        exact hn he
      | _ => cases hx
    constructor
    · rintro ⟨he, hl⟩
      exact ⟨⟨.inl he, (ih.mp hl).1⟩, hnever he, (ih.mp hl).2⟩
    · rintro ⟨⟨hp, hps⟩, hn, hns⟩
      exact ⟨hp.resolve_right hn, ih.mpr ⟨hps, hns⟩⟩

/-- What becomes of the pass over `g` that `a` runs in `w`, while `later` is done. -/
structure PassRun (w : Heap) (a : Action) (g : CollectorId) (later : List Action)
    (swept : List Holder) (stats : PassStats) : Prop where
  sweeps : w.Sweeps (a.perform w) g swept stats
  /-- A creation that runs the pass has registered its object and counted it as pending. -/
  registers : ∀ x, a = .register g x →
    (a.perform w).Registered g x.handle ∧ ((a.perform w).collector g).pending = 1
  /-- Whatever is done, in hooks or elsewhere, nothing swept is ever resolved. -/
  unresolved : ∀ p, p <+: later → ∀ x ∈ swept, ((a.perform w).performs p).Unresolved x.handle
  /-- The slots are released one after the other, and each release destroys its object. -/
  releasing : ∀ p, p <+: later → .close w.opened ∉ p → ((a.perform w).performs p).Releasing w.opened
    swept (.complete g stats) (p.countP (·.releases? = some w.opened))
  /-- Meanwhile other passes are counted, and this one is not. -/
  counters : ∀ p, p <+: later → .close w.opened ∉ p →
    let others := (a.perform w).gather (Action.counts? g) p
    (((a.perform w).performs p).collector g).counters =
      ((w.collector g).collectionsRun + others.length,
        (w.collector g).objectsSwept + sweptBy others)
  /-- It is counted once all its slots are released. -/
  counted : ∀ p rest, later = p ++ .close w.opened :: rest → .close w.opened ∉ p →
    let v := (a.perform w).performs p
    swept.length ≤ p.countP (·.releases? = some w.opened) ∧
      ((v.closeQueue w.opened).collector g).counters =
        ((v.collector g).collectionsRun + 1, (v.collector g).objectsSwept + stats.swept)
  /-- When nothing is left to do, it was counted. -/
  closed : ((a.perform w).performs later).queues = [] → .close w.opened ∈ later

theorem passRun_of_legal {later : List Action} (hk : w.Known) (hn : w.Numbered)
    (hl : w.Legal (a :: later)) (hproper : w.Each Action.Proper (a :: later))
    (hb : (w.performs (a :: later)).allocated < UInt64.size) (hp : a.PassesOver w g)
    (hr : a.refuses w g = false) : ∃ swept stats, w.PassRun a g later swept stats := by
  obtain ⟨he, hlater⟩ := hl
  obtain ⟨⟨hfree, -⟩, hproper⟩ := hproper
  have hg : g < w.collectors.length := (hfree g hp.lock?_eq).1
  obtain ⟨swept, stats, hsweeps, hregisters⟩ := sweeps_perform hg he hp hr
  have hleaving : ∀ p, p <+: later → ∀ x ∈ swept,
      ((a.perform w).performs p).Leaving w.opened x.handle := by
    rintro p ⟨rest, rfl⟩ x hx
    refine (leaving_of_swept hk hp hsweeps hx).performs ((legal_append _ p rest).mp hlater).1 ?_
    refine Nat.lt_of_le_of_lt (allocated_le_performs _ rest) ?_
    rwa [← performs_append]
  have hqueue : ∀ p, .close w.opened ∉ p → ((a.perform w).performs p).queue? w.opened =
      some ⟨w.opened, swept.drop (p.countP (·.releases? = some w.opened)), .complete g stats⟩ :=
    fun p hc => (hn.perform a).queue?_performs (queue?_head hsweeps.queues) hc
  have hreleasing : ∀ p, p <+: later → .close w.opened ∉ p →
      ((a.perform w).performs p).Releasing w.opened swept (.complete g stats)
        (p.countP (·.releases? = some w.opened)) := fun p hprefix hc =>
    .of_leaving ((hn.perform a).performs p) (hqueue p hc) hsweeps.ascending (hleaving p hprefix)
  refine ⟨swept, stats, hsweeps, hregisters, fun p hprefix x hx =>
    (hleaving p hprefix x hx).spent.not_resolved, hreleasing, fun p hprefix hc => ?_, ?_, ?_⟩
  · have hg' : g < (a.perform w).collectors.length :=
      Nat.lt_of_lt_of_le hg (length_perform_le w a)
    obtain ⟨hruns, hobjects⟩ := Prod.mk.inj (counters_perform (w := w) hp.ne_close g)
    exact hruns ▸ hobjects ▸ counters_performs hg' p
  · rintro p rest rfl hc
    have hempty := ((each_append.mp hproper).2.1.2 w.opened rfl)
    have hg' : g < ((a.perform w).performs p).collectors.length :=
      Nat.lt_of_lt_of_le hg (Nat.le_trans (length_perform_le w a) (length_le_performs _ p))
    have hpass : (((a.perform w).performs p).queue? w.opened).bind (·.pass? g) = some stats := by
      rw [hqueue p hc]
      simp [ReleaseQueue.pass?]
    constructor
    · rw [waiting, hqueue p hc] at hempty
      exact List.drop_eq_nil_iff.mp hempty
    · have hcounters := counters_closeQueue (q := w.opened) fun _ => hg'
      rw [hpass] at hcounters
      simpa [sweptBy] using hcounters
  · intro hempty
    by_contra hc
    have hq := List.mem_of_find?_eq_some (hqueue later hc)
    rw [hempty] at hq
    cases hq

end Heap

end SharedHeap
