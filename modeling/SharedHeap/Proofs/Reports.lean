import SharedHeap.Proofs.Locks
import Mathlib.Data.List.Nodup
import Mathlib.Algebra.BigOperators.Group.Finset.Basic

/-! # What passes report

A pass reports its start, the links that it ignores, what it marked and what it swept, all in one
critical section; that it is complete, it reports much later, when its queue is closed. In between come
the hooks of the swept objects and whatever passes they run. In the run of a single thread the queues
are closed in the opposite order in which they were opened, so the reports are bracketed like them. -/

namespace SharedHeap

open Heap Program

/-- What a pass tells: the collector that it is about, its statistics, and the handles of the links
that it ignored, the latest first. -/
structure PassReport where
  collector : CollectorId
  stats : PassStats
  ignored : List Handle

namespace PassReport

/-- What is reported while the pass goes on, the latest first. -/
def events (r : PassReport) : List Event :=
  .passSwept r.stats.swept :: .passMarked r.stats.reachable ::
    (r.ignored.map .danglingLink ++ [.passStarted r.stats.examined])

/-- What is reported when the pass is counted. -/
def completion (r : PassReport) : Event := .passComplete r.stats.swept r.stats.reachable

/-- What is counted then, and for which collector. -/
def counted (r : PassReport) : CollectorId × PassStats := (r.collector, r.stats)

/-- The report is what a pass finds that starts in `w`: how many objects are registered, how many of
them are live, and each link of a live object to a handle that is not registered. -/
structure Truthful (r : PassReport) (w : Heap) : Prop where
  examined : r.stats.examined = (w.collector r.collector).registry.size
  reachable : ∃ live : List Handle, live.Nodup ∧ (∀ h, h ∈ live ↔ w.Live r.collector h) ∧
    r.stats.reachable = live.length
  examined_eq : r.stats.examined = r.stats.reachable + r.stats.swept
  ignored : ∃ pairs : List (Handle × Handle), pairs.Nodup ∧
    (∀ a b, (a, b) ∈ pairs ↔
      w.Live r.collector a ∧ b ∈ w.linked a ∧ ¬ w.Registered r.collector b) ∧
    r.ignored = pairs.map (·.2)

end PassReport

/-- Events, the latest first, that are about the passes in the first list, the latest first, of which
those in the second list are not complete. What a pass reports while it goes on comes without a break,
and the pass that is complete next is the latest of those that are not. -/
inductive Bracketed : List Event → List PassReport → List PassReport → Prop where
  | nil : Bracketed [] [] []
  | other {es rs os} (e : Event) : e.ofPass = false → Bracketed es rs os → Bracketed (e :: es) rs os
  | pass {es rs os} (r : PassReport) : Bracketed es rs os →
      Bracketed (r.events ++ es) (r :: rs) (r :: os)
  | complete {es rs os} (r : PassReport) : Bracketed es rs (r :: os) →
      Bracketed (r.completion :: es) rs os

/-- The pass whose count ends a queue. -/
def ReleaseQueue.counts? (p : ReleaseQueue) : Option (CollectorId × PassStats) :=
  match p.afterwards with
  | .complete g stats => some (g, stats)
  | _ => none

namespace Heap

/-- What a pass over `g` tells. -/
def passReport (w : Heap) (g : CollectorId) : PassReport :=
  ⟨g, (w.runPass g).1.1, (w.markFrom (w.collector g).registry).dangling⟩

instance (w : Heap) (g : CollectorId) : Decidable (w.PassDue g) := by
  unfold PassDue
  infer_instance

end Heap

/-- What the pass tells that an action runs. -/
def Action.passReport? (w : Heap) : Action → Option PassReport
  | cleanup g => if (w.collector g).state = .stopped then none else some (w.passReport g)
  | register g _ => if w.PassDue g then some (w.passReport g) else none
  | _ => none

namespace Heap

/-- What the passes of some actions tell, the latest first. -/
def passReports (w : Heap) : List Action → List PassReport
  | [] => []
  | a :: as => (a.perform w).passReports as ++ (a.passReport? w).toList

variable {w v : Heap} {a : Action} {as : List Action} {g : CollectorId} {c : Collector}
  {r : PassReport} {rs os : List PassReport} {es : List Event} {p : ReleaseQueue} {q : QueueId}

/-! ## Each report is true -/

theorem nodup_linked (w : Heap) (h : Handle) : (w.linked h).Nodup :=
  (w.object h).links.nodup_members

/-- Each link that a marking ignored goes from a live object to a handle that is not registered. -/
theorem ignored_markFrom (hc : w.collectors[g]? = some c) :
    ∃ pairs : List (Handle × Handle), pairs.Nodup ∧
      (∀ a b, (a, b) ∈ pairs ↔ w.Live g a ∧ b ∈ w.linked a ∧ ¬ w.Registered g b) ∧
      (w.markFrom c.registry).dangling = pairs.map (·.2) := by
  obtain ⟨order, hnodup, hmem, hdangling⟩ : ∃ order, Marker.Ignores c.registry.contains w.linked
      (w.markFrom c.registry) order := by
    refine Marker.dangling_mark fun h hh => ?_
    exact (c.registry.mem_handles h).mp (List.mem_filter.mp hh).1
  refine ⟨order.flatMap fun a =>
    ((w.linked a).filter fun b => !c.registry.contains b).reverse.map (a, ·), ?_, fun a b => ?_, ?_⟩
  · refine List.nodup_flatMap.mpr ⟨fun a _ => ?_, hnodup.imp fun {a b} hne => ?_⟩
    · exact (List.nodup_reverse.mpr ((w.nodup_linked a).filter _)).map fun _ _ he =>
        (Prod.mk.inj he).2
    · intro pair ha hb
      obtain ⟨_, -, rfl⟩ := List.mem_map.mp ha
      obtain ⟨_, -, he⟩ := List.mem_map.mp hb
      exact hne (Prod.mk.inj he).1.symm
  · have hlive : a ∈ order ↔ w.Live g a := by
      rw [hmem, ← marked_markFrom hc, Marker.marked, beq_iff_eq]
    simp [hlive, Registered, collector_eq hc]
  · rw [hdangling, List.map_flatMap]
    simp [List.map_map, Function.comp_def]

theorem truthful_passReport (hc : w.collectors[g]? = some c) : (w.passReport g).Truthful w := by
  obtain ⟨hexamined, -, -, hsum⟩ := stats_runPass hc
  have hreachable : (w.runPass g).1.1.reachable = (w.markFrom c.registry).markedCount := by
    rw [runPass_eq hc]
  refine ⟨?_, ⟨c.registry.handles.filter (w.markFrom c.registry).marked, ?_, fun h => ?_, ?_⟩, ?_, ?_⟩
  · exact hexamined.trans (by rw [passReport, collector_eq hc])
  · exact c.registry.nodup_handles.filter _
  · rw [List.mem_filter, marked_markFrom hc, Registry.mem_handles]
    refine and_iff_right_of_imp fun hl => ?_
    have hr := hl.registered
    have hr : (w.collector g).registry.contains h = true := hr
    rwa [collector_eq hc] at hr
  · exact hreachable.trans (markedCount_markFrom w c.registry)
  · exact hsum.symm.trans (Nat.add_comm _ _)
  · have hignored := ignored_markFrom hc
    rw [← collector_eq hc] at hignored
    exact hignored

theorem passReport?_eq (w : Heap) (a : Action) (hg : a.lock? = some g) :
    (a.passReport? w) = (a.pass? w g).map fun stats =>
      ⟨g, stats, (w.markFrom (w.collector g).registry).dangling⟩ := by
  cases a with
  | register g' x =>
    obtain rfl := Option.some.inj hg
    by_cases hd : w.PassDue g'
    · rw [Action.passReport?, if_pos hd, Action.pass?, if_pos rfl, duePass_of_due hd]
      rfl
    · rw [Action.passReport?, if_neg hd, Action.pass?, if_pos rfl, duePass_of_not_due hd]
      rfl
  | cleanup g' =>
    obtain rfl := Option.some.inj hg
    by_cases hs : (w.collector g').state = .stopped
    · rw [Action.passReport?, if_pos hs, Action.pass?, if_pos rfl, beginCleanup, if_pos hs]
      rfl
    · rw [Action.passReport?, if_neg hs, Action.pass?, if_pos rfl, beginCleanup, if_neg hs]
      rfl
  | _ => rfl

/-- There is a report iff there is a pass. -/
theorem isSome_passReport? (w : Heap) (a : Action) :
    (a.passReport? w).isSome = true ↔ ∃ g, a.PassesOver w g := by
  cases a with
  | register g x => by_cases hd : w.PassDue g <;> simp [Action.passReport?, Action.PassesOver, hd]
  | cleanup g =>
    by_cases hs : (w.collector g).state = .stopped <;>
      simp [Action.passReport?, Action.PassesOver, hs]
  | _ => simp [Action.passReport?, Action.PassesOver]

theorem lock?_of_passReport? (hr : r ∈ a.passReport? w) :
    a.lock? = some r.collector ∧ r = w.passReport r.collector := by
  cases a with
  | register g x =>
    obtain ⟨-, hr⟩ := Option.ite_none_right_eq_some.mp hr
    obtain rfl := Option.some.inj hr
    exact ⟨rfl, rfl⟩
  | cleanup g =>
    obtain ⟨-, hr⟩ := Option.ite_none_left_eq_some.mp hr
    obtain rfl := Option.some.inj hr
    exact ⟨rfl, rfl⟩
  | _ => cases hr

theorem lt_of_passReport? (ha : a.FindsFree w) (hr : r ∈ a.passReport? w) :
    r.collector < w.collectors.length :=
  (ha _ (lock?_of_passReport? hr).1).1

theorem truthful_of_passReport? (ha : a.FindsFree w) (hr : r ∈ a.passReport? w) :
    r.Truthful w := by
  rw [(lock?_of_passReport? hr).2]
  exact truthful_passReport (List.getElem?_eq_getElem (lt_of_passReport? ha hr))

/-! ## The passes that queues count -/

theorem pass?_eq_some_iff {stats : PassStats} :
    a.pass? w g = some stats ↔ ∃ r ∈ a.passReport? w, r.counted = (g, stats) := by
  by_cases hl : a.lock? = some g
  · rw [passReport?_eq w a hl]
    cases a.pass? w g <;> simp [PassReport.counted]
  · rw [Action.pass?_of_lock? w hl]
    constructor
    · intro h
      cases h
    · rintro ⟨r, hr, he⟩
      obtain ⟨rfl, -⟩ := Prod.mk.inj he
      exact absurd (lock?_of_passReport? hr).1 hl

theorem counts?_eq_some_iff {stats : PassStats} :
    p.counts? = some (g, stats) ↔ p.pass? g = some stats := by
  obtain ⟨id, waiting, after⟩ := p
  cases after <;> simp [ReleaseQueue.counts?, ReleaseQueue.pass?]

/-- The queue that an action opens counts the pass that the action runs, unless it is refused. -/
theorem counts?_of_opens {new : Option ReleaseQueue} (ha : a.Accepted w)
    (hpass : ∀ g, new.bind (·.pass? g) = if a.refuses w g then none else a.pass? w g) :
    new.bind (·.counts?) = (a.passReport? w).map (·.counted) := by
  refine Option.ext fun ⟨g, stats⟩ => ?_
  have hg := hpass g
  rw [ha.refuses_eq g, if_neg Bool.false_ne_true] at hg
  rw [Option.map_eq_some_iff]
  refine Iff.trans ?_ pass?_eq_some_iff
  rw [← hg]
  cases new with
  | none => simp
  | some p => exact counts?_eq_some_iff

/-! ## What single actions report -/

/-- From `w` to `v` this is reported: what a pass tells, if there is one, and before and after that
events that are not about passes. -/
structure Tells (w v : Heap) (pass : Option PassReport) (before after : List Event) : Prop where
  events : v.events = after ++ ((pass.map (·.events)).getD [] ++ (before ++ w.events))
  before : ∀ e ∈ before, e.ofPass = false
  after : ∀ e ∈ after, e.ofPass = false

theorem events_openQueue (w : Heap) (xs : List Holder) (after : Afterwards) :
    (w.openQueue xs after).2.events = w.events := rfl

theorem events_runPass (hc : w.collectors[g]? = some c) :
    (w.runPass g).2.events = (w.passReport g).events ++ w.events := by
  rw [passReport, PassReport.events, runPass_eq hc, collector_eq hc]
  simp

theorem tells_register {x : Holder} (hg : g < w.collectors.length)
    (ha : (Action.register g x).Accepted w) :
    ∃ before after, w.Tells (w.register g x).2 ((Action.register g x).passReport? w) before after := by
  have hc := List.getElem?_eq_getElem hg
  have hevents : (w.register g x).2.events = .objectRegistered x.handle :: (w.duePass g).2.events := by
    have hx : (w.register g x).1.isAccepted = true := Action.accepted_register_iff.mp ha
    rw [register_eq] at hx ⊢
    cases hslot : ((w.duePass g).2.insertSlot g x).1 with
    | some y =>
      rw [hslot] at hx
      cases hx
    | none => cases (w.duePass g).1 <;> rfl
  by_cases hd : w.PassDue g
  · refine ⟨[.thresholdReached (w.collector g).pending (w.collector g).step],
      [.objectRegistered x.handle], ?_, by simp [Event.ofPass], by simp [Event.ofPass]⟩
    rw [hevents, Action.passReport?, if_pos hd, duePass_of_due hd]
    exact congrArg _ (events_runPass (w := w.emit _) hc)
  · refine ⟨[], [.objectRegistered x.handle], ?_, by simp, by simp [Event.ofPass]⟩
    rw [hevents, Action.passReport?, if_neg hd, duePass_of_not_due hd]
    rfl

theorem tells_perform (ha : a.Tells w) (hf : a.FindsFree w) (hacc : a.Accepted w)
    (hc : ∀ q, a ≠ .close q) :
    ∃ before after, w.Tells (a.perform w) (a.passReport? w) before after := by
  have hsilent : ∀ {v : Heap}, v.events = w.events → ∃ before after, w.Tells v none before after :=
    fun hv => ⟨[], [], hv, by simp, by simp⟩
  have hone : ∀ {v : Heap} {e : Event}, v.events = e :: w.events → e.ofPass = false →
      ∃ before after, w.Tells v none before after :=
    fun hv he => ⟨[_], [], hv, by simpa using he, by simp⟩
  cases a with
  | register g x => exact tells_register (hf g rfl).1 hacc
  | cleanup g =>
    obtain ⟨c, hc⟩ : ∃ c, w.collectors[g]? = some c := ⟨_, List.getElem?_eq_getElem (hf g rfl).1⟩
    by_cases hs : (w.collector g).state = .stopped
    · rw [Action.passReport?, if_pos hs, Action.perform, beginCleanup, if_pos hs]
      exact hone rfl rfl
    · have hs' : c.state ≠ .stopped := by rwa [collector_eq hc] at hs
      rw [Action.passReport?, if_neg hs, Action.perform, beginCleanup_of_ne hc hs']
      refine ⟨[], [], ?_, by simp, by simp⟩
      rw [events_openQueue, events_runPass hc]
      rfl
  | allocate kind => exact hone rfl rfl
  | stop g => exact hone rfl rfl
  | resume g => exact hone rfl rfl
  | report events =>
    obtain ⟨e, rfl, he⟩ := ha
    exact hone rfl he
  | get g kind h => exact hsilent (by simp only [Action.perform]; cases w.lookup g kind h <;> rfl)
  | getObject g h => exact hsilent (by simp only [Action.perform]; cases w.lookupBase g h <;> rfl)
  | registryErase r h => exact hsilent (by simp only [Action.perform, registryErase]; split <;> rfl)
  | close q => exact absurd rfl (hc q)
  | _ => exact hsilent rfl

/-- The end of a queue reports the pass that it counts. -/
theorem events_closeQueue (hq : w.queue? q = some p) :
    (w.closeQueue q).events = (p.counts?.map fun pass =>
      Event.passComplete pass.2.swept pass.2.reachable).toList ++ w.events := by
  obtain ⟨id, waiting, after⟩ := p
  rw [closeQueue, hq]
  cases after <;> rfl

end Heap

/-! ## Bracketed events -/

/-- How many objects a pass swept, in the event that says that it is complete. -/
def Event.completed? : Event → Option Nat
  | passComplete swept _ => some swept
  | _ => none

/-- The statistics of the passes over `g`. -/
def PassReport.over (g : CollectorId) (rs : List PassReport) : List PassStats :=
  (rs.filter (·.collector = g)).map (·.stats)

namespace Bracketed

variable {es : List Event} {rs os : List PassReport}

theorem append (h : Bracketed es rs os) {others : List Event}
    (ho : ∀ e ∈ others, e.ofPass = false) : Bracketed (others ++ es) rs os := by
  induction others with
  | nil => exact h
  | cons e others ih =>
    exact .other e (ho e List.mem_cons_self) (ih fun e he => ho e (List.mem_cons_of_mem _ he))

theorem mem_of_open {r : PassReport} (h : Bracketed es rs os) (hr : r ∈ os) : r ∈ rs := by
  induction h with
  | nil => exact hr
  | other e he _ ih => exact ih hr
  | pass r' _ ih =>
    rcases List.mem_cons.mp hr with rfl | hr
    · exact List.mem_cons_self
    · exact List.mem_cons_of_mem _ (ih hr)
  | complete r' _ ih => exact ih (List.mem_cons_of_mem _ hr)

theorem completed?_events (r : PassReport) : r.events.filterMap Event.completed? = [] := by
  rw [List.filterMap_eq_nil_iff]
  intro e he
  simp only [PassReport.events, List.mem_cons, List.mem_append, List.mem_map,
    List.not_mem_nil, or_false] at he
  rcases he with rfl | rfl | ⟨h, -, rfl⟩ | rfl <;> rfl

/-- Each pass is complete or still open. -/
theorem completed_perm (h : Bracketed es rs os) :
    (es.filterMap Event.completed? ++ os.map (·.stats.swept)).Perm (rs.map (·.stats.swept)) := by
  induction h with
  | nil => exact .refl _
  | other e he _ ih =>
    have hnone : e.completed? = none := by cases e <;> first | rfl | cases he
    rwa [List.filterMap_cons_none hnone]
  | pass r _ ih =>
    rw [List.filterMap_append, completed?_events, List.nil_append]
    exact List.perm_middle.trans (ih.cons _)
  | complete r _ ih => exact List.perm_middle.symm.trans ih

end Bracketed

namespace Heap

variable {w v : Heap} {a : Action} {as : List Action} {g : CollectorId} {es : List Event}
  {rs os : List PassReport}

/-! ## What a run reports -/

/-- From `w` to `v` these events were reported, about the passes `rs`. Of these, `os` are counted at
the ends of open queues, and the others were counted. -/
structure Reported (w v : Heap) (es : List Event) (rs os : List PassReport) : Prop where
  events : v.events = es ++ w.events
  bracketed : Bracketed es rs os
  queues : v.queues.filterMap (·.counts?) = os.map (·.counted)
  lt_length : ∀ r ∈ rs, r.collector < v.collectors.length
  run : ∀ g, (v.collector g).collectionsRun + (PassReport.over g os).length =
    (w.collector g).collectionsRun + (PassReport.over g rs).length
  swept : ∀ g, (v.collector g).objectsSwept + sweptBy (PassReport.over g os) =
    (w.collector g).objectsSwept + sweptBy (PassReport.over g rs)

theorem Reported.refl (hq : w.queues = []) : w.Reported w [] [] [] :=
  ⟨rfl, .nil, by rw [hq]; rfl, by simp, fun _ => rfl, fun _ => rfl⟩

theorem Reported.releaseNext (h : w.Reported v es rs os) (q : QueueId) :
    w.Reported (v.releaseNext q) es rs os := by
  obtain ⟨f, hf, -, hafter⟩ := queues_releaseNext v q
  refine ⟨h.events, h.bracketed, ?_, h.lt_length, h.run, h.swept⟩
  rw [hf, List.filterMap_map, ← h.queues]
  refine List.filterMap_congr fun p _ => ?_
  simp only [Function.comp_apply, ReleaseQueue.counts?, hafter]

theorem over_cons (g : CollectorId) (r : PassReport) (rs : List PassReport) :
    PassReport.over g (r :: rs) =
      (if r.collector = g then [r.stats] else []) ++ PassReport.over g rs := by
  by_cases hr : r.collector = g <;> simp [PassReport.over, hr]

/-- The end of a queue that counts no pass. -/
theorem Reported.closeQueue_of_none {p : ReleaseQueue} {ps : List ReleaseQueue}
    (h : w.Reported v es rs os) (hn : v.Numbered) (hq : v.queues = p :: ps)
    (hp : p.counts? = none) : w.Reported (v.closeQueue p.id) es rs os := by
  have hqueue := queue?_head hq
  have hnone : ∀ g, (v.queue? p.id).bind (·.pass? g) = none := fun g => by
    rw [hqueue, Option.bind_some, Option.eq_none_iff_forall_ne_some]
    exact fun stats hs => by cases hp.symm.trans (counts?_eq_some_iff.mpr hs)
  have hcounters : ∀ g, ((v.closeQueue p.id).collector g).counters = (v.collector g).counters := by
    intro g
    have hcounters := counters_closeQueue fun hne => absurd (hnone g) hne
    rwa [hnone g] at hcounters
  refine ⟨?_, h.bracketed, ?_, fun r hr => Nat.lt_of_lt_of_le (h.lt_length r hr)
    (length_perform_le v (.close p.id)), fun g => ?_, fun g => ?_⟩
  · rw [events_closeQueue hqueue, hp]
    exact h.events
  · rw [hn.closeQueue_head hq, ← h.queues, hq, List.filterMap_cons_none hp]
  · rw [(Prod.mk.inj (hcounters g)).1]
    exact h.run g
  · rw [(Prod.mk.inj (hcounters g)).2]
    exact h.swept g

/-- The end of a queue that counts a pass, which is the latest that was not counted. -/
theorem Reported.closeQueue_of_some {p : ReleaseQueue} {ps : List ReleaseQueue} {g₀ : CollectorId}
    {stats : PassStats} (h : w.Reported v es rs os) (hn : v.Numbered) (hq : v.queues = p :: ps)
    (hp : p.counts? = some (g₀, stats)) :
    ∃ es' os', w.Reported (v.closeQueue p.id) es' rs os' := by
  have hqueue := queue?_head hq
  have hqueues := h.queues
  rw [hq, List.filterMap_cons_some hp] at hqueues
  cases os with
  | nil => cases hqueues
  | cons r os =>
    obtain ⟨hr, htail⟩ := List.cons.inj hqueues
    obtain ⟨rfl, rfl⟩ := Prod.mk.inj hr
    have hlt : r.collector < v.collectors.length :=
      h.lt_length r (h.bracketed.mem_of_open List.mem_cons_self)
    have hpass : ∀ g, ((v.queue? p.id).bind (·.pass? g)).toList =
        if r.collector = g then [r.stats] else [] := by
      intro g
      rw [hqueue, Option.bind_some]
      by_cases hg : r.collector = g
      · subst hg
        rw [if_pos rfl, counts?_eq_some_iff.mp hp]
        rfl
      · have hnone : p.pass? g = none := by
          rw [Option.eq_none_iff_forall_ne_some]
          intro stats hs
          have hcounts := hp.symm.trans (counts?_eq_some_iff.mpr hs)
          exact hg (Prod.mk.inj (Option.some.inj hcounts)).1
        rw [if_neg hg, hnone]
        rfl
    have hcounters : ∀ g, ((v.closeQueue p.id).collector g).counters = _ := fun g =>
      counters_closeQueue fun hne => by
        by_cases hg : r.collector = g
        · exact hg ▸ hlt
        · have hnil := hpass g
          rw [if_neg hg] at hnil
          exact absurd (Option.toList_eq_nil_iff.mp hnil) hne
    refine ⟨_, os, ⟨?_, .complete r h.bracketed, ?_, fun r hr => Nat.lt_of_lt_of_le
      (h.lt_length r hr) (length_perform_le v (.close p.id)), fun g => ?_, fun g => ?_⟩⟩
    · rw [events_closeQueue hqueue, hp, h.events]
      rfl
    · rw [hn.closeQueue_head hq]
      exact htail
    · have hrun := h.run g
      have hcount := (Prod.mk.inj (hcounters g)).1
      rw [hpass g] at hcount
      rw [over_cons, List.length_append] at hrun
      omega
    · have hswept := h.swept g
      have hcount := (Prod.mk.inj (hcounters g)).2
      rw [hpass g] at hcount
      rw [over_cons, sweptBy_append] at hswept
      omega

/-- Any other action reports the pass that it runs, if it runs one. -/
theorem Reported.opens (h : w.Reported v es rs os) (ht : a.Tells v) (hf : a.FindsFree v)
    (hacc : a.Accepted v) (hr : ∀ q, a ≠ .release q) (hc : ∀ q, a ≠ .close q) :
    ∃ es', w.Reported (a.perform v) es' ((a.passReport? v).toList ++ rs)
      ((a.passReport? v).toList ++ os) := by
  obtain ⟨new, hnew, hpass, -⟩ := opens_perform (w := v) hr hc
  obtain ⟨before, after, hevents, hbefore, hafter⟩ := tells_perform ht hf hacc hc
  have hcounts := counts?_of_opens hacc hpass
  have hlt := fun r hr => lt_of_passReport? (r := r) hf hr
  have hcounters := fun g => Prod.mk.inj (counters_perform (w := v) hc g)
  generalize a.passReport? v = pass at *
  refine ⟨after ++ ((pass.map (·.events)).getD [] ++ (before ++ es)), ⟨?_, ?_, ?_, ?_, ?_, ?_⟩⟩
  · rw [hevents, h.events]
    simp only [List.append_assoc]
  · have hbracketed := h.bracketed.append hbefore
    cases pass with
    | none => exact hbracketed.append hafter
    | some r => exact (Bracketed.pass r hbracketed).append hafter
  · rw [hnew.queues, List.filterMap_append, h.queues, List.map_append]
    congr 1
    cases new with
    | none => cases pass <;> simp_all
    | some p => cases pass <;> simp_all
  · intro r hr
    refine Nat.lt_of_lt_of_le ?_ (length_perform_le v a)
    rcases List.mem_append.mp hr with hr | hr
    · exact hlt r (Option.mem_toList.mp hr)
    · exact h.lt_length r hr
  · intro g
    have hrun := h.run g
    rw [(hcounters g).1]
    cases pass with
    | none => exact hrun
    | some r =>
      simp only [Option.toList_some, List.singleton_append, over_cons, List.length_append]
      omega
  · intro g
    have hswept := h.swept g
    rw [(hcounters g).2]
    cases pass with
    | none => exact hswept
    | some r =>
      simp only [Option.toList_some, List.singleton_append, over_cons, sweptBy_append]
      omega

theorem Reported.perform (h : w.Reported v es rs os) (hn : v.Numbered) (ht : a.Tells v)
    (hturn : a.InTurn v) (hacc : a.Accepted v) :
    ∃ es' os', w.Reported (a.perform v) es' ((a.passReport? v).toList ++ rs) os' := by
  obtain ⟨q, rfl⟩ | ⟨q, rfl⟩ | ⟨hr, hc⟩ := a.release_or_close
  · exact ⟨es, os, h.releaseNext q⟩
  · obtain ⟨p, ps, hq, rfl, -⟩ := Action.inTurn_close_iff.mp hturn
    cases hp : p.counts? with
    | none => exact ⟨es, os, h.closeQueue_of_none hn hq hp⟩
    | some pass => exact h.closeQueue_of_some hn hq hp
  · obtain ⟨es', h'⟩ := h.opens ht hturn.findsFree hacc hr hc
    exact ⟨es', _, h'⟩

theorem Reported.performs (h : w.Reported v es rs os) (hv : v.Sound) (has : v.Orderly as)
    (ht : v.Each Action.Tells as) (hacc : v.Each Action.Accepted as) :
    ∃ es' os', w.Reported (v.performs as) es' (v.passReports as ++ rs) os' := by
  induction as generalizing v es rs os with
  | nil => exact ⟨es, os, h⟩
  | cons a as ih =>
    obtain ⟨es', os', h'⟩ := h.perform hv.numbered ht.1 has.1 hacc.1
    obtain ⟨es', os', h'⟩ := ih h' (hv.perform has.1.findsFree) has.2 ht.2 hacc.2
    refine ⟨es', os', ?_⟩
    rw [passReports, List.append_assoc]
    exact h'

/-- What is said of the passes over each collector adds up to what is said of all. -/
theorem sum_over {m : List PassStats → Nat} (hnil : m [] = 0)
    (happend : ∀ l l', m (l ++ l') = m l + m l') {n : Nat} (hn : ∀ r ∈ rs, r.collector < n) :
    ∑ g ∈ Finset.range n, m (PassReport.over g rs) = m (rs.map (·.stats)) := by
  induction rs with
  | nil => simp [PassReport.over, hnil]
  | cons r rs ih =>
    have hone : ∑ g ∈ Finset.range n, m (if r.collector = g then [r.stats] else []) = m [r.stats] := by
      rw [Finset.sum_eq_single r.collector, if_pos rfl]
      · intro g _ hne
        rw [if_neg (Ne.symm hne), hnil]
      · intro hout
        exact absurd (Finset.mem_range.mpr (hn r List.mem_cons_self)) hout
    have hrest := ih fun r hr => hn r (List.mem_cons_of_mem _ hr)
    simp only [over_cons, happend, Finset.sum_add_distrib, hone, hrest]
    exact (happend [r.stats] (rs.map (·.stats))).symm

/-- If every pass was counted, the counters grew by what the events say that complete passes swept. -/
theorem Reported.sums (h : w.Reported v es rs []) {n : Nat} (hn : v.collectors.length ≤ n) :
    ∑ g ∈ Finset.range n, (v.collector g).collectionsRun =
        ∑ g ∈ Finset.range n, (w.collector g).collectionsRun +
          (es.filterMap Event.completed?).length ∧
      ∑ g ∈ Finset.range n, (v.collector g).objectsSwept =
        ∑ g ∈ Finset.range n, (w.collector g).objectsSwept +
          (es.filterMap Event.completed?).foldr (· + ·) 0 := by
  have hlt : ∀ r ∈ rs, r.collector < n := fun r hr => Nat.lt_of_lt_of_le (h.lt_length r hr) hn
  have hperm := h.bracketed.completed_perm
  rw [List.map_nil, List.append_nil] at hperm
  constructor
  · have hrun : ∀ g, (v.collector g).collectionsRun =
        (w.collector g).collectionsRun + (PassReport.over g rs).length := h.run
    have hsum := sum_over (m := List.length) rfl (fun _ _ => List.length_append) hlt
    simp only [hrun, Finset.sum_add_distrib, hsum]
    rw [hperm.length_eq, List.length_map, List.length_map]
  · have hswept : ∀ g, (v.collector g).objectsSwept =
        (w.collector g).objectsSwept + sweptBy (PassReport.over g rs) := h.swept
    have hsum := sum_over (m := sweptBy) rfl sweptBy_append hlt
    simp only [hswept, Finset.sum_add_distrib, hsum]
    rw [hperm.foldr_eq, List.foldr_map, sweptBy, List.foldr_map]

/-- A heap without open queues has no locked collector. -/
theorem Sound.free (hw : w.Sound) (hq : w.queues = []) : w.Free := by
  intro g
  have hcount := hw.guarded g
  rw [hq] at hcount
  cases hg : (w.collector g).locked with
  | false => rfl
  | true => rw [hg] at hcount; cases hcount

/-- **What passes report is true.** A program that starts no threads does to the heap with its first
collector what a single thread can do, reports one event at a time besides, and does not get stuck
unless a registration is refused. If an action runs a pass, what the pass tells is true: how many
objects were registered, how many of them were live and how many it swept, and one handle for each link
of a live object to a handle that was not registered. Now take any run of a single thread from a heap
without open queues, in which no registration is refused. The events that it reports are those of its
passes and others, bracketed: a pass reports its start, the links it ignored, what it marked and what
it swept without a break, and that it is complete when all passes that began after it are complete.
When all queues are closed, all passes are complete, the counters of each collector have grown by its
passes and by what they swept, and those of all collectors together by what the events say. -/
theorem passes_tell_truth :
    (∀ depth steps name spec, alone steps = true →
      let w := (Session.start name spec).heap
      let s := (runSteps depth steps (.start name spec)).2
      w.Sound ∧ w.queues = [] ∧ w.events = [] ∧ ∃ as, Session.Ran w s as ∧
        w.Each Action.Tells as ∧ (w.Each Action.Accepted as → s.stuck = false)) ∧
    (∀ (w : Heap) (a : Action), a.FindsFree w →
      ((a.passReport? w).isSome = true ↔ ∃ g, a.PassesOver w g) ∧
        ∀ r ∈ a.passReport? w, r.Truthful w) ∧
    ∀ (w : Heap) (as : List Action), w.Sound → w.queues = [] → w.Orderly as →
      w.Each Action.Tells as → w.Each Action.Accepted as →
      let v := w.performs as
      let rs := w.passReports as
      ∃ es, v.events = es ++ w.events ∧ (∃ os, Bracketed es rs os) ∧
        (v.queues = [] → Bracketed es rs [] ∧
          (∀ g, (v.collector g).collectionsRun =
              (w.collector g).collectionsRun + (PassReport.over g rs).length ∧
            (v.collector g).objectsSwept =
              (w.collector g).objectsSwept + sweptBy (PassReport.over g rs)) ∧
          ∀ n, v.collectors.length ≤ n →
            ∑ g ∈ Finset.range n, (v.collector g).collectionsRun =
                ∑ g ∈ Finset.range n, (w.collector g).collectionsRun +
                  (es.filterMap Event.completed?).length ∧
              ∑ g ∈ Finset.range n, (v.collector g).objectsSwept =
                ∑ g ∈ Finset.range n, (w.collector g).objectsSwept +
                  (es.filterMap Event.completed?).foldr (· + ·) 0) := by
  refine ⟨?_, fun w a ha => ⟨isSome_passReport? w a, fun r hr => truthful_of_passReport? ha hr⟩, ?_⟩
  · intro depth steps name spec halone w s
    obtain ⟨hw, hq, hevents, as, hran, htells⟩ := runSteps_tells depth steps name spec
    refine ⟨hw, hq, hevents, as, hran, htells halone, fun hacc => ?_⟩
    cases hs : s.stuck with
    | false => rfl
    | true =>
      obtain ⟨before, ⟨after, rfl⟩, -, g, hlocked⟩ := hran.blocked hs
      have hfree := ((hw.free hq).performs (each_append.mp hacc).1).1 g
      rw [hlocked] at hfree
      cases hfree
  · intro w as hw hq has htells hacc v rs
    obtain ⟨es, os, hreported⟩ := (Reported.refl hq).performs hw has htells hacc
    rw [List.append_nil] at hreported
    refine ⟨es, hreported.events, ⟨os, hreported.bracketed⟩, fun hv => ?_⟩
    have hos : os = [] := by
      have hqueues := hreported.queues
      have hv : (w.performs as).queues = [] := hv
      rw [hv] at hqueues
      exact List.map_eq_nil_iff.mp hqueues.symm
    subst hos
    exact ⟨hreported.bracketed, fun g => ⟨hreported.run g, hreported.swept g⟩,
      fun n hn => hreported.sums hn⟩

/-- Of three registered objects the first one, which nobody holds, is swept, and its hook lets go of the
second and collects again. The third links twice to one handle that is not registered and once to
another one, so each of the two passes ignores two links. -/
theorem passes_tell_truth_of_nested :
    let x (n : Nat) : Holder := ⟨.fresh n, .whole⟩
    let made : List Action := [0, 1, 2].flatMap fun n =>
      [.allocate .probe, .clone (x n), .register 0 (x n)]
    let as : List Action := .addCollector 9 :: made ++ [.touch (.fresh 2) (.link (.fresh 7)),
      .touch (.fresh 2) (.link (.fresh 7)), .touch (.fresh 2) (.link (.fresh 5)), .drop (x 0),
      .cleanup 0, .release 0, .drop (x 1), .cleanup 0, .release 1, .close 1, .close 0]
    let w := initial 1
    let v := w.performs as
    (∃ es, v.events = es ++ w.events ∧ Bracketed es (w.passReports as) []) ∧
      (v.collector 0).collectionsRun = 2 ∧ (v.collector 0).objectsSwept = 2 ∧
      v.events.reverse.filter (·.ofPass) = [.passStarted 3, .danglingLink (.fresh 5),
        .danglingLink (.fresh 7), .passMarked 2, .passSwept 1, .passStarted 2,
        .danglingLink (.fresh 5), .danglingLink (.fresh 7), .passMarked 1, .passSwept 1,
        .passComplete 1 1, .passComplete 1 2] := by
  intro x made as w v
  have hq : v.queues = [] := by
    rw [← List.isEmpty_iff]
    decide +kernel
  have htells : w.Each Action.Tells as := .of_forall (by simp [as, made, Action.Tells]) w
  obtain ⟨es, hevents, -, hdone⟩ := passes_tell_truth.2.2 w as (sound_initial 1) rfl
    (by decide +kernel) htells (by decide +kernel)
  exact ⟨⟨es, hevents, (hdone hq).1⟩, by decide +kernel, by decide +kernel, by decide +kernel⟩

end Heap

end SharedHeap
