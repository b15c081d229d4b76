import SharedHeap.Proofs.Sweep

/-! # Garbage of several collectors

A root is an object with more holders than one slot. An object that is registered in two collectors
has two slots, so it is a root in both, also where nobody else holds it. Neither collector can ever
take it out; all other garbage goes with one cleanup of each collector. -/

namespace SharedHeap

open Program (Runner Session Step)

theorem Registry.size_eq_zero_iff (r : Registry) : r.size = 0 ↔ ∀ h, r.contains h = false := by
  rw [← length_handles, List.length_eq_zero_iff, List.eq_nil_iff_forall_not_mem]
  exact forall_congr' fun h => by rw [mem_handles, Bool.not_eq_true]

namespace Heap

variable {w : Heap} {g g' : CollectorId} {gs : List CollectorId} {h : Handle}

/-- The heap after cleanups of some collectors. -/
def cleanups (w : Heap) (gs : List CollectorId) : Heap := gs.foldl (fun w g => (w.cleanup g).2) w

theorem cleanups_cons (w : Heap) (g : CollectorId) (gs : List CollectorId) :
    w.cleanups (g :: gs) = (w.cleanup g).2.cleanups gs := rfl

/-- No object is held but by slots of collectors, and every collector is idle. -/
structure Abandoned (w : Heap) : Prop where
  unheld : ∀ h, w.heldCount h = 0
  bare : ∀ r ∈ w.registries, ∀ h, r.contains h = false
  released : ∀ q ∈ w.queues, q.waiting = []
  idle : ∀ c ∈ w.collectors, c.state = .idle

/-- `h` is registered in `g` and in another collector. -/
def Shared (w : Heap) (g : CollectorId) (h : Handle) : Prop :=
  w.Registered g h ∧ ∃ g', g' ≠ g ∧ w.Registered g' h

/-- What shared objects keep in `g`: themselves, and the registered objects that they link to, directly
or through others. -/
inductive Leaked (w : Heap) (g : CollectorId) : Handle → Prop where
  | shared {h : Handle} : w.Shared g h → w.Leaked g h
  | linked {a b} : w.Leaked g a → b ∈ w.linked a → w.Registered g b → w.Leaked g b

theorem Abandoned.heldElsewhere_iff (ha : w.Abandoned) :
    w.HeldElsewhere g h ↔ ∃ g', g' ≠ g ∧ w.Registered g' h := by
  constructor
  · rintro (hheld | hslot | ⟨r, hr, hh⟩ | ⟨q, hq, x, hx, -⟩)
    · rw [ha.unheld h] at hheld
      cases hheld
    · exact hslot
    · rw [ha.bare r hr h] at hh
      cases hh
    · rw [ha.released q hq] at hx
      cases hx
  · exact fun hslot => .inr (.inl hslot)

/-- In an abandoned heap only shared objects are roots. -/
theorem Abandoned.live_iff (ha : w.Abandoned) : w.Live g h ↔ w.Leaked g h := by
  constructor
  · intro hl
    induction hl with
    | held hr he => exact .shared ⟨hr, ha.heldElsewhere_iff.mp he⟩
    | linked _ hab hr ih => exact .linked ih hab hr
  · intro hl
    induction hl with
    | shared hs => exact .held hs.1 (ha.heldElsewhere_iff.mpr hs.2)
    | linked _ hab hr ih => exact .linked ih hab hr

theorem Abandoned.kept_iff (ha : w.Abandoned) :
    w.Registered g h ∧ w.Keeps g h ↔ w.Leaked g h := by
  rw [← ha.live_iff]
  constructor
  · rintro ⟨hr, hk⟩
    obtain ⟨c, hc, -⟩ := registered_iff_getElem?.mp hr
    refine hk ?_
    rw [collector_eq hc, ha.idle c (List.mem_of_getElem? hc)]
    exact CollectorState.noConfusion
  · exact fun hl => ⟨hl.registered, fun _ => hl⟩

theorem abandoned_of_empty (hheld : w.held.size = 0) (hbare : ∀ r ∈ w.registries, r.size = 0)
    (hreleased : ∀ q ∈ w.queues, q.waiting = []) (hidle : ∀ c ∈ w.collectors, c.state = .idle) :
    w.Abandoned := by
  have hcounts : w.held.counts = ∅ := Std.ExtTreeMap.eq_empty_iff_size_eq_zero.mpr hheld
  refine ⟨fun h => ?_, fun r hr => r.size_eq_zero_iff.mp (hbare r hr), hreleased, hidle⟩
  simp [heldCount, Bag.count, hcounts]

/-- Something is leaked only if something is shared. -/
theorem Leaked.exists_shared (hl : w.Leaked g h) : ∃ k, w.Shared g k := by
  induction hl with
  | shared hs => exact ⟨_, hs⟩
  | linked _ _ _ ih => exact ih

/-! ## Cleanups of all collectors -/

/-- Every number is that of a collector. -/
def Has (w : Heap) (gs : List CollectorId) : Prop := ∀ g ∈ gs, g < w.collectors.length

theorem Has.head (hgs : w.Has (g :: gs)) : ∃ c, w.collectors[g]? = some c :=
  ⟨_, List.getElem?_eq_getElem (hgs g List.mem_cons_self)⟩

theorem Has.tail (hn : w.Numbered) (hgs : w.Has (g :: gs)) : (w.cleanup g).2.Has gs := by
  obtain ⟨c, hc⟩ := hgs.head
  intro g' hg'
  rw [(cleanup_frame hn hc).2.2.2.2]
  exact hgs g' (List.mem_cons_of_mem g hg')

theorem registered_cleanups_of_not_mem (hn : w.Numbered) (hgs : w.Has gs) (hg : g ∉ gs) :
    (w.cleanups gs).Registered g h ↔ w.Registered g h := by
  induction gs generalizing w with
  | nil => rfl
  | cons g' rest ih =>
    obtain ⟨c, hc⟩ := hgs.head
    rw [List.mem_cons, not_or] at hg
    exact (ih (hn.cleanup hc) (hgs.tail hn) hg.2).trans (registered_cleanup_of_ne hn hc hg.1 h)

/-- Where every collector is cleaned up once, each keeps what it would keep at once. -/
theorem registered_cleanups (hn : w.Numbered) (hgs : w.Has gs) (hnodup : gs.Nodup) (hg : g ∈ gs) :
    (w.cleanups gs).Registered g h ↔ w.Registered g h ∧ w.Keeps g h := by
  induction gs generalizing w with
  | nil => cases hg
  | cons g' rest ih =>
    obtain ⟨c, hc⟩ := hgs.head
    rw [List.nodup_cons] at hnodup
    rw [cleanups_cons]
    by_cases he : g = g'
    · subst he
      rw [registered_cleanups_of_not_mem (hn.cleanup hc) (hgs.tail hn) hnodup.1,
        registered_cleanup hn hc]
    · have hg : g ∈ rest := (List.mem_cons.mp hg).resolve_left he
      rw [ih (hn.cleanup hc) (hgs.tail hn) hnodup.2 hg, registered_cleanup_of_ne hn hc he,
        keeps_cleanup_of_ne hn hc he]

/-- No cleanup takes out what is shared: each of the two slots is a holder besides the other. -/
theorem Shared.cleanup {g' : CollectorId} {c : Collector} (hs : w.Shared g h) (hn : w.Numbered)
    (hc : w.collectors[g']? = some c) : (w.cleanup g').2.Shared g h := by
  obtain ⟨hr, k, hne, hr'⟩ := hs
  have hkeep : ∀ {a b}, a ≠ b → w.Registered a h → w.Registered b h →
      (w.cleanup g').2.Registered a h := by
    intro a b hab ha hb
    by_cases hg : a = g'
    · subst hg
      exact (registered_cleanup hn hc h).mpr ⟨ha, fun _ => .held ha (.inr (.inl ⟨b, hab.symm, hb⟩))⟩
    · exact (registered_cleanup_of_ne hn hc hg h).mpr ha
  exact ⟨hkeep hne.symm hr hr', k, hne, hkeep hne hr' hr⟩

theorem Shared.cleanups (hs : w.Shared g h) (hn : w.Numbered) (hgs : w.Has gs) :
    (w.cleanups gs).Shared g h := by
  induction gs generalizing w with
  | nil => exact hs
  | cons g' rest ih =>
    obtain ⟨c, hc⟩ := hgs.head
    exact ih (hs.cleanup hn hc) (hn.cleanup hc) (hgs.tail hn)

end Heap

namespace Program.Session

open Heap

/-- Cleans up collectors one after another. -/
def cleanupEach (run : Runner) (s : Session) (gs : List CollectorId) : Session :=
  gs.foldl (fun s g => (s.cleanup run g).2) s

theorem cleanupEach_eq {s : Session} {gs : List CollectorId} (run : Runner) (hooks : s.hooks = ∅)
    (hst : s.stuck = false) (hn : s.heap.Numbered) (hgs : s.heap.Has gs)
    (hunlocked : ∀ g, (s.heap.collector g).locked = false) :
    s.cleanupEach run gs = { s with heap := s.heap.cleanups gs } ∧
      ∀ g, ((s.heap.cleanups gs).collector g).locked = false := by
  induction gs generalizing s with
  | nil => exact ⟨rfl, hunlocked⟩
  | cons g rest ih =>
    obtain ⟨c, hc⟩ := hgs.head
    have hl : (s.acquire g).stuck = false := by
      rw [acquire, if_neg (by simp [hunlocked g])]
      exact hst
    have hnext : ∀ g', ((s.heap.cleanup g).2.collector g').locked = false := by
      intro g'
      by_cases hg : g' = g
      · rw [hg, locked_cleanup hn hc, ← collector_eq hc]
        exact hunlocked g
      · rw [collector_cleanup_of_ne hn hc hg]
        exact hunlocked g'
    have hrest := ih (s := { s with heap := (s.heap.cleanup g).2 }) hooks hst (hn.cleanup hc)
      (hgs.tail hn) hnext
    rw [cleanupEach, List.foldl_cons, cleanup_eq run hooks hl]
    exact hrest

/-- **What collectors leak.** Let no hooks be there and no lock be taken, let every collector be idle,
and let objects be held by slots of collectors alone. Clean up every collector once, in any order.
Then what is left in a collector are the objects that are registered in another one as well, and what
those link to. So all registries are empty iff no object was registered in two collectors; and such
an object stays where it is through any further cleanups. -/
theorem leaked_after_cleanups (run : Runner) (s : Session) (order : List CollectorId)
    (hooks : s.hooks = ∅) (hst : s.stuck = false) (hn : s.heap.Numbered)
    (hunlocked : ∀ c ∈ s.heap.collectors, c.locked = false) (ha : s.heap.Abandoned)
    (horder : order.Perm (List.range s.heap.collectors.length)) :
    let t := s.cleanupEach run order
    (∀ g h, t.heap.Registered g h ↔ s.heap.Leaked g h) ∧
    ((∀ g, (t.heap.collector g).registry.size = 0) ↔ ∀ g h, ¬ s.heap.Shared g h) ∧
    ∀ later, s.heap.Has later → ∀ g h, s.heap.Shared g h →
      (s.cleanupEach run (order ++ later)).heap.Registered g h := by
  intro t
  have hunlocked : ∀ g, (s.heap.collector g).locked = false := by
    intro g
    unfold Heap.collector
    cases hc : s.heap.collectors[g]? with
    | none => rfl
    | some c => exact hunlocked c (List.mem_of_getElem? hc)
  have hgs : s.heap.Has order := fun g hg => List.mem_range.mp (horder.mem_iff.mp hg)
  have ht := (cleanupEach_eq run hooks hst hn hgs hunlocked).1
  have hleft : ∀ g h, t.heap.Registered g h ↔ s.heap.Leaked g h := by
    intro g h
    show (s.cleanupEach run order).heap.Registered g h ↔ _
    rw [ht]
    by_cases hg : g ∈ order
    · rw [registered_cleanups hn hgs (horder.nodup_iff.mpr List.nodup_range) hg]
      exact ha.kept_iff
    · have hnone : ¬ s.heap.Registered g h := fun hr =>
        hg (horder.mem_iff.mpr (List.mem_range.mpr hr.lt_length))
      rw [registered_cleanups_of_not_mem hn hgs hg]
      exact ⟨fun hr => absurd hr hnone, fun hl => absurd (ha.live_iff.mpr hl).registered hnone⟩
  refine ⟨hleft, ⟨fun hempty g h hs => ?_, fun hnone g => ?_⟩, fun later hlater g h hs => ?_⟩
  · have hr := (hleft g h).mpr (.shared hs)
    rw [Registered, (Registry.size_eq_zero_iff _).mp (hempty g) h] at hr
    cases hr
  · refine (Registry.size_eq_zero_iff _).mpr fun h => Bool.eq_false_iff.mpr fun hr => ?_
    obtain ⟨k, hk⟩ := ((hleft g h).mp hr).exists_shared
    exact hnone g k hk
  · have hboth : s.heap.Has (order ++ later) := fun g hg =>
      (List.mem_append.mp hg).elim (hgs g) (hlater g)
    rw [(cleanupEach_eq run hooks hst hn hboth hunlocked).1]
    exact (hs.cleanups hn hboth).1

/-- Of three objects that nobody holds, all registered in the first collector, the first is registered
in the second one as well and links to the second object. Cleanups leave these two in the first
collector and take the third one out. -/
theorem leaked_after_cleanups_of_shared :
    let create (n : String) : Step := .mk "gc" (.create (.fresh .node []) none (some n))
    let s := (runSteps 20 [.mk "gc" (.placeCollector "other" (.withStep 9)), create "x", create "y",
      create "z", .mk "other" (.create (.again "x") (some []) (some "x")),
      .mk "gc" (.link "x" (.named "y")), .mk "gc" (.drop "x"), .mk "gc" (.drop "y"),
      .mk "gc" (.drop "z")] (.start "gc" (.withStep 9))).2
    let t := s.cleanupEach (runSteps 0) [1, 0]
    s.heap.Abandoned ∧ (t.heap.collector 0).registry.size = 2 ∧
      s.heap.Leaked 0 (.fresh 1) ∧ ¬ s.heap.Leaked 0 (.fresh 2) := by
  intro create s t
  have ha : s.heap.Abandoned := by
    apply abandoned_of_empty
    all_goals decide +kernel
  obtain ⟨hleft, -, -⟩ := leaked_after_cleanups (runSteps 0) s [1, 0]
    (Std.ExtTreeMap.eq_empty_iff_size_eq_zero.mpr (by decide +kernel)) (by decide +kernel)
    (numbered_runSteps _ _ _ _) (by decide +kernel) ha (by decide +kernel)
  refine ⟨ha, by decide +kernel, (hleft _ _).mp ?_, fun hl => ?_⟩
  · rw [Registered]
    decide +kernel
  · have hr := (hleft _ _).mpr hl
    revert hr
    rw [Registered]
    decide +kernel

/-- A program whose only object is registered in two collectors when the last holder goes. A cleanup
of each collector leaves the object in both. -/
theorem leaked_after_cleanups_of_program :
    let s := (runSteps 20 [.mk "gc" (.placeCollector "other" (.withStep 9)),
      .mk "gc" (.create (.fresh .node []) none (some "x")),
      .mk "other" (.create (.again "x") (some []) (some "y")),
      .mk "gc" (.drop "x"), .mk "gc" (.drop "y")] (.start "gc" (.withStep 9))).2
    let t := (runSteps 20 [.mk "gc" .cleanup, .mk "other" .cleanup] s).2
    s.heap.Abandoned ∧ s.holders.isEmpty = true ∧
      (t.heap.collector 0).registry.size = 1 ∧ (t.heap.collector 1).registry.size = 1 := by
  intro s t
  refine ⟨?_, by decide +kernel, by decide +kernel, by decide +kernel⟩
  apply abandoned_of_empty
  all_goals decide +kernel

end Program.Session

end SharedHeap
