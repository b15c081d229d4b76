import SharedHeap.Proofs.Pass
import SharedHeap.Program.Session

/-! # A cleanup is exact

What is registered after a cleanup is what was live before it. -/

namespace SharedHeap

open Program (Runner Session)

/-- Whoever gets the lock of a collector has changed nothing by that. -/
theorem Program.Session.acquire_eq {s : Session} {g : CollectorId}
    (hs : (s.acquire g).stuck = false) : s.acquire g = s := by
  unfold acquire at hs ⊢
  split <;> simp_all

namespace Heap

variable {w : Heap} {g : CollectorId} {c : Collector}

theorem beginCleanup_of_stopped (hc : w.collectors[g]? = some c) (hs : c.state = .stopped) :
    w.beginCleanup g = (none, w.emit .cleanupSkipped) := by
  rw [beginCleanup, collector_eq hc, if_pos hs]

theorem beginCleanup_of_ne (hc : w.collectors[g]? = some c) (hs : c.state ≠ .stopped) :
    w.beginCleanup g =
      (some ((w.runPass g).1.1, (w.runPass g).2.opened),
        ((w.runPass g).2.openQueue (w.runPass g).1.2 (.complete g (w.runPass g).1.1)).2) := by
  rw [beginCleanup, collector_eq hc, if_neg hs]
  rfl

theorem waiting_openQueue (w : Heap) (xs : List Holder) (after : Afterwards) :
    (w.openQueue xs after).2.waiting w.opened = xs := by
  simp [openQueue, waiting, queue?]

/-- **A cleanup is exact.** The critical section of a cleanup of an idle collector keeps the slots of
the live objects as they are and moves all other slots to the queue that is then released. It touches
no link, no other collector, and no holder of the application, and its statistics count what was
registered and what still is. A stopped collector is left as it is. -/
theorem cleanup_exact (w : Heap) (g : CollectorId) (c : Collector)
    (hc : w.collectors[g]? = some c) :
    (c.state = .idle → ∃ stats q w', w.beginCleanup g = (some (stats, q), w') ∧
      (∀ h, w'.Registered g h ↔ w.Live g h) ∧
      (∀ h, w.Live g h → w'.slot? g h = w.slot? g h) ∧
      (∀ x, x ∈ w'.waiting q ↔ w.slot? g x.handle = some x ∧ ¬ w.Live g x.handle) ∧
      (w'.waiting q).Nodup ∧
      w'.objects = w.objects ∧ w'.held = w.held ∧ w'.registries = w.registries ∧
      (∀ g', g' ≠ g → w'.collector g' = w.collector g') ∧
      (w'.collector g).state = .idle ∧ (w'.collector g).pending = 0 ∧
      stats.examined = c.registry.size ∧
      stats.reachable = (w'.collector g).registry.size ∧
      stats.swept = stats.examined - stats.reachable ∧
      ∀ (run : Runner) (s : Session), s.heap = w → (s.acquire g).stuck = false →
        (s.cleanup run g).1 = stats) ∧
    (c.state = .stopped → w.beginCleanup g = (none, w.emit .cleanupSkipped) ∧
      ∀ (run : Runner) (s : Session), s.heap = w → (s.acquire g).stuck = false →
        s.cleanup run g = (.none, s.update (·.emit .cleanupSkipped))) := by
  refine ⟨fun hi => ?_, fun hs => ⟨beginCleanup_of_stopped hc hs, fun run s hw hl => ?_⟩⟩
  · have hb := beginCleanup_of_ne hc (by rw [hi]; decide)
    have hreg := registered_runPass hc
    have hslot := fun h => slot?_runPass (h := h) hc
    have hswept := mem_swept_iff hc
    have hnodup := nodup_swept hc
    have hframe := fun g' (hg' : g' ≠ g) => collector_runPass_of_ne w hg'
    have hobj := objects_runPass w g
    have hheld := held_runPass w g
    have hbare := registries_runPass w g
    obtain ⟨keep, -, -, hcol⟩ := collector_runPass hc
    obtain ⟨hex, hre, -, hsum⟩ := stats_runPass hc
    generalize w.runPass g = pass at *
    obtain ⟨⟨stats, swept⟩, w₁⟩ := pass
    have hq := waiting_openQueue w₁ swept (.complete g stats)
    refine ⟨stats, w₁.opened, _, hb, hreg, hslot, ?_, ?_, hobj, hheld, hbare, hframe,
      congrArg Collector.state (collector_eq hcol), congrArg Collector.pending (collector_eq hcol),
      hex, hre, ?_, fun run s hw hl => ?_⟩
    · rw [hq]; exact hswept
    · rw [hq]; exact hnodup
    · exact Nat.eq_sub_of_add_eq hsum
    · have hst := hl
      rw [Session.acquire_eq hl] at hst
      simp [Session.cleanup, Session.acquire_eq hl, hst, hw, hb]
  · have hst := hl
    rw [Session.acquire_eq hl] at hst
    simp [Session.cleanup, Session.acquire_eq hl, hst, hw, beginCleanup_of_stopped hc hs,
      Session.update]

/-- A held object that links to another one, and two objects that nobody holds and that link to each
other and to the first: the cleanup keeps the first two and takes out the others. -/
theorem cleanup_exact_of_two_pairs :
    let w := ofLinks 9 [[1, 7], [1], [3], [2, 0]] [0]
    ∃ c, w.collectors[0]? = some c ∧ c.state = .idle ∧
      ∃ stats q w', w.beginCleanup 0 = (some (stats, q), w') ∧ stats = ⟨4, 2, 2⟩ ∧
        (∀ h, w'.Registered 0 h ↔ w.Live 0 h) ∧ w.Live 0 (.fresh 1) ∧ ¬ w.Live 0 (.fresh 3) ∧
        w'.waiting q = [⟨.fresh 2, .whole⟩, ⟨.fresh 3, .whole⟩] := by
  intro w
  refine ⟨_, rfl, rfl, ?_⟩
  obtain ⟨stats, q, w', hb, hreg, -⟩ := (cleanup_exact w 0 _ rfl).1 rfl
  have hw : w' = (w.beginCleanup 0).2 := by rw [hb]
  have hs : some (stats, q) = some (⟨4, 2, 2⟩, 0) := by
    rw [show some (stats, q) = (w.beginCleanup 0).1 by rw [hb]]
    decide +kernel
  obtain ⟨rfl, rfl⟩ : stats = ⟨4, 2, 2⟩ ∧ q = 0 := by simpa using hs
  refine ⟨_, _, _, hb, rfl, hreg, ?_, ?_, ?_⟩
  · exact (hreg _).mp (by rw [hw, Registered]; decide +kernel)
  · rw [← hreg, hw, Registered]
    decide +kernel
  · rw [hw]
    decide +kernel

end Heap

end SharedHeap
