import SharedHeap.Proofs.Creation
import SharedHeap.Proofs.Commands
import SharedHeap.Proofs.Queues

/-! # A whole cleanup

Where no hook runs, nothing comes between the parts of a cleanup: it takes slots out, lets go of them
and is counted. What it comes to depends on its collector and on the marking alone, and all that it
changes elsewhere is what is reported and which number the next queue will have. -/

namespace SharedHeap

open Program (Runner Session)

/-- What a cleanup comes to: its answer, what becomes of its collector, how many queues it opens and
closes, and what it reports, the latest first. -/
structure Cleaned where
  stats : PassStats
  collector : Collector
  opened : Nat
  reports : List Event

namespace Collector

/-- What a collector is once a pass that kept these objects is counted. -/
def sweep (c : Collector) (keep : Handle → Bool) : Collector :=
  { c with
    registry := (c.registry.retain keep).2
    state := .idle
    pending := 0
    collectionsRun := c.collectionsRun + 1
    objectsSwept := c.objectsSwept + (c.registry.retain keep).1.length }

def clean (c : Collector) (m : Marker) : Cleaned :=
  let swept := (c.registry.retain m.marked).1.length
  if c.state = .stopped then ⟨.none, c, 0, [.cleanupSkipped]⟩
  else
    { stats := ⟨c.registry.size, m.markedCount, swept⟩
      collector := c.sweep m.marked
      opened := 1
      reports := [.passComplete swept m.markedCount, .passSwept swept, .passMarked m.markedCount] ++
        m.dangling.map .danglingLink ++ [.passStarted c.registry.size] }

end Collector

namespace Heap

/-- A cleanup of `g` with no hook between its parts. -/
def cleanup (w : Heap) (g : CollectorId) : PassStats × Heap :=
  match w.beginCleanup g with
  | (none, w) => (.none, w)
  | (some (stats, q), w) => (stats, w.closeQueue q)

/-- The heap once a cleanup of `g` came to `d`. -/
def settle (w : Heap) (g : CollectorId) (d : Cleaned) : Heap :=
  { w with
    collectors := w.collectors.set g d.collector
    opened := w.opened + d.opened
    events := d.reports ++ w.events }

variable {w : Heap} {g g' : CollectorId} {c : Collector} {h : Handle}

theorem queue?_openQueue (w : Heap) (xs : List Holder) (after : Afterwards) :
    (w.openQueue xs after).2.queue? w.opened = some ⟨w.opened, xs, after⟩ := by
  simp [openQueue, queue?]

/-- To open the queue of a pass and close it again is to count the pass. -/
theorem closeQueue_openQueue (hn : w.Numbered) (xs : List Holder) (g : CollectorId)
    (stats : PassStats) :
    (w.openQueue xs (.complete g stats)).2.closeQueue w.opened =
      ({ w with opened := w.opened + 1 } : Heap).finishPass g stats := by
  have hold : w.queues.filter (·.id != w.opened) = w.queues := List.filter_eq_self.mpr fun p hp => by
    have hne := Nat.ne_of_lt (hn.lt_opened p hp)
    simpa using hne
  unfold closeQueue
  rw [queue?_openQueue]
  simp [openQueue, hold]

theorem modify_eq_set {f : Collector → Collector} (hc : w.collectors[g]? = some c) :
    w.collectors.modify g f = w.collectors.set g (f c) := by
  obtain ⟨hg, rfl⟩ := List.getElem?_eq_some_iff.mp hc
  rw [List.modify_eq_set_getElem?, hc]
  rfl

/-- **What a cleanup does.** -/
theorem cleanup_eq (hn : w.Numbered) (hc : w.collectors[g]? = some c) :
    w.cleanup g =
      ((c.clean (w.markFrom c.registry)).stats, w.settle g (c.clean (w.markFrom c.registry))) := by
  unfold cleanup
  by_cases hs : c.state = .stopped
  · have hset : w.collectors.set g c = w.collectors := by
      obtain ⟨hg, rfl⟩ := List.getElem?_eq_some_iff.mp hc
      exact List.set_getElem_self hg
    rw [beginCleanup_of_stopped hc hs]
    simp [Collector.clean, hs, settle, hset, emit]
  · have hpass : (w.runPass g).2.Numbered := hn.opens (.none rfl rfl)
    rw [beginCleanup_of_ne hc hs]
    dsimp only
    rw [closeQueue_openQueue hpass, runPass_eq hc]
    simp only [Collector.clean, if_neg hs, settle, finishPass, modifyCollector, emit,
      List.modify_modify_eq]
    rw [modify_eq_set hc]
    simp [Collector.sweep]

theorem Numbered.cleanup (hn : w.Numbered) (hc : w.collectors[g]? = some c) :
    (w.cleanup g).2.Numbered := by
  rw [cleanup_eq hn hc]
  exact ⟨hn.nodup, fun p hp => Nat.lt_of_lt_of_le (hn.lt_opened p hp) (Nat.le_add_right _ _)⟩

theorem collectors_settle (hc : w.collectors[g]? = some c) (d : Cleaned) :
    (w.settle g d).collectors[g]? = some d.collector :=
  List.getElem?_set_self (List.getElem?_eq_some_iff.mp hc).1

theorem collectors_settle_of_ne (hg : g' ≠ g) (d : Cleaned) :
    (w.settle g d).collectors[g']? = w.collectors[g']? := List.getElem?_set_ne hg.symm

/-! ## What it keeps -/

theorem collector_cleanup_of_ne (hn : w.Numbered) (hc : w.collectors[g]? = some c) (hg : g' ≠ g) :
    (w.cleanup g).2.collector g' = w.collector g' := by
  rw [cleanup_eq hn hc]
  simp only [collector, collectors_settle_of_ne hg]

/-- A cleanup touches no object, no holder of the application, no bare registry and no slot that
waits. -/
theorem cleanup_frame (hn : w.Numbered) (hc : w.collectors[g]? = some c) :
    (w.cleanup g).2.objects = w.objects ∧ (w.cleanup g).2.held = w.held ∧
      (w.cleanup g).2.registries = w.registries ∧ (w.cleanup g).2.queues = w.queues ∧
      (w.cleanup g).2.collectors.length = w.collectors.length := by
  rw [cleanup_eq hn hc]
  exact ⟨rfl, rfl, rfl, rfl, List.length_set⟩

theorem contains_clean (c : Collector) (m : Marker) (h : Handle) :
    (c.clean m).collector.registry.contains h = true ↔
      c.registry.contains h = true ∧ (c.state ≠ .stopped → m.marked h = true) := by
  unfold Collector.clean
  by_cases hs : c.state = .stopped
  · simp [hs]
  · simp [hs, Collector.sweep, Registry.contains_retain]

/-- A cleanup of `g` leaves the slot of `h` there, if there is one. -/
def Keeps (w : Heap) (g : CollectorId) (h : Handle) : Prop :=
  (w.collector g).state ≠ .stopped → w.Live g h

theorem registered_cleanup (hn : w.Numbered) (hc : w.collectors[g]? = some c) (h : Handle) :
    (w.cleanup g).2.Registered g h ↔ w.Registered g h ∧ w.Keeps g h := by
  rw [cleanup_eq hn hc, Registered, collector_eq (collectors_settle hc _), contains_clean,
    marked_markFrom hc, Registered, Keeps, collector_eq hc]

theorem slot?_cleanup_of_keeps (hn : w.Numbered) (hc : w.collectors[g]? = some c)
    (hk : w.Keeps g h) : (w.cleanup g).2.slot? g h = w.slot? g h := by
  rw [cleanup_eq hn hc, slot?, slot?, collector_eq (collectors_settle hc _), collector_eq hc]
  rw [Keeps, collector_eq hc, ← marked_markFrom hc] at hk
  unfold Collector.clean
  by_cases hs : c.state = .stopped
  · rw [if_pos hs]
  · rw [if_neg hs]
    exact (c.registry.slot?_retain _ h).trans (if_pos (hk hs))

theorem slot?_cleanup_of_not_keeps (hn : w.Numbered) (hc : w.collectors[g]? = some c)
    (hk : ¬ w.Keeps g h) : (w.cleanup g).2.slot? g h = none := by
  rw [slot?, Registry.slot?_eq_none_iff, Bool.eq_false_iff]
  exact fun hr => hk ((registered_cleanup hn hc h).mp hr).2

/-- Slots are either still there or counted as swept. -/
theorem size_cleanup (hn : w.Numbered) (hc : w.collectors[g]? = some c) :
    (w.cleanup g).1.swept + ((w.cleanup g).2.collector g).registry.size = c.registry.size := by
  rw [cleanup_eq hn hc, collector_eq (collectors_settle hc _)]
  unfold Collector.clean
  by_cases hs : c.state = .stopped
  · rw [if_pos hs]
    exact Nat.zero_add _
  · rw [if_neg hs]
    exact c.registry.length_retain_add_size _

/-- A stopped collector stays as it is. -/
theorem collector_cleanup_of_stopped (hn : w.Numbered) (hc : w.collectors[g]? = some c)
    (hs : c.state = .stopped) : (w.cleanup g).2.collector g = c := by
  rw [cleanup_eq hn hc, collector_eq (collectors_settle hc _), Collector.clean, if_pos hs]

/-- A cleanup neither stops a collector nor resumes it. -/
theorem stopped_cleanup_iff (hn : w.Numbered) (hc : w.collectors[g]? = some c) :
    ((w.cleanup g).2.collector g).state = .stopped ↔ c.state = .stopped := by
  rw [cleanup_eq hn hc, collector_eq (collectors_settle hc _), Collector.clean]
  by_cases hs : c.state = .stopped
  · rw [if_pos hs]
  · rw [if_neg hs]
    exact iff_of_false CollectorState.noConfusion hs

theorem locked_cleanup (hn : w.Numbered) (hc : w.collectors[g]? = some c) :
    ((w.cleanup g).2.collector g).locked = c.locked := by
  rw [cleanup_eq hn hc, collector_eq (collectors_settle hc _), Collector.clean]
  split <;> rfl

theorem slotCount_settle (hc : w.collectors[g]? = some c) (d : Cleaned) (h : Handle) :
    (w.settle g d).slotCount h + (if c.registry.contains h then 1 else 0) =
      w.slotCount h + if d.collector.registry.contains h then 1 else 0 := by
  obtain ⟨hg, rfl⟩ := List.getElem?_eq_some_iff.mp hc
  have hset : (w.collectors.set g d.collector).countP (fun c => c.registry.contains h) =
      w.collectors.countP (fun c => c.registry.contains h) -
        (if w.collectors[g].registry.contains h then 1 else 0) +
        if d.collector.registry.contains h then 1 else 0 := List.countP_set hg
  have hpos : (if w.collectors[g].registry.contains h then 1 else 0) ≤
      w.collectors.countP fun c => c.registry.contains h := by
    split
    · exact List.countP_pos_iff.mpr ⟨_, List.getElem_mem hg, ‹_›⟩
    · exact Nat.zero_le _
  simp only [slotCount, settle, hset]
  omega

/-- A cleanup takes no holder from an object that is registered in another collector: if it has a slot
here, that other slot keeps it live. -/
theorem holderCount_cleanup (hn : w.Numbered) (hc : w.collectors[g]? = some c) (hg : g' ≠ g)
    (hr : w.Registered g' h) : (w.cleanup g).2.holderCount h = w.holderCount h := by
  have hkept : (w.cleanup g).2.Registered g h ↔ w.Registered g h :=
    (registered_cleanup hn hc h).trans
      (and_iff_left_of_imp fun hr' _ => .held hr' (.inr (.inl ⟨g', hg, hr⟩)))
  rw [cleanup_eq hn hc] at hkept ⊢
  have hslot := slotCount_settle hc (c.clean (w.markFrom c.registry)) h
  rw [Registered, collector_eq (collectors_settle hc _), Registered, collector_eq hc,
    ← Bool.eq_iff_iff] at hkept
  rw [hkept, Nat.add_right_cancel_iff] at hslot
  exact congrArg (fun n => w.heldCount h + n + w.waitingCount h) hslot

theorem linked_cleanup (hn : w.Numbered) (hc : w.collectors[g]? = some c) (h : Handle) :
    (w.cleanup g).2.linked h = w.linked h := by
  rw [linked, object, (cleanup_frame hn hc).1]
  rfl

/-- So it has no part in the marking of another collector. -/
theorem markFrom_cleanup {c' : Collector} (hn : w.Numbered) (hc : w.collectors[g]? = some c)
    (hg : g' ≠ g) (hc' : w.collectors[g']? = some c') :
    (w.cleanup g).2.markFrom c'.registry = w.markFrom c'.registry := by
  refine markFrom_congr (linked_cleanup hn hc) fun a ha => ?_
  have hr : w.Registered g' a := registered_iff_getElem?.mpr ⟨c', hc', ha⟩
  rw [isRoot, holderCount_cleanup hn hc hg hr]
  rfl

theorem registered_cleanup_of_ne (hn : w.Numbered) (hc : w.collectors[g]? = some c) (hg : g' ≠ g)
    (h : Handle) : (w.cleanup g).2.Registered g' h ↔ w.Registered g' h :=
  registered_congr (by rw [collector_cleanup_of_ne hn hc hg]) h

theorem live_cleanup_of_ne (hn : w.Numbered) (hc : w.collectors[g]? = some c) (hg : g' ≠ g)
    (h : Handle) : (w.cleanup g).2.Live g' h ↔ w.Live g' h := by
  refine live_congr (linked_cleanup hn hc) (registered_cleanup_of_ne hn hc hg) (fun a ha => ?_) h
  rw [← isRoot_iff ha, ← isRoot_iff ((registered_cleanup_of_ne hn hc hg a).mpr ha), isRoot,
    holderCount_cleanup hn hc hg ha]
  rfl

theorem keeps_cleanup_of_ne (hn : w.Numbered) (hc : w.collectors[g]? = some c) (hg : g' ≠ g)
    (h : Handle) : (w.cleanup g).2.Keeps g' h ↔ w.Keeps g' h := by
  rw [Keeps, Keeps, collector_cleanup_of_ne hn hc hg, live_cleanup_of_ne hn hc hg]

end Heap

namespace Program.Session

variable {s : Session} {g : CollectorId}

/-- Where no hook runs and the lock is free, a cleanup is that of the heap. -/
theorem cleanup_eq (run : Runner) (hooks : s.hooks = ∅) (hl : (s.acquire g).stuck = false) :
    s.cleanup run g = ((s.heap.cleanup g).1, { s with heap := (s.heap.cleanup g).2 }) := by
  have hst : s.stuck = false := by rw [← acquire_eq hl]; exact hl
  unfold cleanup Heap.cleanup
  rw [acquire_eq hl, if_neg (by simp [hst])]
  cases hb : s.heap.beginCleanup g with
  | mk queue w =>
    cases queue with
    | none => rfl
    | some pass =>
      exact congrArg (Prod.mk _) (drain_eq (s := { s with heap := w }) run hooks hst pass.2 _)

end Program.Session

end SharedHeap
