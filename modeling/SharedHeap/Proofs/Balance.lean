import SharedHeap.Proofs.Crossing
import Mathlib.Data.List.Sublists

/-! # The counts of a collector

What is registered is what the last pass left and what was registered since; and every object that was
registered is registered still, was counted as swept, or was swept by a pass that has not counted it
yet. Both hold whatever threads do, also while passes are in progress: which objects a pass keeps
depends on what comes between its steps, but how many go does not matter to the balance. -/

namespace SharedHeap

open Heap

/-! ## Turn by turn -/

/-- The tally of collector `g` after some turns. -/
def Tally.turns (g : CollectorId) (t : Tally) (s : Crossing) : List Turn → Tally
  | [] => t
  | u :: us => turns g ((t.passed (u.pass? s g)).counted (u.registers s g)) (u.perform s) us

namespace Ledger

/-- What a turn adds to the ledger of collector `g`. -/
def turn (s : Crossing) (g : CollectorId) (l : Ledger) (u : Turn) : Ledger where
  registrations := l.registrations + if u.registers s g then 1 else 0
  refusals := l.refusals + if u.refuses s g then 1 else 0
  passes := (u.pass? s g).toList ++ l.passes

/-- The ledger of collector `g` after some turns. -/
def turns (g : CollectorId) (l : Ledger) (s : Crossing) : List Turn → Ledger
  | [] => l
  | u :: us => turns g (l.turn s g u) (u.perform s) us

theorem turn_posting (s : Crossing) (g : CollectorId) (l : Ledger) (e : Posting) :
    l.turn s g (.posting e) = l.next s.books g e := by
  cases e <;> rfl

theorem refusals_le_turns (g : CollectorId) (l : Ledger) (s : Crossing) (us : List Turn) :
    l.refusals ≤ (turns g l s us).refusals := by
  induction us generalizing l s with
  | nil => exact Nat.le_refl _
  | cons u us ih => exact Nat.le_trans (Nat.le_add_right _ _) (ih (l.turn s g u) (u.perform s))

end Ledger

namespace Crossing

variable {s : Crossing} {u : Turn} {us : List Turn} {g g' : CollectorId} {l : Ledger} {t : Tally}

/-- To leave the pass over `g` sweeps with these statistics, registers `n` objects, and comes to the
heap `w`. -/
structure Leaves (s : Crossing) (g : CollectorId) (stats : PassStats) (n : Nat) (w : Heap) :
    Prop where
  perform : (Turn.leave g).perform s = s.set g none w
  pass : (Turn.leave g).pass? s g = some stats
  registers : (if (Turn.leave g).registers s g then 1 else 0) = n
  length : w.collectors.length = s.heap.collectors.length
  others : ∀ g', g' ≠ g → w.collector g' = s.heap.collector g'
  collector : ∃ r locked, w.collector g =
    { s.heap.collector g with registry := r, state := .idle, pending := n, locked } ∧
      r.size + stats.swept = (s.heap.collector g).registry.size + n ∧ r.size = stats.reachable + n
  opens : ∃ new, s.heap.Opens w new ∧ ∀ g', (Turn.leave g).refuses s g' = false →
    new.bind (·.pass? g') = (Turn.leave g).pass? s g'

theorem Ordered.leaves (ho : s.Ordered) (hl : (Turn.leave g).Enabled s) :
    ∃ stats n w, s.Leaves g stats n w := by
  obtain ⟨e, m, hpass, -, hleft⟩ := exists_left hl
  obtain ⟨hg, -⟩ := ho.running g _ hpass
  have hlength : (s.heap.endPass g m).2.collectors.length = s.heap.collectors.length := by
    simp [endPass, modifyCollector, emit, emitMarked]
  obtain ⟨r, locked, hsize, hcol⟩ := e.collector_finish (hlength.symm ▸ hg) (s.heap.endPass g m).1
  obtain ⟨new, hnew, hends⟩ := e.opens_finish (w := s.heap) (v := (s.heap.endPass g m).2) rfl rfl g
    (s.heap.endPass g m).1
  have hstats : (s.heap.endPass g m).1.1 = ⟨(s.heap.collector g).registry.size, m.markedCount,
      ((s.heap.collector g).registry.retain m.marked).1.length⟩ := rfl
  have hmarked : m.markedCount = ((s.heap.collector g).registry.retain m.marked).2.size := by
    rw [Registry.size_retain]
    exact Marker.markedCount_eq (ho.consistent g e m hpass)
      (fun h hr => (Registry.mem_handles _ h).mpr hr) (Registry.nodup_handles _)
  rw [collector_endPass hg] at hsize hcol
  have hothers : ∀ g', g' ≠ g → (e.finish (s.heap.endPass g m).2 g (s.heap.endPass g m).1).2.collector
      g' = s.heap.collector g' := fun g' hg' =>
    (e.collector_finish_of_ne _ _ hg').trans (collector_endPass_of_ne s.heap hg' m)
  have hlength' := (e.length_finish (s.heap.endPass g m).2 g (s.heap.endPass g m).1).trans hlength
  generalize e.finish (s.heap.endPass g m).2 g (s.heap.endPass g m).1 = last at *
  obtain ⟨registration, w⟩ := last
  have hregisters : (Turn.leave g).registers s g = registration.any (·.isAccepted) := by
    rw [Turn.registers, hleft, decide_eq_true rfl]
    rfl
  have hsum := (s.heap.collector g).registry.length_retain_add_size m.marked
  dsimp only at hsize hcol
  rw [← hregisters] at hsize hcol
  rw [Nat.zero_add] at hcol
  refine ⟨(s.heap.endPass g m).1.1, _, w, ?_, ?_, rfl, hlength', hothers, ⟨r, locked, hcol, ?_, ?_⟩,
    new, hnew, fun g' hr => (hends g').trans ?_⟩
  · rw [Turn.perform, hleft]
  · rw [Turn.pass?, if_pos rfl, hleft]
    rfl
  · rw [hstats, hsize]
    dsimp only
    omega
  · rw [hstats, hsize, hmarked]
  · by_cases hg' : g = g'
    · subst hg'
      have hrefuses : (Turn.leave g).refuses s g = registration.any (!·.isAccepted) := by
        rw [Turn.refuses, hleft, decide_eq_true rfl]
        rfl
      rw [if_pos ⟨rfl, hrefuses.symm.trans hr⟩, Turn.pass?, if_pos rfl, hleft]
      rfl
    · rw [if_neg fun h => hg' h.1, Turn.pass?, if_neg hg']

/-- Other collectors have nothing to do with it. -/
theorem leave_of_ne (s : Crossing) (hg : g' ≠ g) : (Turn.leave g').pass? s g = none ∧
    (Turn.leave g').registers s g = false ∧ (Turn.leave g').refuses s g = false := by
  simp [Turn.pass?, Turn.registers, Turn.refuses, hg]

/-! ## What is registered -/

/-- Collector `g` is there and its counts are those of the tally. -/
structure Tallied (s : Crossing) (g : CollectorId) (t : Tally) : Prop where
  lt_length : g < s.heap.collectors.length
  size : (s.heap.collector g).registry.size = t.reachable + t.registered
  pending : (s.heap.collector g).pending = t.registered

/-- Between two passes it is accounted for. -/
theorem Tallied.accounted (ht : s.Tallied g t) (ho : s.Ordered) (hfree : s.passes g = none) :
    s.heap.Accounted g t := ⟨ht.lt_length, ho.resting g hfree, ht.size, ht.pending⟩

theorem Tallied.of_collector {s' : Crossing} (ht : s.Tallied g t)
    (hlength : s.heap.collectors.length ≤ s'.heap.collectors.length)
    (hregistry : (s'.heap.collector g).registry = (s.heap.collector g).registry)
    (hpending : (s'.heap.collector g).pending = (s.heap.collector g).pending) : s'.Tallied g t :=
  ⟨Nat.lt_of_lt_of_le ht.lt_length hlength, by rw [hregistry]; exact ht.size,
    by rw [hpending]; exact ht.pending⟩

theorem Tallied.posting {e : Posting} (ht : s.Tallied g t) (ho : s.Ordered)
    (he : (Turn.posting e).Enabled s) (hg : e ≠ .action (.retire g)) :
    ((Turn.posting e).perform s).Tallied g
      ((t.passed ((Turn.posting e).pass? s g)).counted ((Turn.posting e).registers s g)) := by
  by_cases hlock : e.lock? = some g
  · obtain ⟨a, rfl⟩ : ∃ a, e = .action a := by
      cases e with
      | action a => exact ⟨a, rfl⟩
      | countPass q | countSwept q => cases hlock
    have hfree : s.passes g = none := Option.isNone_iff_eq_none.mp (he.2 g hlock)
    obtain ⟨hlt, -, hsize, hpending⟩ :=
      (ht.accounted ho hfree).perform (a := a) fun h => hg (congrArg _ h)
    exact ⟨hlt, hsize, hpending⟩
  · obtain ⟨hregistry, hpending, -⟩ := Posting.collector_perform (b := s.books) hlock
    have hidle : (Turn.posting e).pass? s g = none ∧ (Turn.posting e).registers s g = false := by
      cases e with
      | action a => exact Action.idle_of_not_restructures (Action.not_restructures hlock) s.heap
      | countPass q | countSwept q => exact ⟨rfl, rfl⟩
    rw [hidle.1, hidle.2]
    exact ht.of_collector (Books.length_perform_le s.books e) hregistry hpending

/-- What a turn does to the counts of a collector that it does not give up. -/
theorem Tallied.perform (ht : s.Tallied g t) (ho : s.Ordered) (hu : u.Enabled s)
    (hg : u ≠ .posting (.action (.retire g))) :
    (u.perform s).Tallied g ((t.passed (u.pass? s g)).counted (u.registers s g)) := by
  cases u with
  | posting e => exact ht.posting ho hu fun h => hg (congrArg _ h)
  | enter g' e =>
    have hcollectors : (e.announce s.heap g').collectors = s.heap.collectors := by cases e <;> rfl
    refine ht.of_collector ?_ ?_ ?_
    · simp [Turn.perform, set, Passing.start, beginPass, modifyCollector, emit, hcollectors]
    · exact (registry_beginPass _ g' g).trans (by rw [collector_announce])
    · refine (apply_modifyCollector (f := Collector.pending) (m := fun c => { c with state := .running })
        (fun _ => rfl) _ g' g).trans ?_
      rw [collector_announce]
  | read g' =>
    simp only [Turn.perform]
    split
    · exact ht.of_collector (Nat.le_refl _) rfl rfl
    · exact ht
  | leave g' =>
    obtain ⟨stats, n, w, hl⟩ := ho.leaves hu
    rw [hl.perform]
    by_cases hg : g' = g
    · subst hg
      obtain ⟨r, locked, hcol, -, hsize⟩ := hl.collector
      have hcounted : ((t.passed (some stats)).counted ((Turn.leave g').registers s g')) =
          ⟨stats.reachable, n⟩ := by
        rw [← hl.registers]
        cases (Turn.leave g').registers s g' <;> rfl
      rw [hl.pass, hcounted]
      refine ⟨hl.length.symm ▸ ht.lt_length, ?_, ?_⟩
      · exact (congrArg (·.registry.size) hcol).trans hsize
      · exact congrArg Collector.pending hcol
    · obtain ⟨hpass, hregisters, -⟩ := leave_of_ne s hg
      have hcol := hl.others g (Ne.symm hg)
      rw [hpass, hregisters]
      exact ht.of_collector (Nat.le_of_eq hl.length.symm) (congrArg Collector.registry hcol)
        (congrArg Collector.pending hcol)

theorem Tallied.performs (ht : s.Tallied g t) (ho : s.Ordered) (hus : s.Allows us)
    (hg : .posting (.action (.retire g)) ∉ us) : (s.performs us).Tallied g (t.turns g s us) := by
  induction us generalizing s t with
  | nil => exact ht
  | cons u us ih =>
    rw [List.mem_cons, not_or] at hg
    exact ih (ht.perform ho hus.1 (Ne.symm hg.1)) (ho.perform hus.1) hus.2 hg.2

/-- As long as its collector is not stopped, no turn registers so much without a pass that its step
would be reached. -/
theorem Tallied.registered_le_of_perform (ht : s.Tallied g t) (ho : s.Ordered) (hu : u.Enabled s)
    (hs : (s.heap.collector g).state ≠ .stopped)
    (hb : t.registered ≤ max ((s.heap.collector g).step - 1) 1) :
    ((t.passed (u.pass? s g)).counted (u.registers s g)).registered ≤
      max ((s.heap.collector g).step - 1) 1 := by
  by_cases hr : u.registers s g = true
  · cases u with
    | posting e =>
      cases e with
      | action a =>
        have hlock : a.lock? = some g := by
          by_contra hlock
          have hr : a.registers s.heap g = true := hr
          rw [(Action.idle_of_not_restructures (Action.not_restructures hlock) s.heap).2] at hr
          cases hr
        have hfree : s.passes g = none := Option.isNone_iff_eq_none.mp (hu.2 g hlock)
        exact (ht.accounted ho hfree).registered_next_le hs hb a
      | countPass q | countSwept q => cases hr
    | enter g' e | read g' => cases hr
    | leave g' =>
      -- the pass started the count again
      obtain ⟨stats, n, w, hl⟩ := ho.leaves hu
      obtain rfl : g' = g := by
        by_contra hg
        rw [(leave_of_ne s hg).2.1] at hr
        cases hr
      rw [hr, hl.pass]
      exact Nat.le_max_right _ _
  · refine Nat.le_trans ?_ hb
    simp only [Tally.counted, hr]
    cases u.pass? s g with
    | some stats => exact Nat.zero_le _
    | none => exact Nat.le_refl _

theorem Tallied.registered_le {S : Nat} (ht : s.Tallied g t) (ho : s.Ordered) (hus : s.Allows us)
    (hg : .posting (.action (.retire g)) ∉ us)
    (hS : ∀ p, p <+: us → ((s.performs p).heap.collector g).state ≠ .stopped ∧
      ((s.performs p).heap.collector g).step = S)
    (hb : t.registered ≤ max (S - 1) 1) : (t.turns g s us).registered ≤ max (S - 1) 1 := by
  induction us generalizing s t with
  | nil => exact hb
  | cons u us ih =>
    rw [List.mem_cons, not_or] at hg
    obtain ⟨hs, rfl⟩ := hS [] List.nil_prefix
    refine ih (ht.perform ho hus.1 (Ne.symm hg.1)) (ho.perform hus.1) hus.2 hg.2 (fun p hp => ?_)
      (ht.registered_le_of_perform ho hus.1 hs hb)
    exact hS (u :: p) (List.cons_prefix_cons.mpr ⟨rfl, hp⟩)

theorem tallied_addCollector (s : Crossing) (step : Nat) :
    ((Turn.posting (.action (.addCollector step))).perform s).Tallied s.heap.collectors.length {} := by
  obtain ⟨hlt, -, hsize, hpending⟩ := accounted_addCollector s.heap step
  exact ⟨hlt, hsize, hpending⟩

/-! ## What became of all that was registered -/

theorem sound_perform (hs : s.books.Sound) (ho : s.Ordered) (hu : u.Enabled s) :
    (u.perform s).books.Sound := by
  cases u with
  | posting e => exact hs.perform hu.1
  | enter g' e => cases e <;> exact hs.opens (.none rfl rfl)
  | read g' =>
    simp only [Turn.perform]
    split <;> exact hs
  | leave g' =>
    obtain ⟨stats, n, w, hl⟩ := ho.leaves hu
    obtain ⟨new, hnew, -⟩ := hl.opens
    rw [hl.perform]
    exact hs.opens hnew

/-- What one turn does to a collector that it does not give up, if it is no refused registration. -/
theorem agree_perform (hs : s.books.Sound) (ho : s.Ordered) (ha : s.books.Agree g l)
    (hu : u.Enabled s) (hg : u ≠ .posting (.action (.retire g))) (hr : u.refuses s g = false) :
    (u.perform s).books.Agree g (l.turn s g u) := by
  cases u with
  | posting e =>
    rw [Ledger.turn_posting]
    refine ha.perform hs hu.1 (fun h => hg (congrArg _ h)) ?_
    rw [← Ledger.turn_posting, Ledger.turn, hr]
    rfl
  | enter g' e =>
    have hcollectors : (e.announce s.heap g').collectors = s.heap.collectors := by cases e <;> rfl
    refine ha.of_lists ?_ ?_ ?_ ?_ ?_
    · simp [Passing.start, beginPass, modifyCollector, emit, hcollectors]
    · exact (registry_beginPass _ g' g).trans (by rw [collector_announce])
    · refine (apply_modifyCollector (f := Collector.counters) (m := fun c => { c with state := .running })
        (fun _ => rfl) _ g' g).trans ?_
      rw [collector_announce]
    · cases e <;> rfl
    · cases e <;> rfl
  | read g' =>
    simp only [Turn.perform]
    split <;> exact ha
  | leave g' =>
    obtain ⟨stats, n, w, hl⟩ := ho.leaves hu
    obtain ⟨new, hnew, hpass⟩ := hl.opens
    rw [hl.perform]
    refine ha.opens hs hnew (hpass g hr) (Nat.le_of_eq hl.length.symm) ?_ ?_
    · by_cases hg : g = g'
      · subst hg
        obtain ⟨r, locked, hcol, -⟩ := hl.collector
        rw [hcol]
        rfl
      · rw [hl.others g hg]
    · by_cases hg : g = g'
      · subst hg
        obtain ⟨r, locked, hcol, hsize, -⟩ := hl.collector
        rw [hl.pass, hl.registers, hcol]
        exact hsize
      · obtain ⟨hnone, hregisters, -⟩ := leave_of_ne s (Ne.symm hg)
        rw [hnone, hregisters, hl.others g hg]
        rfl

theorem agree_performs (hs : s.books.Sound) (ho : s.Ordered) (ha : s.books.Agree g l)
    (hus : s.Allows us) (hg : .posting (.action (.retire g)) ∉ us)
    (hr : (l.turns g s us).refusals = l.refusals) : (s.performs us).books.Agree g (l.turns g s us) := by
  induction us generalizing s l with
  | nil => exact ha
  | cons u us ih =>
    rw [List.mem_cons, not_or] at hg
    -- refusals are never taken back, so the turn is none
    have hle := Ledger.refusals_le_turns g (l.turn s g u) (u.perform s) us
    have hnone : u.refuses s g = false := by
      by_contra hrefuses
      have hmore : (l.turn s g u).refusals = l.refusals + 1 := by simp [Ledger.turn, hrefuses]
      have hr : (Ledger.turns g (l.turn s g u) (u.perform s) us).refusals = l.refusals := hr
      omega
    have hsame : (l.turn s g u).refusals = l.refusals := by simp [Ledger.turn, hnone]
    exact ih (sound_perform hs ho hus.1) (ho.perform hus.1)
      (agree_perform hs ho ha hus.1 (Ne.symm hg.1) hnone) hus.2 hg.2 (hr.trans hsame.symm)

theorem founded_perform (hs : s.books.Sound) (ho : s.Ordered) (hf : s.books.Founded)
    (hu : u.Enabled s) : (u.perform s).books.Founded := by
  cases u with
  | posting e => exact hf.perform hs hu.1
  | enter g' e =>
    intro g hg
    refine Eq.trans ?_ (hf g ?_)
    · cases e <;> rfl
    · have hcollectors : (e.announce s.heap g').collectors = s.heap.collectors := by cases e <;> rfl
      simpa [Turn.perform, set, Passing.start, beginPass, modifyCollector, emit, hcollectors] using hg
  | read g' =>
    simp only [Turn.perform]
    split <;> exact hf
  | leave g' =>
    obtain ⟨stats, n, w, hl⟩ := ho.leaves hu
    obtain ⟨new, hnew, hpass⟩ := hl.opens
    obtain ⟨e, m, hp, -⟩ := exists_left hu
    rw [hl.perform]
    intro g hg
    have hlength : s.heap.collectors.length ≤ g := hl.length ▸ hg
    have hne : g' ≠ g := fun he => Nat.not_lt.mpr hlength (he ▸ (ho.running g' _ hp).1)
    obtain ⟨hnone, -, hrefuses⟩ := leave_of_ne s hne
    rw [Books.unfinished, set, hnew.queues, passesOf_toList, hpass g hrefuses, hnone]
    exact hf g hlength

/-- What may be assumed of a moment at which a collector is made. -/
theorem Ordered.ready (ho : s.Ordered) (hs : s.books.Sound) (hf : s.books.Founded)
    (hus : s.Allows us) :
    (s.performs us).Ordered ∧ (s.performs us).books.Sound ∧ (s.performs us).books.Founded := by
  induction us generalizing s with
  | nil => exact ⟨ho, hs, hf⟩
  | cons u us ih =>
    exact ih (ho.perform hus.1) (sound_perform hs ho hus.1) (founded_perform hs ho hf hus.1) hus.2

theorem ready_initial {n : Nat} (hus : (initial n).Allows us) :
    ((initial n).performs us).Ordered ∧ ((initial n).performs us).books.Sound ∧
      ((initial n).performs us).books.Founded :=
  (ordered_initial n).ready (Books.sound_initial n) (Books.founded_initial n) hus

end Crossing

/-! ## The balance -/

/-- **What is registered is what the last pass left and what came since.** What a program does to its
heap, in all that runs within its steps, is a legal run, and its later steps prolong that run. Now
take any collector, from the moment it is made to any moment before it is given up, and whatever
happens meanwhile. The size of its registry is what its last pass found reachable plus its pending
registrations, and those are the accepted ones since that pass. If the collector was never stopped
and always had the step `S`, then no more than `S - 1` registrations are pending, or one if `S` is
one. The same holds where threads come between the steps of passes. -/
theorem Heap.size_accounting :
    (∀ depth steps later name spec, let s := (Program.runSteps depth steps (.start name spec)).2
      ∃ as bs, (initial 1).Legal (as ++ bs) ∧ s.heap = (initial 1).performs as ∧
        (Program.runSteps depth later s).2.heap = (initial 1).performs (as ++ bs)) ∧
    (∀ (n : Nat) (before : List Action) (step : Nat) (after : List Action),
      let g := ((initial n).performs before).collectors.length
      let w := (initial n).performs (before ++ [.addCollector step])
      .retire g ∉ after →
      let c := (w.performs after).collector g
      let t := Tally.along g {} w after
      c.registry.size = t.reachable + c.pending ∧ c.pending = t.registered ∧
      ∀ S, (∀ p, p <+: after →
          ((w.performs p).collector g).state ≠ .stopped ∧ ((w.performs p).collector g).step = S) →
        c.pending ≤ max (S - 1) 1 ∧ c.registry.size ≤ t.reachable + max (S - 1) 1) ∧
    ∀ (n : Nat) (before : List Turn) (step : Nat) (after : List Turn),
      let start := Crossing.initial n
      let g := (start.performs before).heap.collectors.length
      let s := start.performs (before ++ [.posting (.action (.addCollector step))])
      start.Allows (before ++ .posting (.action (.addCollector step)) :: after) →
      .posting (.action (.retire g)) ∉ after →
      let c := (s.performs after).heap.collector g
      let t := Tally.turns g {} s after
      c.registry.size = t.reachable + c.pending ∧ c.pending = t.registered ∧
      ∀ S, (∀ p, p <+: after → ((s.performs p).heap.collector g).state ≠ .stopped ∧
          ((s.performs p).heap.collector g).step = S) →
        c.pending ≤ max (S - 1) 1 ∧ c.registry.size ≤ t.reachable + max (S - 1) 1 := by
  refine ⟨Program.runSteps_legal, ?_, ?_⟩
  · intro n before step after g w hg c t
    have hw : w = Action.perform ((initial n).performs before) (.addCollector step) :=
      performs_append _ before _
    have hstart : w.Accounted g {} := by
      rw [hw]; exact accounted_addCollector _ step
    have hend := hstart.performs hg
    refine ⟨by rw [hend.pending]; exact hend.size, hend.pending, fun S hS => ?_⟩
    have hb : t.registered ≤ max (S - 1) 1 := hstart.registered_le hg hS (Nat.zero_le _)
    exact ⟨by rw [hend.pending]; exact hb, by rw [hend.size]; exact Nat.add_le_add_left hb _⟩
  · intro n before step after start g s hallows hg c t
    obtain ⟨hbefore, hadd, hafter⟩ := (Crossing.allows_append start before _).mp hallows
    obtain ⟨ho, -⟩ := Crossing.ready_initial hbefore
    have hs : s = (Turn.posting (.action (.addCollector step))).perform (start.performs before) :=
      Crossing.performs_append start before _
    have hordered : s.Ordered := by rw [hs]; exact ho.perform hadd
    have hallowed : s.Allows after := by rw [hs]; exact hafter
    have hstart : s.Tallied g {} := by rw [hs]; exact Crossing.tallied_addCollector _ step
    have hend := hstart.performs hordered hallowed hg
    refine ⟨by rw [hend.pending]; exact hend.size, hend.pending, fun S hS => ?_⟩
    have hb : t.registered ≤ max (S - 1) 1 :=
      hstart.registered_le hordered hallowed hg hS (Nat.zero_le _)
    exact ⟨by rw [hend.pending]; exact hb, by rw [hend.size]; exact Nat.add_le_add_left hb _⟩

/-- With step two, an object that is held is registered, then one that is not held on to, then the
first again, which is refused. The refused registration runs a pass, which leaves the first object,
and counts nothing; the third object is then the one registration since. Another thread may let go of
the second object while that pass counts holders, once those of the object were counted: then the pass
keeps it. -/
theorem Heap.size_accounting_of_refused :
    let x (n : Nat) : Holder := ⟨.fresh n, .whole⟩
    let make : List Action := [.allocate .node, .clone (x 0), .clone (x 0), .register 0 (x 0),
      .allocate .object, .clone (x 1), .register 0 (x 1)]
    let after : List Action := make ++ [.drop (x 1), .register 0 (x 0), .release 1, .release 1,
      .close 1, .allocate .object, .clone (x 2), .register 0 (x 2)]
    let w := (initial 1).performs [.addCollector 2]
    let c := (w.performs after).collector 0
    let turns : List Turn := make.map (.posting ∘ .action) ++ [.enter 0 (.register (x 0)), .read 0,
      .read 0, .posting (.action (.drop (x 1))), .read 0, .read 0, .read 0, .leave 0]
    let s := (Crossing.initial 1).performs [.posting (.action (.addCollector 2))]
    let d := (s.performs turns).heap.collector 0
    (initial 1).Legal (.addCollector 2 :: after) ∧ c.registry.size = 2 ∧
      c.registry.size = (Tally.along 0 {} w after).reachable + c.pending ∧
      c.registry.size ≤ (Tally.along 0 {} w after).reachable + 1 ∧
      d.registry.size = 2 ∧ d.pending = 0 ∧
      d.registry.size = (Tally.turns 0 {} s turns).reachable + d.pending ∧
      d.registry.size ≤ (Tally.turns 0 {} s turns).reachable + 1 := by
  intro x make after w c turns s d
  have hS : ∀ p ∈ after.inits,
      ((w.performs p).collector 0).state ≠ .stopped ∧ ((w.performs p).collector 0).step = 2 := by
    decide +kernel
  have hS' : ∀ p ∈ turns.inits, ((s.performs p).heap.collector 0).state ≠ .stopped ∧
      ((s.performs p).heap.collector 0).step = 2 := by
    decide +kernel
  have hallows : (Crossing.initial 1).Allows (.posting (.action (.addCollector 2)) :: turns) := by
    decide +kernel
  have hkept : .posting (.action (.retire 0)) ∉ turns := by simp [turns, make]
  have hcounts : d.registry.size = 2 ∧ d.pending = 0 := by decide +kernel
  obtain ⟨hsize, -, hbound⟩ := size_accounting.2.1 1 [] 2 after (by simp [after, make])
  have hle := (hbound 2 fun p hp => hS p ((List.mem_inits p after).mpr hp)).2
  refine ⟨by decide +kernel, by decide +kernel, hsize, hle, hcounts.1, hcounts.2, ?_⟩
  -- what the turns are counts no more
  clear_value turns
  obtain ⟨hsize', -, hbound'⟩ := size_accounting.2.2 1 [] 2 turns hallows hkept
  exact ⟨hsize', (hbound' 2 fun p hp => hS' p ((List.mem_inits p turns).mpr hp)).2⟩

/-- **No object is lost.** What a program does to its heap, in all that runs within its steps, is a
way to keep the books. Now take any collector, from the moment it is made to any moment before it is
given up. Whatever happens meanwhile, also between the steps of passes, and whenever the two counters of
each pass are moved, let only no registration in that collector be refused. Then the accepted
registrations are what is registered, what was counted as swept, and what the passes swept that have not
counted it yet; and the passes are those that were counted and those that were not yet. The latter are
among the former, and they are the same unless some thread has moved one of the two counters and not yet
the other. Where no pass is unfinished, what was registered is registered or counted as swept, and the
counters are the number of all passes, of cleanups and of registrations, and all that they swept. A
registration counts from the moment at which its slot is there. -/
theorem Books.objects_conserved :
    (∀ depth steps later name spec, let s := (Program.runSteps depth steps (.start name spec)).2
      ∃ us us', (Crossing.initial 1).Allows (us ++ us') ∧
        (Crossing.initial 1).performs us = ⟨⟨s.heap, []⟩, fun _ => none⟩ ∧
        (Crossing.initial 1).performs (us ++ us') =
          ⟨⟨(Program.runSteps depth later s).2.heap, []⟩, fun _ => none⟩) ∧
    ∀ (n : Nat) (before : List Turn) (step : Nat) (turns : List Turn),
      let start := Crossing.initial n
      let g := (start.performs before).heap.collectors.length
      let s := start.performs (before ++ [.posting (.action (.addCollector step))])
      let ledger := Ledger.turns g (s.books.opening g) s turns
      let now := (s.performs turns).books
      let c := now.heap.collector g
      start.Allows (before ++ .posting (.action (.addCollector step)) :: turns) →
      .posting (.action (.retire g)) ∉ turns → ledger.refusals = 0 →
      ledger.registrations = c.registry.size + c.objectsSwept + sweptBy (now.unfinished g) ∧
        ledger.passes.length = c.collectionsRun + (now.uncounted g).length ∧
        (now.uncounted g).Sublist (now.unfinished g) ∧
        (now.counted = [] → now.uncounted g = now.unfinished g) ∧
        (now.unfinished g = [] →
          ledger.registrations = c.registry.size + c.objectsSwept ∧
            c.collectionsRun = ledger.passes.length ∧ c.objectsSwept = sweptBy ledger.passes) := by
  constructor
  · intro depth steps later name spec s
    obtain ⟨as, bs, hlegal, hnow, hlater⟩ := Program.runSteps_legal depth steps later name spec
    have hfirst := allows_of_legal ((legal_append _ as bs).mp hlegal).1
    have hboth := allows_of_legal hlegal
    obtain ⟨-, hperforms⟩ := Crossing.allows_postings hfirst.1
    obtain ⟨hallows, hperforms'⟩ := Crossing.allows_postings hboth.1
    rw [List.map_append, List.map_append] at hallows hperforms'
    refine ⟨_, _, hallows, hperforms.trans ?_, hperforms'.trans ?_⟩
    · rw [hfirst.2, ← hnow]
    · rw [← List.map_append, hboth.2, ← hlater]
  · intro n before step turns start g s ledger now c hallows hretire hrefusals
    obtain ⟨hbefore, hadd, hturns⟩ := (Crossing.allows_append start before _).mp hallows
    obtain ⟨ho, hs, hf⟩ := Crossing.ready_initial hbefore
    have he : s = (Turn.posting (.action (.addCollector step))).perform (start.performs before) :=
      Crossing.performs_append start before _
    have hagree : s.books.Agree g (s.books.opening g) := by rw [he]; exact agree_opening hf step
    have hsound : s.books.Sound := by rw [he]; exact Crossing.sound_perform hs ho hadd
    have hordered : s.Ordered := by rw [he]; exact ho.perform hadd
    have hallowed : s.Allows turns := by rw [he]; exact hturns
    obtain ⟨-, hsize, hrun, hswept⟩ :=
      Crossing.agree_performs hsound hordered hagree hallowed hretire hrefusals
    have hsub : (now.uncounted g).Sublist (now.unfinished g) := uncounted_sublist now g
    refine ⟨?_, hrun.symm, hsub, fun hnone => ?_, fun hnone => ?_⟩
    · rw [← hsize, ← hswept, Nat.add_assoc]
    · simp [uncounted, unfinished, hnone]
    · have hzero : (now.uncounted g).length = 0 := by
        rw [List.length_eq_zero_iff, ← List.sublist_nil, ← hnone]
        exact hsub
      have hnothing : sweptBy (now.unfinished g) = 0 := by rw [hnone]; rfl
      rw [hnothing] at hswept
      rw [hzero] at hrun
      exact ⟨by rw [← hsize, ← hswept]; rfl, hrun, hswept⟩

/-- With step two, the second registration runs a pass, which sweeps the first object, and before that
pass is counted a cleanup sweeps the second object; the slot of the first is released while the cleanup
counts holders. The cleanup has just counted that it ran: both objects are still to be counted, and one
pass. Once all is counted, both objects were swept. -/
theorem Books.objects_conserved_of_nested :
    let x (n : Nat) : Holder := ⟨.fresh n, .whole⟩
    let make (n : Nat) : List Turn :=
      [.allocate .node, .clone (x n), .register 0 (x n), .drop (x n)].map (.posting ∘ .action)
    let first : List Turn := make 0 ++ make 1 ++ [.enter 0 .cleanup, .read 0,
      .posting (.action (.release 0)), .read 0, .leave 0, .posting (.action (.release 1)),
      .posting (.countPass 1)]
    let rest : List Turn := [.countSwept 1, .countPass 0, .countSwept 0].map .posting
    let s := (Crossing.initial 1).performs [.posting (.action (.addCollector 2))]
    let now := (s.performs first).books
    let final := (s.performs (first ++ rest)).books
    (now.heap.collector 0).objectsSwept = 0 ∧ sweptBy (now.unfinished 0) = 2 ∧
      2 = (now.heap.collector 0).registry.size + (now.heap.collector 0).objectsSwept +
        sweptBy (now.unfinished 0) ∧
      2 = (now.heap.collector 0).collectionsRun + (now.uncounted 0).length ∧
      (final.heap.collector 0).collectionsRun = 2 ∧ (final.heap.collector 0).objectsSwept = 2 := by
  intro x make first rest s now final
  obtain ⟨hsize, hrun, -⟩ := objects_conserved.2 1 [] 2 first (by decide +kernel)
    (by simp [first, make]) (by decide +kernel)
  obtain ⟨-, -, -, -, hdone⟩ := objects_conserved.2 1 [] 2 (first ++ rest) (by decide +kernel)
    (by simp [first, make, rest]) (by decide +kernel)
  obtain ⟨-, hpasses, hswept⟩ := hdone (by decide +kernel)
  refine ⟨by decide +kernel, by decide +kernel, ?_, ?_, ?_, ?_⟩
  · exact Eq.trans (by decide +kernel) hsize
  · exact Eq.trans (by decide +kernel) hrun
  · exact hpasses.trans (by decide +kernel)
  · exact hswept.trans (by decide +kernel)

/-- **One account is not enough.** An object is registered and dropped, a cleanup sweeps it and releases
its slot, and of the two counters it has moved only the first. Nobody has the lock. No set of passes then
fits both equations: the object is counted nowhere else, so the pass must be in the set, and with it the
passes would be two. -/
theorem Books.unbalanced_between_counters :
    let x : Holder := ⟨.fresh 0, .whole⟩
    let turns : List Turn := [.allocate .node, .clone x, .register 0 x, .drop x, .cleanup 0,
      .release 0].map (.posting ∘ .action) ++ [.posting (.countPass 0)]
    let s := (Crossing.initial 1).performs [.posting (.action (.addCollector 9))]
    let ledger := Ledger.turns 0 {} s turns
    let c := (s.performs turns).heap.collector 0
    (Crossing.initial 1).Allows (.posting (.action (.addCollector 9)) :: turns) ∧
      (s.performs turns).passes 0 = none ∧ c.locked = false ∧ ledger.refusals = 0 ∧
      ledger.passes.length = 1 ∧
      ∀ passes, passes.Sublist ledger.passes →
        ¬ (ledger.registrations = c.registry.size + c.objectsSwept + sweptBy passes ∧
          c.collectionsRun + passes.length = ledger.passes.length) := by
  intro x turns s ledger c
  have hnone : ∀ passes ∈ ledger.passes.sublists,
      ¬ (ledger.registrations = c.registry.size + c.objectsSwept + sweptBy passes ∧
        c.collectionsRun + passes.length = ledger.passes.length) := by decide +kernel
  refine ⟨by decide +kernel, rfl, by decide +kernel, by decide +kernel, by decide +kernel, ?_⟩
  exact fun passes hp => hnone passes (List.mem_sublists.mpr hp)

end SharedHeap
