import SharedHeap.Proofs.Cleanup
import SharedHeap.Proofs.Departure
import Mathlib.Data.List.Infix

/-! # How many objects are registered

A registration counts itself, and a pass starts the count again. Each does so in the critical section
in which it changes the registry, so what is registered is always what the last pass left and what
was registered since. -/

namespace SharedHeap

open Heap

/-! ## Tallies -/

/-- What became of a collector: how many objects its last pass found reachable, and how many were
registered since. -/
structure Tally where
  reachable : Nat := 0
  registered : Nat := 0

namespace Tally

def passed (t : Tally) : Option PassStats → Tally
  | some stats => ⟨stats.reachable, 0⟩
  | none => t

def counted (t : Tally) (accepted : Bool) : Tally :=
  if accepted then { t with registered := t.registered + 1 } else t

/-- An action that both runs a pass and registers runs the pass first. -/
def next (w : Heap) (g : CollectorId) (t : Tally) (a : Action) : Tally :=
  (t.passed (a.pass? w g)).counted (a.registers w g)

/-- The tally of collector `g` after some actions. -/
def along (g : CollectorId) (t : Tally) (w : Heap) : List Action → Tally
  | [] => t
  | a :: as => along g (t.next w g a) (a.perform w) as

theorem next_register (w : Heap) (g : CollectorId) (t : Tally) (x : Holder) :
    t.next w g (.register g x) =
      (t.passed ((w.duePass g).1.map (·.1))).counted (w.register g x).1.isAccepted := by
  simp [next, Action.pass?, Action.registers]

theorem next_cleanup (w : Heap) (g : CollectorId) (t : Tally) :
    t.next w g (.cleanup g) = t.passed ((w.beginCleanup g).1.map (·.1)) := by
  simp [next, Action.pass?, Action.registers, counted]

theorem next_of_not_restructures {w : Heap} {g : CollectorId} {a : Action}
    (ha : ¬ a.Restructures g) (t : Tally) : t.next w g a = t := by
  obtain ⟨hpass, hregisters⟩ := Action.idle_of_not_restructures ha w
  rw [next, hpass, hregisters]
  rfl

end Tally

namespace Heap

variable {w w' : Heap} {a : Action} {as : List Action} {g : CollectorId} {t : Tally}

/-- Collector `g` is there, between two passes, and its counts are those of the tally. -/
structure Accounted (w : Heap) (g : CollectorId) (t : Tally) : Prop where
  lt_length : g < w.collectors.length
  state : (w.collector g).state ≠ .running
  size : (w.collector g).registry.size = t.reachable + t.registered
  pending : (w.collector g).pending = t.registered

/-! ## What passes and registrations count -/

theorem Accounted.congr (ht : w.Accounted g t)
    (hc : w'.collectors = w.collectors) : w'.Accounted g t := by
  obtain ⟨hl, hs, hn, hp⟩ := ht
  refine ⟨by rw [hc]; exact hl, ?_, ?_, ?_⟩ <;> rw [collector, hc] <;> assumption

/-- A pass starts the count again from what it leaves. -/
theorem Accounted.runPass (ht : w.Accounted g t) :
    (w.runPass g).2.Accounted g (t.passed (some (w.runPass g).1.1)) := by
  obtain ⟨c, hc⟩ : ∃ c, w.collectors[g]? = some c := ⟨_, List.getElem?_eq_getElem ht.lt_length⟩
  obtain ⟨-, hreachable, -⟩ := stats_runPass hc
  obtain ⟨keep, -, -, hcol⟩ := collector_runPass hc
  rw [collector_eq hcol] at hreachable
  refine ⟨(List.getElem?_eq_some_iff.mp hcol).1, ?_, ?_, ?_⟩ <;> rw [collector_eq hcol]
  · exact CollectorState.noConfusion
  · exact hreachable.symm
  · rfl

theorem Accounted.beginCleanup (ht : w.Accounted g t) :
    (w.beginCleanup g).2.Accounted g (t.passed ((w.beginCleanup g).1.map (·.1))) := by
  obtain ⟨c, hc⟩ : ∃ c, w.collectors[g]? = some c := ⟨_, List.getElem?_eq_getElem ht.lt_length⟩
  by_cases hs : c.state = .stopped
  · rw [beginCleanup_of_stopped hc hs]
    exact ht.congr rfl
  · rw [beginCleanup_of_ne hc hs]
    exact ht.runPass.congr rfl

theorem Accounted.duePass (ht : w.Accounted g t) :
    (w.duePass g).2.Accounted g (t.passed ((w.duePass g).1.map (·.1))) := by
  by_cases hd : w.PassDue g
  · rw [duePass_of_due hd]
    have he : ∀ e, (w.emit e).Accounted g t := fun _ => ht.congr rfl
    exact (he _).runPass
  · rw [duePass_of_not_due hd]
    exact ht

/-- A registration counts one unless it is refused, and then its object had a slot already. -/
theorem Accounted.register (ht : w.Accounted g t) (x : Holder) :
    (w.register g x).2.Accounted g
      ((t.passed ((w.duePass g).1.map (·.1))).counted (w.register g x).1.isAccepted) := by
  obtain ⟨-, hstate, hsize, hpending⟩ := ht.duePass
  obtain ⟨hacc, hcol⟩ := collector_register ht.lt_length x
  have hins := ((w.duePass g).2.collector g).registry.size_insert x
  rw [hsize] at hins
  have hlt : g < (w.register g x).2.collectors.length := by rw [length_register]; exact ht.lt_length
  cases hr : ((w.duePass g).2.collector g).registry.contains x.handle <;>
    rw [hr] at hacc hins <;> rw [hacc] at hcol ⊢
  · refine ⟨hlt, ?_, ?_, ?_⟩ <;> rw [hcol]
    · exact hstate
    · exact hins
    · exact congrArg (· + 1) hpending
  · refine ⟨hlt, ?_, ?_, ?_⟩ <;> rw [hcol]
    · exact hstate
    · exact hins
    · exact hpending

/-- What one action does to the counts of a collector that it does not give up. -/
theorem Accounted.perform (ht : w.Accounted g t) (ha : a ≠ .retire g) :
    (a.perform w).Accounted g (t.next w g a) := by
  by_cases hr : a.Restructures g
  · cases a with
    | register g' x =>
      obtain rfl : g' = g := hr
      rw [Tally.next_register]
      exact ht.register x
    | cleanup g' =>
      obtain rfl : g' = g := hr
      rw [Tally.next_cleanup]
      exact ht.beginCleanup
    | retire g' => exact absurd (congrArg Action.retire hr) ha
    | _ => exact hr.elim
  · obtain ⟨hregistry, hpending, hstate⟩ := undisturbed_perform (w := w) hr
    rw [Tally.next_of_not_restructures hr]
    refine ⟨Nat.lt_of_lt_of_le ht.lt_length (length_perform_le w a), hstate ht.state, ?_, ?_⟩
    · rw [hregistry]; exact ht.size
    · rw [hpending]; exact ht.pending

theorem Accounted.performs (ht : w.Accounted g t) (ha : .retire g ∉ as) :
    (w.performs as).Accounted g (t.along g w as) := by
  induction as generalizing w t with
  | nil => exact ht
  | cons a as ih =>
    rw [List.mem_cons, not_or] at ha
    exact ih (ht.perform (Ne.symm ha.1)) ha.2

theorem accounted_addCollector (w : Heap) (step : Nat) :
    (Action.perform w (.addCollector step)).Accounted w.collectors.length {} := by
  have hcol : (Action.perform w (.addCollector step)).collector w.collectors.length =
      .withStep step := by simp [Action.perform, addCollector, collector]
  refine ⟨by simp [Action.perform, addCollector], ?_, ?_, ?_⟩ <;> rw [hcol]
  · exact CollectorState.noConfusion
  · rfl
  · rfl

/-! ## The bound -/

/-- An idle collector counts no registration that would reach its step without a pass. -/
theorem Accounted.registered_next_le (ht : w.Accounted g t) (hs : (w.collector g).state ≠ .stopped)
    (hb : t.registered ≤ max ((w.collector g).step - 1) 1) (a : Action) :
    (t.next w g a).registered ≤ max ((w.collector g).step - 1) 1 := by
  have hidle : (w.collector g).state = .idle := by
    cases hc : (w.collector g).state with
    | idle => rfl
    | running => exact absurd hc ht.state
    | stopped => exact absurd hc hs
  by_cases hr : a.registers w g = true
  · cases a with
    | register g' x =>
      obtain ⟨rfl, hacc⟩ : g' = g ∧ (w.register g x).1.isAccepted = true := by
        simpa [Action.registers] using hr
      rw [Tally.next_register, hacc]
      by_cases hd : w.PassDue g'
      · rw [duePass_of_due hd]
        exact Nat.le_max_right _ _
      · -- an idle collector runs no pass only where the registration stays below the step
        have hlt : ¬ (w.collector g').step ≤ (w.collector g').pending + 1 := fun hle =>
          hd ⟨decide_eq_true hle, hidle⟩
        rw [ht.pending] at hlt
        rw [duePass_of_not_due hd]
        show t.registered + 1 ≤ _
        omega
    | _ => cases hr
  · refine Nat.le_trans ?_ hb
    simp only [Tally.next, Tally.counted, hr]
    cases a.pass? w g with
    | some stats => exact Nat.zero_le _
    | none => exact Nat.le_refl _

theorem Accounted.registered_le {S : Nat} (ht : w.Accounted g t) (ha : .retire g ∉ as)
    (hS : ∀ p, p <+: as →
      ((w.performs p).collector g).state ≠ .stopped ∧ ((w.performs p).collector g).step = S)
    (hb : t.registered ≤ max (S - 1) 1) : (t.along g w as).registered ≤ max (S - 1) 1 := by
  induction as generalizing w t with
  | nil => exact hb
  | cons a as ih =>
    rw [List.mem_cons, not_or] at ha
    obtain ⟨hs, rfl⟩ := hS [] List.nil_prefix
    refine ih (ht.perform (Ne.symm ha.1)) ha.2 (fun p hp => ?_) (ht.registered_next_le hs hb a)
    exact hS (a :: p) (List.cons_prefix_cons.mpr ⟨rfl, hp⟩)

end Heap

end SharedHeap
