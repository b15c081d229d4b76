import SharedHeap.Proofs.Accounting
import SharedHeap.Proofs.Interleaving

/-! # A stopped collector

Only a stop and a resumption change the state that a collector shows: a pass takes it to `running`
and back within one critical section. What is registered in a stopped collector therefore stays so,
and its counts grow with its registrations alone, whatever was in progress when it was stopped. -/

namespace SharedHeap

open Heap
open Program (Runner Session)

namespace Heap

variable {w : Heap} {a : Action} {as : List Action} {g g' : CollectorId} {h : Handle}

/-- How many of some actions register an object in `g`. -/
def registrations (g : CollectorId) (w : Heap) : List Action → Nat
  | [] => 0
  | a :: as => (if a.registers w g then 1 else 0) + (a.perform w).registrations g as

/-! ## The state of a collector -/

theorem state_of_length_le (hg : w.collectors.length ≤ g) : (w.collector g).state = .idle := by
  rw [collector, List.getElem?_eq_none_iff.mpr hg]
  rfl

theorem state_modifyCollector {m : Collector → Collector} (hm : ∀ c, (m c).state = c.state)
    (w : Heap) (g g' : CollectorId) :
    ((w.modifyCollector g m).collector g').state = (w.collector g').state :=
  apply_modifyCollector hm w g g'

theorem state_runPass (w : Heap) (g : CollectorId) : ((w.runPass g).2.collector g).state = .idle := by
  cases hc : w.collectors[g]? with
  | none =>
    refine state_of_length_le ?_
    simpa [runPass, endPass, beginPass, modifyCollector, emit, emitMarked] using hc
  | some c =>
    obtain ⟨keep, -, -, hcol⟩ := collector_runPass hc
    rw [collector_eq hcol]

/-- A due pass starts from an idle collector, so a registration leaves every state as it was. -/
theorem state_register (w : Heap) (g g' : CollectorId) (x : Holder) :
    ((w.register g x).2.collector g').state = (w.collector g').state := by
  by_cases hg : g' = g
  · subst hg
    have hdue : ((w.duePass g').2.collector g').state = (w.collector g').state := by
      by_cases hd : w.PassDue g'
      · rw [duePass_of_due hd, hd.2]
        exact state_runPass _ g'
      · rw [duePass_of_not_due hd]
    have hslot : (((w.duePass g').2.insertSlot g' x).2.collector g').state =
        ((w.duePass g').2.collector g').state := by
      exact state_modifyCollector (m := fun c => { c with
        registry := (((w.duePass g').2.collector g').registry.insert x).2 }) (fun _ => rfl) _ g' g'
    rw [← hdue, ← hslot, register_eq]
    split
    · exact state_modifyCollector (m := fun c => { c with locked := true }) (fun _ => rfl) _ g' g'
    · rw [collector, collectors_accept]
      exact state_modifyCollector (m := fun c => { c with pending := c.pending + 1 })
        (fun _ => rfl) _ g' g'
  · rw [collector_register_of_ne w x hg]

theorem state_beginCleanup (hs : g' = g → (w.collector g).state ≠ .running) :
    ((w.beginCleanup g').2.collector g).state = (w.collector g).state := by
  by_cases hg : g' = g
  · subst hg
    unfold beginCleanup
    split
    · rfl
    · rename_i hn
      refine (state_runPass w g').trans ?_
      cases hc : (w.collector g').state with
      | idle => rfl
      | running => exact absurd hc (hs rfl)
      | stopped => exact absurd hc hn
  · rw [collector_beginCleanup_of_ne w (Ne.symm hg)]

theorem state_addCollector (w : Heap) (n : Nat) (g : CollectorId) :
    ((w.addCollector (.withStep n)).2.collector g).state = (w.collector g).state := by
  by_cases hg : g < w.collectors.length
  · rw [collector, collector, addCollector, List.getElem?_append_left hg]
  · -- a collector that is new is idle, and so is one that is not there
    rw [state_of_length_le (Nat.le_of_not_lt hg), collector, addCollector,
      List.getElem?_append_right (Nat.le_of_not_lt hg)]
    cases hn : [Collector.withStep n][g - w.collectors.length]? with
    | none => rfl
    | some c =>
      obtain rfl : c = Collector.withStep n := by simpa using List.mem_of_getElem? hn
      rfl

/-- Only a stop and a resumption change a state, except that a cleanup ends a pass in progress. -/
theorem state_perform (hc : a = .cleanup g → (w.collector g).state ≠ .running)
    (hs : a ≠ .stop g) (hr : a ≠ .resume g) :
    ((a.perform w).collector g).state = (w.collector g).state := by
  cases a with
  | register g' x => exact state_register w g' g x
  | cleanup g' => exact state_beginCleanup fun he => hc (congrArg Action.cleanup he)
  | stop g' =>
    have hne : g' ≠ g := fun he => hs (congrArg Action.stop he)
    exact congrArg Collector.state (collector_modifyCollector_of_ne w hne _)
  | resume g' =>
    have hne : g' ≠ g := fun he => hr (congrArg Action.resume he)
    exact congrArg Collector.state (collector_modifyCollector_of_ne w hne _)
  | setStep g' n => exact state_modifyCollector (m := fun c => c.setStep n) (fun _ => rfl) w g' g
  | retire g' =>
    exact state_modifyCollector (m := fun c => { c with registry := .empty }) (fun _ => rfl) w g' g
  | addCollector n => exact state_addCollector w n g
  | close q => exact state_closeQueue w q g
  | get g' kind k => simp only [Action.perform]; cases w.lookup g' kind k <;> rfl
  | getObject g' k => simp only [Action.perform]; cases w.lookupBase g' k <;> rfl
  | registryErase r k => simp only [Action.perform, registryErase]; split <;> rfl
  | _ => rfl

/-- No action leaves a collector running. -/
theorem state_ne_running_perform (hw : (w.collector g).state ≠ .running) (a : Action) :
    ((a.perform w).collector g).state ≠ .running := by
  by_cases hr : a.Restructures g
  · rw [state_perform (fun _ => hw)]
    · exact hw
    · rintro rfl; exact hr
    · rintro rfl; exact hr
  · exact (undisturbed_perform hr).state hw

theorem state_ne_running_performs (hw : (w.collector g).state ≠ .running) (as : List Action) :
    ((w.performs as).collector g).state ≠ .running := by
  induction as generalizing w with
  | nil => exact hw
  | cons a as ih => exact ih (state_ne_running_perform hw a)

theorem state_initial (n : Nat) (g : CollectorId) : ((initial n).collector g).state = .idle :=
  state_of_length_le (Nat.zero_le g)

/-- A pass starts from an idle collector. -/
theorem idle_of_passesOver (hw : (w.collector g).state ≠ .running) (hp : a.PassesOver w g) :
    (w.collector g).state = .idle := by
  cases a with
  | cleanup g' =>
    cases hc : (w.collector g).state with
    | idle => rfl
    | running => exact absurd hc hw
    | stopped => exact absurd hc hp.2
  | register g' x => exact hp.2.2
  | _ => exact hp.elim

end Heap

/-! ## While a pass is in progress -/

namespace Passing

variable {w : Heap} {g : CollectorId} {moves : List Move}

/-- From its start to its sweep a pass keeps its collector running, whatever other threads do. -/
theorem running_play (hg : g < w.collectors.length) (ha : Admits g moves) :
    (∃ result, ((start w g).play g moves).phase = .done result) ∨
      g < ((start w g).play g moves).heap.collectors.length ∧
        (((start w g).play g moves).heap.collector g).state = .running := by
  induction moves using List.reverseRecOn with
  | nil =>
    refine .inr ⟨by simpa [play, start, beginPass, modifyCollector, emit] using hg, ?_⟩
    exact congrArg Collector.state (collector_modifyCollector_self hg _)
  | append_singleton moves x ih =>
    have ih := ih ha.of_append
    rw [play_concat]
    cases x with
    | some a =>
      -- whatever changes a state takes the lock, which the pass has
      have hlock : a.lock? ≠ some g := ha a (by simp)
      refine ih.imp id fun h => ?_
      obtain ⟨hlen, hrun⟩ := h
      refine ⟨Nat.lt_of_lt_of_le hlen (length_perform_le _ a), (state_perform ?_ ?_ ?_).trans hrun⟩
      · rintro rfl; exact absurd rfl hlock
      · rintro rfl; exact absurd rfl hlock
      · rintro rfl; exact absurd rfl hlock
    | none =>
      simp only [move, advance]
      split
      · exact .inr (ih.resolve_left (by simp [*]))
      · exact .inr (ih.resolve_left (by simp [*]))
      · split
        · exact .inl ⟨_, rfl⟩
        · exact .inr (ih.resolve_left (by simp [*]))
      · exact ih

/-- The sweep leaves the collector idle. -/
theorem idle_of_sweeps (hg : g < w.collectors.length) (ha : Admits g moves)
    (hs : ((start w g).play g moves).Sweeps) :
    ((((start w g).play g moves).advance g).heap.collector g).state = .idle := by
  obtain ⟨m, hm, hnil⟩ := hs
  obtain ⟨hlen, -⟩ := (running_play hg ha).resolve_left fun ⟨result, hd⟩ =>
    ne_done_of_marking hm result hd
  rw [heap_advance_of_nil hm hnil, collector_endPass hlen]

end Passing

/-! ## While a collector is stopped -/

namespace Heap

variable {w : Heap} {a : Action} {as : List Action} {g : CollectorId} {h : Handle}

/-- Collector `g` is there, and it is stopped. -/
structure Halted (w : Heap) (g : CollectorId) : Prop where
  lt_length : g < w.collectors.length
  state : (w.collector g).state = .stopped

theorem halted_stop (hg : g < w.collectors.length) : (w.stop g).Halted g :=
  ⟨by simpa [stop, modifyCollector, emit] using hg,
    congrArg Collector.state (collector_modifyCollector_self hg _)⟩

theorem Halted.perform (hw : w.Halted g) (hr : a ≠ .resume g) : (a.perform w).Halted g := by
  by_cases hs : a = .stop g
  · subst hs
    exact halted_stop hw.lt_length
  · have hstate := state_perform (w := w) (fun _ => by rw [hw.state]; decide) hs hr
    exact ⟨Nat.lt_of_lt_of_le hw.lt_length (length_perform_le w a), hstate.trans hw.state⟩

theorem Halted.performs (hw : w.Halted g) (hr : .resume g ∉ as) : (w.performs as).Halted g := by
  induction as generalizing w with
  | nil => exact hw
  | cons a as ih =>
    rw [List.mem_cons, not_or] at hr
    exact ih (hw.perform (Ne.symm hr.1)) hr.2

theorem Halted.not_passDue (hw : w.Halted g) : ¬ w.PassDue g := by
  intro hd
  rw [PassDue, hw.state] at hd
  cases hd.2

theorem Halted.not_passesOver (hw : w.Halted g) (a : Action) : ¬ a.PassesOver w g := by
  intro hp
  cases a with
  | cleanup g' => exact hp.2 hw.state
  | register g' x => exact hw.not_passDue hp.2
  | _ => exact hp

theorem Halted.beginCleanup (hw : w.Halted g) : w.beginCleanup g = (none, w.emit .cleanupSkipped) :=
  if_pos hw.state

/-- A cleanup does nothing and answers zeros. -/
theorem Halted.cleanup {s : Session} (hw : s.heap.Halted g) (run : Runner) :
    (s.cleanup run g).1 = .none ∧ (s.cleanup run g).2.heap.collectors = s.heap.collectors := by
  have hlock : (s.acquire g).heap = s.heap := by
    unfold Session.acquire
    split <;> rfl
  unfold Session.cleanup
  rw [← hlock] at hw ⊢
  generalize s.acquire g = t at *
  dsimp only
  rw [hw.beginCleanup]
  split <;> exact ⟨rfl, rfl⟩

/-- Nothing that was registered leaves. -/
theorem Halted.registered_perform (hw : w.Halted g) (ha : a ≠ .retire g) (hr : w.Registered g h) :
    (a.perform w).Registered g h := by
  by_contra hn
  rcases departure hr hn with he | ⟨hp, -⟩
  · exact ha he
  · exact hw.not_passesOver a hp

/-- What an action registers is what the counts grow by. -/
theorem Halted.counts_perform (hw : w.Halted g) (ha : a ≠ .retire g) :
    ((a.perform w).collector g).registry.size =
        (w.collector g).registry.size + (if a.registers w g then 1 else 0) ∧
      ((a.perform w).collector g).pending =
        (w.collector g).pending + (if a.registers w g then 1 else 0) := by
  by_cases hr : a.Restructures g
  · cases a with
    | register g' x =>
      obtain rfl : g' = g := hr
      obtain ⟨hacc, hcol⟩ := collector_register hw.lt_length x
      rw [duePass_of_not_due hw.not_passDue] at hacc hcol
      have hins := (w.collector g').registry.size_insert x
      have hreg : (Action.register g' x).registers w g' = (w.register g' x).1.isAccepted := by
        simp [Action.registers]
      rw [hreg, Action.perform, hcol, hacc]
      cases hx : (w.collector g').registry.contains x.handle <;> simpa [hx] using hins
    | cleanup g' =>
      obtain rfl : g' = g := hr
      rw [Action.perform, hw.beginCleanup]
      exact ⟨rfl, rfl⟩
    | retire g' => exact absurd (congrArg Action.retire hr) ha
    | _ => exact hr.elim
  · obtain ⟨hregistry, hpending, -⟩ := undisturbed_perform (w := w) hr
    rw [hregistry, hpending, (Action.idle_of_not_restructures hr w).2]
    exact ⟨rfl, rfl⟩

/-- From a moment at which a collector is stopped to a later one before it is resumed. -/
theorem Halted.frozen (hw : w.Halted g) (hr : .resume g ∉ as) (ht : .retire g ∉ as) :
    (∀ h, w.Registered g h → (w.performs as).Registered g h) ∧
      ((w.performs as).collector g).registry.size =
        (w.collector g).registry.size + w.registrations g as ∧
      ((w.performs as).collector g).pending = (w.collector g).pending + w.registrations g as := by
  induction as generalizing w with
  | nil => exact ⟨fun _ hh => hh, rfl, rfl⟩
  | cons a as ih =>
    rw [List.mem_cons, not_or] at hr ht
    obtain ⟨hregistered, hsize, hpending⟩ := ih (hw.perform (Ne.symm hr.1)) hr.2 ht.2
    obtain ⟨hsize', hpending'⟩ := hw.counts_perform (Ne.symm ht.1)
    refine ⟨fun h hh => hregistered h (hw.registered_perform (Ne.symm ht.1) hh), ?_, ?_⟩
    · rw [Heap.performs, hsize, hsize', registrations, Nat.add_assoc]
    · rw [Heap.performs, hpending, hpending', registrations, Nat.add_assoc]

/-- **Stop freezes a collector, and nobody ever sees it running.** What a program does to its heap, in
all that runs within its steps, is a legal run, and its later steps prolong that run. Now take any run
from an empty heap. Between its actions no collector is running, and every pass starts from an idle
one; while a pass goes on, its collector is running until the sweep, which leaves it idle, whatever
other threads do that need not wait for its lock. And take two moments between the stop of a collector
and its next resumption, before which it is not given up. It is stopped, a cleanup answers zeros and
changes no collector, no action runs a pass over it, every handle that was registered in it is
registered still, and what is registered and what is pending have both grown by the number of accepted
registrations. -/
theorem stop_freezes :
    (∀ depth steps later name spec, let s := (Program.runSteps depth steps (.start name spec)).2
      ∃ as bs, (initial 1).Legal (as ++ bs) ∧ s.heap = (initial 1).performs as ∧
        (Program.runSteps depth later s).2.heap = (initial 1).performs (as ++ bs)) ∧
    (∀ (n : Nat) (as : List Action) (g : CollectorId), let w := (initial n).performs as
      (w.collector g).state ≠ .running ∧
        (∀ a : Action, a.PassesOver w g → (w.collector g).state = .idle) ∧
        (g < w.collectors.length → ∀ moves, Passing.Admits g moves →
          let s := (Passing.start w g).play g moves
          ((∀ result, s.phase ≠ .done result) → (s.heap.collector g).state = .running) ∧
            (s.Sweeps → ((s.advance g).heap.collector g).state = .idle))) ∧
    ∀ (n : Nat) (before earlier later : List Action) (g : CollectorId),
      let w := (initial n).performs (before ++ .stop g :: earlier)
      let w' := w.performs later
      g < ((initial n).performs before).collectors.length →
      .resume g ∉ earlier ++ later → .retire g ∉ earlier ++ later →
      (w'.collector g).state = .stopped ∧
        (∀ (run : Runner) (s : Session), s.heap = w' →
          (s.cleanup run g).1 = .none ∧ (s.cleanup run g).2.heap.collectors = w'.collectors) ∧
        (∀ a : Action, ¬ a.PassesOver w' g) ∧
        (∀ h, w.Registered g h → w'.Registered g h) ∧
        (w'.collector g).registry.size = (w.collector g).registry.size + w.registrations g later ∧
        (w'.collector g).pending = (w.collector g).pending + w.registrations g later := by
  refine ⟨Program.runSteps_legal, fun n as g => ?_, ?_⟩
  · intro w
    have hw : (w.collector g).state ≠ .running :=
      state_ne_running_performs (by rw [state_initial]; decide) as
    refine ⟨hw, fun a hp => idle_of_passesOver hw hp, fun hg moves ha => ⟨fun hn => ?_, ?_⟩⟩
    · exact ((Passing.running_play hg ha).resolve_left fun ⟨result, hd⟩ => hn result hd).2
    · exact Passing.idle_of_sweeps hg ha
  · intro n before earlier later g w w' hg hresume hretire
    rw [List.mem_append, not_or] at hresume hretire
    have hw : w.Halted g := by
      show ((initial n).performs (before ++ .stop g :: earlier)).Halted g
      rw [performs_append]
      exact (halted_stop hg).performs hresume.1
    have hw' : w'.Halted g := hw.performs hresume.2
    refine ⟨hw'.state, ?_, hw'.not_passesOver, hw.frozen hresume.2 hretire.2⟩
    intro run s hs
    rw [← hs] at hw' ⊢
    exact hw'.cleanup run

/-- With step two and one registration pending, the second one is due, but its initialiser stops the
collector. That registration and another one are counted without a pass, and the object that nobody
holds any more stays registered through a cleanup. -/
theorem stop_freezes_of_initialiser :
    let x (n : Nat) : Holder := ⟨.fresh n, .whole⟩
    let before : List Action := [.addCollector 2, .allocate .node, .clone (x 0), .register 0 (x 0),
      .drop (x 0), .allocate .node]
    let later : List Action := [.clone (x 1), .register 0 (x 1), .allocate .node, .clone (x 2),
      .register 0 (x 2), .cleanup 0]
    let w := (initial 1).performs (before ++ [.stop 0])
    let w' := w.performs later
    (initial 1).Legal (before ++ .stop 0 :: later) ∧ w.Registered 0 (.fresh 0) ∧
      (w'.collector 0).state = .stopped ∧ w'.Registered 0 (.fresh 0) ∧
      w.registrations 0 later = 2 ∧ (w'.collector 0).step = 2 ∧
      (w'.collector 0).registry.size = 3 ∧ (w'.collector 0).pending = 3 := by
  intro x before later w w'
  have hr : w.Registered 0 (.fresh 0) := by rw [Registered]; decide +kernel
  have hsize : (w.collector 0).registry.size = 1 := by decide +kernel
  have hpending : (w.collector 0).pending = 1 := by decide +kernel
  have hcount : w.registrations 0 later = 2 := by decide +kernel
  obtain ⟨hs, -, -, hkept, hsize', hpending'⟩ := stop_freezes.2.2 1 before [] later 0
    (by decide +kernel) (by simp [later]) (by simp [later])
  exact ⟨by decide +kernel, hr, hs, hkept _ hr, hcount, by decide +kernel,
    hsize'.trans (by rw [hsize, hcount]), hpending'.trans (by rw [hpending, hcount])⟩

end Heap

end SharedHeap
