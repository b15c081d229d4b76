import SharedHeap.Proofs.Conservation
import SharedHeap.Proofs.Stopped

/-! # When passes run

A registration runs a pass when it would reach the step, and is itself counted only after that. So a
collector that is left to itself has its first pass at the registration of the number of its step,
and then one every step less one: each pass leaves the object pending that ran it. With step one every
registration runs a pass. What is held, linked, dropped or resumed meanwhile makes no difference. -/

namespace SharedHeap

open Heap

/-! ## The schedule -/

/-- How many passes the first `n` registrations run in a collector of step `S`. -/
def passesBy (S n : Nat) : Nat := if S = 1 then n else (n - 1) / (S - 1)

/-- How many registrations are pending after the first `n`. -/
def pendingAfter (S n : Nat) : Nat :=
  if n = 0 then 0 else if S = 1 then 1 else (n - 1) % (S - 1) + 1

section

variable {S n : Nat}

/-- A registration that reaches the step runs one more pass, and is pending alone. -/
theorem schedule_of_due (hS : 1 ≤ S) (h : S ≤ pendingAfter S n + 1) :
    passesBy S (n + 1) = passesBy S n + 1 ∧ pendingAfter S (n + 1) = 1 := by
  unfold passesBy pendingAfter at *
  by_cases hone : S = 1
  · simp [hone]
  cases n with
  | zero => simp at h; omega
  | succ m =>
    simp only [if_neg hone, Nat.add_one_ne_zero, if_false, Nat.add_sub_cancel] at h ⊢
    have hlt : m % (S - 1) < S - 1 := Nat.mod_lt m (by omega)
    have hdiv := Nat.div_add_mod m (S - 1)
    obtain ⟨hq, hr⟩ := (Nat.div_mod_unique (a := m + 1) (b := S - 1) (c := 0) (d := m / (S - 1) + 1)
      (by omega)).mpr ⟨by rw [Nat.mul_add_one]; omega, by omega⟩
    exact ⟨hq, congrArg (· + 1) hr⟩

/-- Any other is one more that is pending. -/
theorem schedule_of_not_due (hS : 1 ≤ S) (h : ¬ S ≤ pendingAfter S n + 1) :
    passesBy S (n + 1) = passesBy S n ∧ pendingAfter S (n + 1) = pendingAfter S n + 1 := by
  unfold passesBy pendingAfter at *
  have hone : S ≠ 1 := by
    rintro rfl
    simp at h
  cases n with
  | zero => simp [hone]
  | succ m =>
    simp only [if_neg hone, Nat.add_one_ne_zero, if_false, Nat.add_sub_cancel] at h ⊢
    have hdiv := Nat.div_add_mod m (S - 1)
    obtain ⟨hq, hr⟩ := (Nat.div_mod_unique (a := m + 1) (b := S - 1) (c := m % (S - 1) + 1)
      (d := m / (S - 1)) (by omega)).mpr ⟨by omega, by omega⟩
    exact ⟨hq, congrArg (· + 1) hr⟩

end

/-! ## What the schedule depends on -/

/-- The action starts the count of a collector again, stops it, changes its step or gives it up. -/
def Action.Directs (g : CollectorId) : Action → Prop
  | cleanup g' | stop g' | setStep g' _ | retire g' => g' = g
  | _ => False

instance (g : CollectorId) : (a : Action) → Decidable (a.Directs g)
  | .cleanup g' | .stop g' | .setStep g' _ | .retire g' => inferInstanceAs (Decidable (g' = g))
  | .allocate _ | .clone _ | .drop _ | .touch _ _ | .addCollector _ | .register _ _ | .get _ _ _
  | .getObject _ _ | .resume _ | .release _ | .close _ | .registryInsert _ _ | .registryErase _ _
  | .registryRetain _ _ | .report _ => inferInstanceAs (Decidable False)

namespace Heap

variable {w : Heap} {a : Action} {g : CollectorId}

theorem step_perform (hg : g < w.collectors.length) (hr : ¬ a.Restructures g)
    (hd : ¬ a.Directs g) : ((a.perform w).collector g).step = (w.collector g).step := by
  cases a with
  | register g' x =>
    have hne : g ≠ g' := fun he => hr he.symm
    rw [Action.perform, collector_register_of_ne w x hne]
  | cleanup g' =>
    have hne : g ≠ g' := fun he => hr he.symm
    rw [Action.perform, collector_beginCleanup_of_ne w hne]
  | retire g' =>
    exact congrArg Collector.step (collector_modifyCollector_of_ne w (show g' ≠ g from hr) _)
  | stop g' =>
    exact congrArg Collector.step (collector_modifyCollector_of_ne w (show g' ≠ g from hd) _)
  | setStep g' n =>
    exact congrArg Collector.step (collector_modifyCollector_of_ne w (show g' ≠ g from hd) _)
  | resume g' =>
    exact apply_modifyCollector (f := Collector.step) (m := fun c => { c with state := .idle })
      (fun _ => rfl) w g' g
  | addCollector n =>
    rw [Action.perform, addCollector, collector, List.getElem?_append_left hg, collector]
  | close q => exact apply_closeQueue (f := Collector.step) (fun _ _ _ _ => rfl) w q g
  | get g' kind k => simp only [Action.perform]; cases w.lookup g' kind k <;> rfl
  | getObject g' k => simp only [Action.perform]; cases w.lookupBase g' k <;> rfl
  | registryErase r k => simp only [Action.perform, registryErase]; split <;> rfl
  | _ => rfl

/-- An idle collector that is not stopped stays idle. -/
theorem idle_perform (hg : g < w.collectors.length) (hidle : (w.collector g).state = .idle)
    (hd : ¬ a.Directs g) : ((a.perform w).collector g).state = .idle := by
  by_cases hr : a = .resume g
  · subst hr
    exact congrArg Collector.state (collector_modifyCollector_self hg _)
  · rw [state_perform (fun _ => by rw [hidle]; exact CollectorState.noConfusion) ?_ hr, hidle]
    rintro rfl
    exact hd rfl

/-- An action that finds its lock free does not name a collector that is yet to be made. -/
theorem lock?_ne_of_each {as : List Action} (hfree : w.Each Action.FindsFree as) (ha : a ∈ as) :
    a.lock? ≠ some (w.performs as).collectors.length := by
  obtain ⟨before, after, rfl⟩ := List.append_of_mem ha
  intro hlock
  have hlt := ((each_append.mp hfree).2.1 _ hlock).1
  have hle := length_le_performs (w.performs before) (a :: after)
  rw [← performs_append] at hle
  exact absurd hlt (Nat.not_lt.mpr hle)

end Heap

/-! ## Collectors on schedule -/

namespace Books

variable {b : Books} {e : Posting} {g : CollectorId} {l : Ledger} {S : Nat}

/-- The collector is between passes, and what it counted is what the schedule says of a ledger. -/
structure OnSchedule (S : Nat) (b : Books) (g : CollectorId) (l : Ledger) : Prop where
  lt_length : g < b.heap.collectors.length
  step : (b.heap.collector g).step = S
  state : (b.heap.collector g).state = .idle
  passes : l.passes.length = passesBy S l.registrations
  pending : (b.heap.collector g).pending = pendingAfter S l.registrations

/-- Only the two totals change when a pass is counted. -/
theorem OnSchedule.count {c : Collector} {n m : Nat} (b' : Books) (ho : b.OnSchedule S g l)
    (hc : b.heap.collectors[g]? = some c)
    (hc' : b'.heap.collectors[g]? = some { c with collectionsRun := n, objectsSwept := m }) :
    b'.OnSchedule S g l := by
  obtain ⟨-, hstep, hstate, hpasses, hpending⟩ := ho
  rw [collector_eq hc] at hstep hstate hpending
  refine ⟨(List.getElem?_eq_some_iff.mp hc').1, ?_, ?_, hpasses, ?_⟩ <;> rw [collector_eq hc']
  · exact hstep
  · exact hstate
  · exact hpending

/-- An idle collector keeps its schedule when an object is registered. -/
theorem OnSchedule.register (hS : 1 ≤ S) (ho : b.OnSchedule S g l) {x : Holder}
    (hr : (l.next b g (.action (.register g x))).refusals = l.refusals) :
    OnSchedule S (Posting.perform b (.action (.register g x))) g
      (l.next b g (.action (.register g x))) := by
  obtain ⟨hg, hstep, hstate, hpasses, hpending⟩ := ho
  have hc := List.getElem?_eq_getElem hg
  have hacc : (b.heap.register g x).1.isAccepted = true := by
    simpa [Ledger.next, Action.refuses] using hr
  obtain ⟨r, n, hcol, hdue, hnot⟩ := collector_register_of_accepted hc hacc
  rw [collector_eq hc] at hstep hstate hpending
  have hdue_iff : b.heap.PassDue g ↔ S ≤ pendingAfter S l.registrations + 1 := by
    rw [PassDue, collector_eq hc, Collector.isDue, hstep, hpending, decide_eq_true_iff]
    exact and_iff_left hstate
  have hlength : g < (b.heap.register g x).2.collectors.length := by rwa [length_register]
  have hregistrations :
      (l.next b g (.action (.register g x))).registrations = l.registrations + 1 := by
    simp [Ledger.next, Action.registers, hacc]
  have hcount : (l.next b g (.action (.register g x))).passes.length =
      ((b.heap.duePass g).1.map (·.1)).toList.length + l.passes.length := by
    simp [Ledger.next, Action.pass?]
  refine ⟨hlength, (congrArg Collector.step hcol).trans hstep,
    (congrArg Collector.state hcol).trans hstate, ?_, (congrArg Collector.pending hcol).trans ?_⟩ <;>
    rw [hregistrations]
  · rw [hcount, hpasses]
    by_cases hd : b.heap.PassDue g
    · rw [(schedule_of_due hS (hdue_iff.mp hd)).1, duePass_of_due hd]
      exact Nat.add_comm 1 _
    · rw [(schedule_of_not_due hS (mt hdue_iff.mpr hd)).1, duePass_of_not_due hd]
      exact Nat.zero_add _
  · by_cases hd : b.heap.PassDue g
    · exact (hdue hd).trans (schedule_of_due hS (hdue_iff.mp hd)).2.symm
    · rw [(schedule_of_not_due hS (mt hdue_iff.mpr hd)).2, ← hpending]
      exact hnot hd

/-- What one posting does to a collector on schedule, if it does not direct it. -/
theorem OnSchedule.perform (hS : 1 ≤ S) (hs : b.Sound) (ho : b.OnSchedule S g l) (he : e.Enabled b)
    (hd : ∀ a, e = .action a → ¬ a.Directs g) (hr : (l.next b g e).refusals = l.refusals) :
    (e.perform b).OnSchedule S g (l.next b g e) := by
  have hc := List.getElem?_eq_getElem ho.lt_length
  cases e with
  | action a =>
    have hd := hd a rfl
    by_cases hrestructures : a.Restructures g
    · cases a with
      | register g' x =>
        obtain rfl : g' = g := hrestructures
        exact ho.register hS hr
      | cleanup g' | retire g' => exact absurd hrestructures hd
      | _ => exact hrestructures.elim
    · obtain ⟨hpass, hregisters⟩ := Action.idle_of_not_restructures hrestructures b.heap
      refine ⟨Nat.lt_of_lt_of_le ho.lt_length (length_perform_le b (.action a)),
        (step_perform ho.lt_length hrestructures hd).trans ho.step,
        idle_perform ho.lt_length ho.state hd, ?_, ?_⟩ <;>
        simp only [Ledger.next, hpass, hregisters]
      · exact ho.passes
      · exact (undisturbed_perform hrestructures).pending.trans ho.pending
  | countPass q =>
    obtain ⟨-, p, hp, rfl, -⟩ := he
    exact ho.count _ hc (collector_countPass hc (hs.numbered.queue?_eq hp))
  | countSwept q =>
    obtain ⟨p, hp, rfl, -⟩ := hs.counted q he
    exact ho.count _ hc (collector_countSwept hc (hs.numbered.queue?_eq hp))

theorem OnSchedule.performs {es : List Posting} (hS : 1 ≤ S) (hs : b.Sound)
    (ho : b.OnSchedule S g l) (hallows : b.Allows es)
    (hd : ∀ a, .action a ∈ es → ¬ a.Directs g)
    (hr : (Ledger.along g l b es).refusals = l.refusals) :
    (b.performs es).OnSchedule S g (Ledger.along g l b es) :=
  hs.invariant (I := fun b l => b.OnSchedule S g l)
    (P := fun e => ∀ a, e = .action a → ¬ a.Directs g)
    (fun hs ho he hd hr => ho.perform hS hs he hd hr) ho hallows (fun _ he a ha => hd a (ha ▸ he)) hr

theorem onSchedule_addCollector (b : Books) (step : Nat) :
    OnSchedule (max step 1) (Posting.perform b (.action (.addCollector step)))
      b.heap.collectors.length {} := by
  have hcol : (Posting.perform b (.action (.addCollector step))).heap.collector
      b.heap.collectors.length = .withStep step := by
    simp [Posting.perform, Action.perform, addCollector, collector]
  refine ⟨by simp [Posting.perform, Action.perform, addCollector], ?_, ?_, ?_, ?_⟩
  · rw [hcol]; rfl
  · rw [hcol]; rfl
  · simp [passesBy]
  · rw [hcol]; rfl

/-- **The schedule of passes.** What a program does to its heap, unless it gets stuck, is a way to keep
the books that leaves no pass unfinished, and it names no collector before it is made. Now take any
collector, of step `S`, from the moment it is made to any moment before somebody cleans it up, stops
it, sets its step or gives it up. Whatever happens meanwhile, let only no registration in it be refused,
and let there be `k` of them. Once no pass is unfinished, `(k - 1) / (S - 1)` passes are counted, or `k`
if `S` is one, and what was registered is registered or counted as swept. At any moment
`(k - 1) % (S - 1) + 1` registrations are pending, or one if `S` is one, and what is not counted of the
passes and of what they swept is left to be counted. -/
theorem trigger_schedule :
    (∀ depth steps name spec, let s := (Program.runSteps depth steps (.start name spec)).2
      s.stuck = false →
      ∃ es, Allows ⟨initial 1, []⟩ es ∧ performs ⟨initial 1, []⟩ es = ⟨s.heap, []⟩ ∧
        (∀ g, unfinished ⟨s.heap, []⟩ g = []) ∧
        ∀ before step after, es = before ++ .action (.addCollector step) :: after →
          ∀ a, .action a ∈ before →
            a.lock? ≠ some (performs ⟨initial 1, []⟩ before).heap.collectors.length) ∧
    ∀ (n : Nat) (before : List Posting) (step : Nat) (postings : List Posting),
      let start : Books := ⟨initial n, []⟩
      let g := (start.performs before).heap.collectors.length
      let b := start.performs (before ++ [.action (.addCollector step)])
      let ledger := Ledger.along g {} b postings
      let now := b.performs postings
      let c := now.heap.collector g
      let S := max step 1
      let k := ledger.registrations
      start.Allows (before ++ .action (.addCollector step) :: postings) →
      (∀ a, .action a ∈ before → a.lock? ≠ some g) →
      (∀ a, .action a ∈ postings → ¬ a.Directs g) →
      ledger.refusals = 0 → 1 ≤ k →
      (now.unfinished g = [] →
        (2 ≤ S → c.collectionsRun = (k - 1) / (S - 1)) ∧ (S = 1 → c.collectionsRun = k) ∧
          c.registry.size + c.objectsSwept = k) ∧
      (2 ≤ S → c.pending = (k - 1) % (S - 1) + 1) ∧ (S = 1 → c.pending = 1) ∧
      c.collectionsRun + (now.uncounted g).length = passesBy S k ∧
      c.registry.size + c.objectsSwept + sweptBy (now.unfinished g) = k := by
  constructor
  · intro depth steps name spec s hstuck
    obtain ⟨as, hran⟩ := Program.runSteps_ran depth steps name spec
    obtain ⟨horderly, hqueues⟩ := hran.orderly hstuck
    obtain ⟨hallows, hperforms⟩ := allows_of_legal hran.legal
    have hnone : ∀ g, unfinished ⟨s.heap, []⟩ g = [] := fun g => by
      rw [unfinished, show s.heap.queues = [] from hqueues]
      rfl
    refine ⟨as.map .action, hallows, hran.heap ▸ hperforms, hnone, ?_⟩
    intro before step after hsplit a ha
    obtain ⟨first, rest, rfl, rfl, -⟩ := List.map_eq_append_iff.mp hsplit
    obtain ⟨a', ha', he⟩ := List.mem_map.mp ha
    obtain rfl := Posting.action.inj he
    rw [(allows_of_legal ((legal_append _ first rest).mp hran.legal).1).2]
    exact lock?_ne_of_each ((each_append.mp horderly).1.imp fun _ _ h => h.findsFree) ha'
  · intro n before step postings start g b ledger now c S k hallows hbefore hd hrefusals hk
    obtain ⟨hbefore', hadd, hpostings⟩ := (allows_append start before _).mp hallows
    obtain ⟨hs, hf⟩ := (sound_initial n).performs (founded_initial n) hbefore'
    have hb : b = Posting.perform (start.performs before) (.action (.addCollector step)) :=
      performs_append start before _
    have hsound : b.Sound := by rw [hb]; exact hs.perform hadd
    have hallowed : b.Allows postings := by rw [hb]; exact hpostings
    -- no pass is open over a collector that nobody named before
    have hopening : b.opening g = {} := by
      have hnone : b.unfinished g = [] := by
        have hbegun := unfinished_performs (sound_initial n) rfl hbefore' hbefore
        rw [show b = _ from performs_append start before _]
        exact unfinished_performs hs hbegun ⟨hadd, trivial⟩ (by simp [Action.lock?])
      have hnothing : b.uncounted g = [] := List.sublist_nil.mp (hnone ▸ uncounted_sublist b g)
      rw [opening, hnothing]
    have hagree : b.Agree g {} := by rw [← hopening, hb]; exact agree_opening hf step
    have hschedule : b.OnSchedule S g {} := by rw [hb]; exact onSchedule_addCollector _ step
    have hretire : .action (.retire g) ∉ postings := fun hm => hd _ hm rfl
    obtain ⟨-, hsize, hrun, hswept⟩ := hagree.performs hsound hallowed hretire hrefusals
    obtain ⟨-, -, -, hpasses, hpending⟩ :=
      hschedule.performs (Nat.le_max_right step 1) hsound hallowed hd hrefusals
    have htotal : c.collectionsRun + (now.uncounted g).length = passesBy S k := hrun.trans hpasses
    have hbalance : c.registry.size + c.objectsSwept + sweptBy (now.unfinished g) = k := by
      rw [Nat.add_assoc, hswept]
      exact hsize
    have hpos : k ≠ 0 := Nat.one_le_iff_ne_zero.mp hk
    refine ⟨fun hnone => ?_, fun hS => ?_, fun hS => ?_, htotal, hbalance⟩
    · have hnothing : now.uncounted g = [] := List.sublist_nil.mp (hnone ▸ uncounted_sublist now g)
      rw [hnothing] at htotal
      rw [hnone] at hbalance
      exact ⟨fun hS => htotal.trans (if_neg (by omega)), fun hS => htotal.trans (if_pos hS), hbalance⟩
    · exact hpending.trans ((if_neg hpos).trans (if_neg (by omega)))
    · exact hpending.trans ((if_neg hpos).trans (if_pos hS))

/-- With step three, five objects of which each but the last is dropped again: the third and the fifth
registration run a pass, and each pass sweeps the two objects before. -/
theorem trigger_schedule_of_dropped :
    let x (n : Nat) : Holder := ⟨.fresh n, .whole⟩
    let make (n : Nat) : List Action := [.allocate .node, .clone (x n), .register 0 (x n)]
    let finish (q : QueueId) : List Action := [.release q, .release q, .close q]
    let as := make 0 ++ .drop (x 0) :: make 1 ++ .drop (x 1) :: make 2 ++ finish 0 ++
      .drop (x 2) :: make 3 ++ .drop (x 3) :: make 4 ++ finish 1
    let b := performs ⟨initial 1, []⟩ [.action (.addCollector 3)]
    let c := (b.performs (as.map .action)).heap.collector 0
    (Ledger.along 0 {} b (as.map .action)).registrations = 5 ∧ c.registry.size = 1 ∧
      c.collectionsRun = (5 - 1) / (3 - 1) ∧ c.pending = (5 - 1) % (3 - 1) + 1 ∧
      c.registry.size + c.objectsSwept = 5 := by
  intro x make finish as b c
  have hd : ∀ a ∈ as, ¬ a.Directs 0 := by decide +kernel
  obtain ⟨hdone, hpending, -⟩ := trigger_schedule.2 1 [] 3 (as.map .action) (by decide +kernel)
    (by simp) (fun a ha => hd a (by simpa using ha)) (by decide +kernel) (by decide +kernel)
  obtain ⟨hrun, -, hsize⟩ := hdone (by decide +kernel)
  refine ⟨by decide +kernel, by decide +kernel, ?_, ?_, ?_⟩
  · exact (hrun (by decide)).trans (by decide +kernel)
  · exact (hpending (by decide)).trans (by decide +kernel)
  · exact hsize.trans (by decide +kernel)

end Books

end SharedHeap
