import SharedHeap.Proofs.Action

/-! # Open queues

Slots that left a registry wait in a queue until they are released. Queues have numbers of their own,
and the pass that swept the slots is counted when their queue is closed. -/

namespace SharedHeap

/-- The pass over `g` that is counted at the end of a queue. -/
def ReleaseQueue.pass? (p : ReleaseQueue) (g : CollectorId) : Option PassStats :=
  match p.afterwards with
  | .complete g' stats => if g' = g then some stats else none
  | _ => none

/-- The queue ends with giving the lock of `g` back. -/
def ReleaseQueue.unlocks (p : ReleaseQueue) (g : CollectorId) : Bool := p.afterwards = .unlock g

/-- How many slots some passes took out together. -/
def sweptBy (passes : List PassStats) : Nat := passes.foldr (fun stats n => stats.swept + n) 0

theorem sweptBy_append (l l' : List PassStats) : sweptBy (l ++ l') = sweptBy l + sweptBy l' := by
  induction l with
  | nil => simp [sweptBy]
  | cons stats l ih =>
    show stats.swept + sweptBy (l ++ l') = stats.swept + sweptBy l + sweptBy l'
    omega

theorem sweptBy_perm {l l' : List PassStats} (h : l.Perm l') : sweptBy l = sweptBy l' := by
  induction h with
  | nil => rfl
  | cons stats _ ih => exact congrArg (stats.swept + ·) ih
  | swap s t l =>
    show t.swept + (s.swept + sweptBy l) = s.swept + (t.swept + sweptBy l)
    omega
  | trans _ _ ih ih' => exact ih.trans ih'

/-- How many passes were counted, and how many objects they swept. -/
def Collector.counters (c : Collector) : Nat × Nat := (c.collectionsRun, c.objectsSwept)

/-- An action releases a slot, closes a queue, or opens a queue or none. -/
theorem Action.release_or_close (a : Action) :
    (∃ q, a = .release q) ∨ (∃ q, a = .close q) ∨
      (∀ q, a ≠ .release q) ∧ ∀ q, a ≠ .close q := by
  cases a with
  | release q => exact .inl ⟨q, rfl⟩
  | close q => exact .inr (.inl ⟨q, rfl⟩)
  | _ => exact .inr (.inr ⟨fun q h => Action.noConfusion h, fun q h => Action.noConfusion h⟩)

namespace Heap

variable {w v w' : Heap} {g : CollectorId} {a : Action} {p : ReleaseQueue}

/-! ## Opening and closing -/

/-- From `w` to `w'` one queue is opened, with the next number, or none. -/
structure Opens (w w' : Heap) (new : Option ReleaseQueue) : Prop where
  queues : w'.queues = new.toList ++ w.queues
  opened : w'.opened = w.opened + new.toList.length
  id_eq : ∀ p ∈ new, p.id = w.opened

theorem Opens.none (hq : w'.queues = w.queues) (ho : w'.opened = w.opened) : w.Opens w' none :=
  ⟨hq, ho, by simp⟩

theorem Opens.openQueue (v : Heap) (hq : v.queues = w.queues) (ho : v.opened = w.opened)
    (xs : List Holder) (after : Afterwards) :
    w.Opens (v.openQueue xs after).2 (some ⟨w.opened, xs, after⟩) := by
  refine ⟨?_, ?_, by simp⟩
  · simp [Heap.openQueue, hq, ho]
  · simp [Heap.openQueue, ho]

/-- The queue that the rest of a registration opens. If it is refused, the lock is given back there, and
else the pass is counted. -/
theorem opens_enroll (hq : v.queues = w.queues) (ho : v.opened = w.opened) (g : CollectorId)
    (x : Holder) (pass : Option (PassStats × List Holder)) :
    ∃ new, w.Opens (v.enroll g x pass).2 new ∧
      (∀ g', new.bind (·.pass? g') =
        if g = g' ∧ (v.enroll g x pass).1.isAccepted = true then pass.map (·.1) else Option.none) ∧
      ∀ g', new.any (·.unlocks g') = (decide (g = g') && !(v.enroll g x pass).1.isAccepted) := by
  unfold enroll
  cases (v.insertSlot g x).1 with
  | some y =>
    refine ⟨_, .openQueue ((v.insertSlot g x).2.modifyCollector g _) hq ho _ (.unlock g),
      fun g' => ?_, fun g' => ?_⟩
    · simp [refuse, Registration.isAccepted, ReleaseQueue.pass?]
    · simp [refuse, Registration.isAccepted, ReleaseQueue.unlocks]
  | none =>
    simp only [isAccepted_accept, Bool.not_true, Bool.and_false, and_true]
    cases pass with
    | none => exact ⟨_, .none hq ho, fun g' => by simp, fun g' => rfl⟩
    | some pass =>
      refine ⟨_, .openQueue (((v.insertSlot g x).2.modifyCollector g _).emit _) hq ho pass.2
        (.complete g pass.1), fun g' => rfl, fun g' => ?_⟩
      simp [ReleaseQueue.unlocks]

/-- The queue that a registration in `g` opens, the pass that is counted at its end, and the lock that
is given back there. -/
theorem opens_register (w : Heap) (g : CollectorId) (x : Holder) :
    ∃ new, w.Opens (w.register g x).2 new ∧
      (∀ g', new.bind (·.pass? g') =
        if (Action.register g x).refuses w g' then Option.none
        else (Action.register g x).pass? w g') ∧
      ∀ g', new.any (·.unlocks g') = (Action.register g x).refuses w g' := by
  obtain ⟨-, -, -, hq, -, ho, -⟩ := duePass_frame w g
  obtain ⟨new, hnew, hpass, hunlocks⟩ := opens_enroll hq ho g x (w.duePass g).1
  rw [← register_eq_enroll] at hnew hpass hunlocks
  refine ⟨new, hnew, fun g' => (hpass g').trans ?_, fun g' => (hunlocks g').trans ?_⟩
  · by_cases he : g = g'
    · subst he
      cases hacc : (w.register g x).1.isAccepted <;> simp [Action.refuses, Action.pass?, hacc]
    · simp [Action.pass?, he]
  · by_cases he : g = g'
    · subst he
      simp [Action.refuses]
    · simp [Action.refuses, he]

theorem opens_cleanup (w : Heap) (g : CollectorId) :
    ∃ new, w.Opens (w.beginCleanup g).2 new ∧
      (∀ g', new.bind (·.pass? g') = (Action.cleanup g).pass? w g') ∧
      ∀ g', new.any (·.unlocks g') = false := by
  have hpass : ∀ g', (Action.cleanup g).pass? w g' =
      if g = g' then (w.beginCleanup g).1.map (·.1) else Option.none := by
    intro g'
    by_cases he : g = g' <;> simp [Action.pass?, he]
  simp only [hpass]
  unfold beginCleanup
  split
  · exact ⟨_, .none rfl rfl, fun g' => by simp, fun g' => rfl⟩
  · refine ⟨_, .openQueue (w := w) (w.runPass g).2 rfl rfl _ (.complete g (w.runPass g).1.1),
      fun g' => rfl, fun g' => ?_⟩
    simp [ReleaseQueue.unlocks]

/-- An action that neither releases nor closes opens one queue or none. A pass that it runs is
counted when that queue is closed, unless the action is a registration that is refused: then the lock
is given back. -/
theorem opens_perform (hr : ∀ q, a ≠ .release q) (hc : ∀ q, a ≠ .close q) :
    ∃ new, w.Opens (a.perform w) new ∧
      (∀ g, new.bind (·.pass? g) = if a.refuses w g then Option.none else a.pass? w g) ∧
      ∀ g, new.any (·.unlocks g) = a.refuses w g := by
  have hnothing : ∀ (id : QueueId) (xs : List Holder) (g : CollectorId),
      (some (⟨id, xs, .nothing⟩ : ReleaseQueue)).any (·.unlocks g) = false := fun _ _ _ => by
    simp [ReleaseQueue.unlocks]
  cases a with
  | register g x => exact opens_register w g x
  | cleanup g => exact opens_cleanup w g
  | retire g =>
    exact ⟨_, .openQueue (w := w) (w.modifyCollector g _) rfl rfl _ .nothing, fun _ => rfl,
      hnothing _ _⟩
  | registryRetain r keep =>
    exact ⟨_, .openQueue (w := w) (w.setRegistry r _) rfl rfl _ .nothing, fun _ => rfl,
      hnothing _ _⟩
  | registryErase r h =>
    simp only [Action.perform, registryErase]
    split
    · exact ⟨_, .none rfl rfl, fun _ => rfl, fun _ => rfl⟩
    · exact ⟨_, .openQueue (w := w) (w.setRegistry r _) rfl rfl _ .nothing, fun _ => rfl,
        hnothing _ _⟩
  | get g kind h =>
    simp only [Action.perform]
    cases w.lookup g kind h <;> exact ⟨_, .none rfl rfl, fun _ => rfl, fun _ => rfl⟩
  | getObject g h =>
    simp only [Action.perform]
    cases w.lookupBase g h <;> exact ⟨_, .none rfl rfl, fun _ => rfl, fun _ => rfl⟩
  | release q => exact absurd rfl (hr q)
  | close q => exact absurd rfl (hc q)
  | _ => exact ⟨_, .none rfl rfl, fun _ => rfl, fun _ => rfl⟩

/-- The queue that a registration hands back is the latest one. -/
theorem queues_register (w : Heap) (g : CollectorId) (x : Holder) :
    match w.register g x with
    | (.accepted .none, v) => v.queues = w.queues
    | (.accepted (some q), v) => ∃ xs stats, v.queues = ⟨q, xs, .complete g stats⟩ :: w.queues
    | (.refused q, v) => ∃ xs, v.queues = ⟨q, xs, .unlock g⟩ :: w.queues := by
  have hq : (w.duePass g).2.queues = w.queues := (duePass_frame w g).2.2.2.1
  rw [register_eq, ← hq]
  cases ((w.duePass g).2.insertSlot g x).1 with
  | some y => exact ⟨y :: w.dueSwept g, rfl⟩
  | none =>
    cases (w.duePass g).1 with
    | none => rfl
    | some pass => exact ⟨pass.2, pass.1, rfl⟩

/-- So is the queue that a cleanup hands back. -/
theorem queues_beginCleanup (w : Heap) (g : CollectorId) :
    match w.beginCleanup g with
    | (.none, v) => v.queues = w.queues
    | (some (stats, q), v) => ∃ xs, v.queues = ⟨q, xs, .complete g stats⟩ :: w.queues := by
  unfold beginCleanup
  by_cases hs : (w.collector g).state = .stopped
  · rw [if_pos hs]
    rfl
  · rw [if_neg hs]
    exact ⟨(w.runPass g).1.2, rfl⟩

/-- The release of a slot keeps the numbers of the queues and what is done at their ends. -/
theorem queues_releaseNext (w : Heap) (q : QueueId) :
    ∃ f : ReleaseQueue → ReleaseQueue, (w.releaseNext q).queues = w.queues.map f ∧
      (∀ p, (f p).id = p.id) ∧ ∀ p, (f p).afterwards = p.afterwards := by
  refine ⟨fun p => if p.id == q then { p with waiting := p.waiting.tail } else p, rfl,
    fun p => ?_, fun p => ?_⟩ <;> dsimp only <;> split <;> rfl

theorem queues_closeQueue (w : Heap) (q : QueueId) :
    (w.closeQueue q).queues = w.queues.filter (·.id != q) ∧ (w.closeQueue q).opened = w.opened := by
  unfold closeQueue
  split
  · rename_i hq
    refine ⟨(List.filter_eq_self.mpr fun p hp => ?_).symm, rfl⟩
    simpa using List.find?_eq_none.mp hq p hp
  · split <;> exact ⟨rfl, rfl⟩

/-! ## Numbers -/

/-- No two open queues have the same number, and the next number is free. -/
structure Numbered (w : Heap) : Prop where
  nodup : (w.queues.map (·.id)).Nodup
  lt_opened : ∀ p ∈ w.queues, p.id < w.opened

theorem numbered_initial (n : Nat) : (initial n).Numbered := ⟨List.nodup_nil, by simp [initial]⟩

theorem Numbered.opens {new : Option ReleaseQueue} (hn : w.Numbered) (ho : w.Opens w' new) :
    w'.Numbered := by
  obtain ⟨hq, hopened, hid⟩ := ho
  cases new with
  | none => exact ⟨by rw [hq]; exact hn.nodup, by rw [hq, hopened]; exact hn.lt_opened⟩
  | some p =>
    have hp : p.id = w.opened := hid p rfl
    have hopened : w'.opened = w.opened + 1 := hopened
    refine ⟨?_, fun r hr => ?_⟩
    · rw [hq]
      refine List.nodup_cons.mpr ⟨fun hm => ?_, hn.nodup⟩
      obtain ⟨r, hr, he⟩ := List.mem_map.mp hm
      exact absurd (he.trans hp) (Nat.ne_of_lt (hn.lt_opened r hr))
    · rw [hopened]
      rw [hq] at hr
      rcases List.mem_cons.mp hr with rfl | hr
      · exact hp ▸ Nat.lt_succ_self _
      · exact Nat.lt_succ_of_lt (hn.lt_opened r hr)

theorem Numbered.releaseNext (hn : w.Numbered) (q : QueueId) : (w.releaseNext q).Numbered := by
  obtain ⟨f, hq, hid, -⟩ := queues_releaseNext w q
  refine ⟨?_, fun p hp => ?_⟩
  · have hids : (w.queues.map f).map (·.id) = w.queues.map (·.id) := by
      rw [List.map_map]
      exact List.map_congr_left fun p _ => hid p
    rw [hq, hids]
    exact hn.nodup
  · rw [hq] at hp
    obtain ⟨r, hr, rfl⟩ := List.mem_map.mp hp
    rw [hid]
    exact hn.lt_opened r hr

theorem Numbered.closeQueue (hn : w.Numbered) (q : QueueId) : (w.closeQueue q).Numbered := by
  obtain ⟨hq, ho⟩ := queues_closeQueue w q
  refine ⟨?_, fun p hp => ?_⟩
  · rw [hq]
    exact hn.nodup.sublist (List.filter_sublist.map _)
  · rw [hq] at hp
    rw [ho]
    exact hn.lt_opened p (List.mem_of_mem_filter hp)

theorem Numbered.perform (hn : w.Numbered) (a : Action) : (a.perform w).Numbered := by
  obtain ⟨q, rfl⟩ | ⟨q, rfl⟩ | ⟨hr, hc⟩ := a.release_or_close
  · exact hn.releaseNext q
  · exact hn.closeQueue q
  · obtain ⟨new, hnew, -⟩ := opens_perform (w := w) hr hc
    exact hn.opens hnew

/-- Every run keeps the numbers of queues apart. -/
theorem Numbered.performs (hn : w.Numbered) (as : List Action) : (w.performs as).Numbered := by
  induction as generalizing w with
  | nil => exact hn
  | cons a as ih => exact ih (hn.perform a)

theorem Numbered.queue?_eq (hn : w.Numbered) (hp : p ∈ w.queues) : w.queue? p.id = some p := by
  unfold queue?
  have hnodup := hn.nodup
  generalize w.queues = ps at hp hnodup
  induction ps with
  | nil => cases hp
  | cons r rest ih =>
    rw [List.map_cons, List.nodup_cons] at hnodup
    rcases List.mem_cons.mp hp with rfl | hp
    · simp
    · have hne : r.id ≠ p.id := fun he => hnodup.1 (he ▸ List.mem_map_of_mem hp)
      rw [List.find?_cons_of_neg (by simpa using hne)]
      exact ih hp hnodup.2

/-- An open queue and the others. -/
theorem Numbered.perm_filter (hn : w.Numbered) (hp : p ∈ w.queues) :
    w.queues.Perm (p :: w.queues.filter (·.id != p.id)) := by
  have hnodup := hn.nodup
  generalize w.queues = ps at hp hnodup
  induction ps with
  | nil => cases hp
  | cons r rest ih =>
    rw [List.map_cons, List.nodup_cons] at hnodup
    rcases List.mem_cons.mp hp with rfl | hp
    · have hrest : rest.filter (·.id != p.id) = rest := List.filter_eq_self.mpr fun r hr => by
        have hne : r.id ≠ p.id := fun he => hnodup.1 (he ▸ List.mem_map_of_mem hr)
        simpa using hne
      simp [hrest]
    · have hne : r.id ≠ p.id := fun he => hnodup.1 (he ▸ List.mem_map_of_mem hp)
      rw [List.filter_cons_of_pos (by simpa using hne)]
      exact ((ih hp hnodup.2).cons r).trans (.swap p r _)

/-! ## What lasts until a queue is closed

Passes, registrations and settings work on the registry of a collector, its state, its step and what
is pending. Whatever of a collector depends on none of these stays as it is until a queue is closed,
except that a refused registration keeps the lock. -/

section

variable {α : Type} {f : Collector → α}

/-- Nothing is refused where there is no collector. -/
theorem refuses_of_length_le (hg : w.collectors.length ≤ g) (a : Action) :
    a.refuses w g = false := by
  cases a with
  | register g' x =>
    by_cases he : g' = g
    · subst he
      have hcol : (w.duePass g').2.collector g' = .withStep Collector.defaultStep := by
        rw [collector, List.getElem?_eq_none_iff.mpr (by rwa [(duePass_frame w g').2.2.2.2.2.2])]
        rfl
      have hslot : ((w.duePass g').2.insertSlot g' x).1 = Option.none := by
        show ((w.duePass g').2.collector g').registry.slot? x.handle = Option.none
        rw [hcol]
        rfl
      have hacc : (w.register g' x).1.isAccepted = true := by
        rw [register_eq, hslot]
        exact isAccepted_accept ..
      simp [Action.refuses, hacc]
    · simp [Action.refuses, he]
  | _ => rfl

theorem apply_runPass
    (hf : ∀ (c : Collector) r s n p,
      f { c with registry := r, state := s, step := n, pending := p } = f c)
    (w : Heap) (g g' : CollectorId) : f ((w.runPass g).2.collector g') = f (w.collector g') := by
  have hbegin : f ((w.beginPass g).collector g') = f (w.collector g') :=
    apply_modifyCollector (m := fun c => { c with state := .running }) (fun c => hf c _ _ _ _) w g g'
  rw [← hbegin]
  exact apply_modifyCollector (m := fun c => { c with
    registry := ((((w.beginPass g).collector g).registry).retain
      ((w.beginPass g).markFrom ((w.beginPass g).collector g).registry).marked).2
    state := .idle
    pending := 0 }) (fun c => hf c _ _ _ _) (w.beginPass g) g g'

theorem apply_register
    (hf : ∀ (c : Collector) r s n p,
      f { c with registry := r, state := s, step := n, pending := p } = f c)
    (hg : g < w.collectors.length) (x : Holder) :
    f ((w.register g x).2.collector g) =
      f (if (Action.register g x).refuses w g then { w.collector g with locked := true }
        else w.collector g) := by
  -- the same holds of what `f` makes of a collector whose lock is kept
  have hdue : ∀ {k : Collector → α}, (∀ (c : Collector) r s n p,
      k { c with registry := r, state := s, step := n, pending := p } = k c) →
      k ((w.duePass g).2.collector g) = k (w.collector g) := by
    intro k hk
    by_cases hd : w.PassDue g
    · rw [duePass_of_due hd]
      exact apply_runPass hk _ g g
    · rw [duePass_of_not_due hd]
  have hkept := hdue (k := fun c => f { c with locked := true }) fun c r s n p =>
    hf { c with locked := true } r s n p
  rw [(collector_register hg x).2]
  cases hacc : (w.register g x).1.isAccepted with
  | true =>
    simp only [Action.refuses, hacc, if_true, Bool.not_true, Bool.and_false, Bool.false_eq_true,
      if_false]
    exact (hf ((w.duePass g).2.collector g) _ _ _ _).trans (hdue hf)
  | false =>
    simp only [Action.refuses, hacc, decide_true, Bool.not_false, Bool.and_true, if_true,
      Bool.false_eq_true, if_false]
    refine Eq.trans ?_ hkept
    exact hf { (w.duePass g).2.collector g with locked := true } _ _ _ _

theorem apply_perform
    (hf : ∀ (c : Collector) r s n p,
      f { c with registry := r, state := s, step := n, pending := p } = f c)
    (hc : ∀ q, a ≠ .close q) (g : CollectorId) :
    f ((a.perform w).collector g) =
      f (if a.refuses w g then { w.collector g with locked := true } else w.collector g) := by
  cases a with
  | register g' x =>
    by_cases he : g = g'
    · subst he
      by_cases hg : g < w.collectors.length
      · exact apply_register hf hg x
      · have hnone : ∀ v : Heap, v.collectors.length = w.collectors.length →
            v.collector g = .withStep Collector.defaultStep := by
          intro v hv
          rw [collector, List.getElem?_eq_none_iff.mpr (hv ▸ Nat.le_of_not_lt hg)]
          rfl
        rw [refuses_of_length_le (Nat.le_of_not_lt hg), hnone w rfl, Action.perform,
          hnone _ (length_register w g x)]
        rfl
    · have hne : ¬ g' = g := fun h => he h.symm
      rw [Action.perform, collector_register_of_ne w x he]
      simp [Action.refuses, hne]
  | cleanup g' =>
    simp only [Action.perform, beginCleanup]
    split
    · rfl
    · exact apply_runPass hf w g' g
  | stop g' =>
    exact apply_modifyCollector (m := fun c => { c with state := .stopped }) (fun c => hf c _ _ _ _)
      w g' g
  | resume g' =>
    exact apply_modifyCollector (m := fun c => { c with state := .idle }) (fun c => hf c _ _ _ _)
      w g' g
  | setStep g' n =>
    exact apply_modifyCollector (m := fun c => c.setStep n) (fun c => hf c _ _ _ _) w g' g
  | retire g' =>
    exact apply_modifyCollector (m := fun c => { c with registry := .empty })
      (fun c => hf c _ _ _ _) w g' g
  | addCollector n =>
    -- a new collector differs in its step alone from what is looked up where there is none
    show f (((w.collectors ++ [Collector.withStep n])[g]?).getD _) = f (w.collector g)
    rw [List.getElem?_append, collector]
    split
    · rfl
    · rename_i hg
      rw [List.getElem?_eq_none_iff.mpr (Nat.le_of_not_lt hg)]
      cases hn : [Collector.withStep n][g - w.collectors.length]? with
      | none => rfl
      | some c =>
        obtain rfl : c = Collector.withStep n := by simpa using List.mem_of_getElem? hn
        exact hf (.withStep Collector.defaultStep) _ _ (max n 1) _
  | close q => exact absurd rfl (hc q)
  | get g' kind h => simp only [Action.perform]; cases w.lookup g' kind h <;> rfl
  | getObject g' h => simp only [Action.perform]; cases w.lookupBase g' h <;> rfl
  | registryErase r h => simp only [Action.perform, registryErase]; split <;> rfl
  | _ => rfl

end

/-- Nothing is counted until a queue is closed. -/
theorem counters_perform (hc : ∀ q, a ≠ .close q) (g : CollectorId) :
    ((a.perform w).collector g).counters = (w.collector g).counters := by
  rw [apply_perform (f := Collector.counters) (fun _ _ _ _ _ => rfl) hc]
  split <;> rfl

/-- The end of a queue counts the pass that the queue ends with. -/
theorem counters_closeQueue {q : QueueId}
    (hg : (w.queue? q).bind (·.pass? g) ≠ none → g < w.collectors.length) :
    let pass := ((w.queue? q).bind (·.pass? g)).toList
    ((w.closeQueue q).collector g).counters =
      ((w.collector g).collectionsRun + pass.length,
        (w.collector g).objectsSwept + sweptBy pass) := by
  unfold closeQueue
  cases hq : w.queue? q with
  | none => rfl
  | some p =>
    rw [hq] at hg
    obtain ⟨id, waiting, after⟩ := p
    cases after with
    | complete g' stats =>
      refine (congrArg Collector.counters (collector_modifyCollector _ g' g _)).trans ?_
      by_cases he : g' = g
      · subst he
        rw [if_pos ⟨rfl, hg (by simp [ReleaseQueue.pass?])⟩]
        simp [ReleaseQueue.pass?, sweptBy]
        rfl
      · rw [if_neg fun h => he h.1]
        simp [ReleaseQueue.pass?, he]
        rfl
    | unlock g' =>
      exact apply_modifyCollector (f := Collector.counters) (m := fun c => { c with locked := false })
        (fun _ => rfl) { w with queues := w.queues.filter (·.id != q) } g' g
    | nothing => rfl

end Heap

end SharedHeap
