import SharedHeap.Proofs.Ownership

/-! # What steps are made of

Making collectors and giving them up, registrations and cleanups, creations, and what threads and hosts
do: each part of a step is a sequence of operations, and afterwards the same things are in hand as
before, but for the holders that it takes or hands over. -/

namespace SharedHeap

namespace Program

namespace Session

variable {s : Session} {F G : Hand} {g : CollectorId} {run : Runner}

/-! ## Collectors -/

/-- A lock that is held is that of a collector in use, so a collector can be given up. -/
theorem goes_giveUp (hrun : Honest run) (hg : s.stuck = false → g < s.heap.collectors.length) :
    Goes s F (s.giveUp run g) F := by
  unfold giveUp
  split
  · exact .refl s F
  · rename_i hn
    simp only [Bool.or_eq_true, not_or, List.contains_eq_mem, decide_eq_true_eq] at hn
    refine goes_open hrun (.retire g) ⟨trivial, rfl⟩ (fun hs ho => ?_) trivial
      (fun ho g' hg' h => ?_) rfl (fun _ h => by cases h) rfl
    · intro g' hg'
      obtain rfl : g = g' := Option.some.inj hg'
      refine ⟨hg hs, ?_⟩
      by_contra hlocked
      obtain ⟨p, hp, hu⟩ := ho.sound.guarded.exists_unlocks (g := g) (by simpa using hlocked)
      rw [ho.queues] at hp
      exact hn.2 (ho.inUse ▸ ho.unlocks p hp g hu)
    · obtain rfl : g = g' := Action.retire.inj h
      exact hn.2 ((ho.inOrder (by simpa using hn.1.1)).inUse ▸ hg')

theorem goes_addCollector (s : Session) (n : Nat) :
    Goes s F { s with heap := (s.heap.addCollector (.withStep n)).2 } F :=
  .act (.addCollector n) ⟨trivial, rfl⟩ (fun _ _ => .of_none rfl) (fun _ => trivial) nofun rfl rfl

theorem length_addCollector (w : Heap) (c : Collector) :
    (w.addCollector c).2.collectors.length = w.collectors.length + 1 := by
  simp [Heap.addCollector]

theorem length_addConfigured (w : Heap) (c : Config) :
    (w.addConfigured c).1 < (w.addConfigured c).2.collectors.length := by
  unfold Heap.addConfigured
  dsimp only
  split <;> simp [Heap.addCollector, Heap.emit, Heap.stop, Heap.modifyCollector]

theorem goes_addConfigured (s : Session) (c : Config) :
    Goes s F { s with heap := (s.heap.addConfigured c).2 } F := by
  have hadd : Goes s F { s with heap := (s.heap.addCollector (.withStep c.step)).2 } F :=
    goes_addCollector s c.step
  unfold Heap.addConfigured
  dsimp only
  split
  · -- nobody has the lock of a collector that is new
    have hstop : Goes { s with heap := (s.heap.addCollector (.withStep c.step)).2 } F
        { s with heap := (s.heap.addCollector (.withStep c.step)).2.stop s.heap.collectors.length }
        F := by
      refine .act (.stop s.heap.collectors.length) ⟨trivial, rfl⟩ (fun _ _ g hg => ?_)
        (fun _ => trivial) nofun rfl rfl
      obtain rfl : s.heap.collectors.length = g := Option.some.inj hg
      simp [Heap.addCollector, Heap.collector, Collector.withStep]
    exact (hadd.trans hstop).trans (goes_emit _ rfl)
  · exact hadd.trans (goes_emit _ rfl)

/-- A collector gets a name. -/
theorem goes_name {t : Session} (name : String) (hg : g < t.heap.collectors.length) :
    Goes t F { t with collectors := t.collectors.insert name g } F := by
  refine .of_silent rfl rfl rfl (fun ho => ⟨ho.covers, fun hs => ?_, ho.alone⟩) (F.within _ _)
  obtain ⟨hsound, hqueues, hinUse, hnamed, hlt, hunlocks⟩ := ho.inOrder hs
  refine ⟨hsound, hqueues, hinUse, fun name' g' hg' => ?_, hlt, hunlocks⟩
  have hg' : (t.collectors.insert name g)[name']? = some g' := hg'
  rw [Std.ExtTreeMap.getElem?_insert] at hg'
  split at hg'
  · cases hg'
    exact hg
  · exact hnamed name' g' hg'

theorem goes_placeCollector (hrun : Honest run) (name : String) (spec : CollectorSpec)
    (s : Session) : Goes s F (s.placeCollector run name spec) F := by
  refine .of_owns fun ho => ?_
  -- the collector that loses the name was there already
  have hplace : ∀ (g : CollectorId) (t : Session), Goes s F t F → t.stuck = s.stuck →
      g < t.heap.collectors.length → s.heap.collectors.length ≤ t.heap.collectors.length →
      let named := { t with collectors := t.collectors.insert name g }
      ∀ u, (s.collectors[name]? = none → u = named) →
        (∀ old, s.collectors[name]? = some old → u = giveUp run old named) → Goes s F u F := by
    intro g t ht hstuck hg hle named u hnone hsome
    have hname := ht.trans (goes_name name hg)
    cases hold : s.collectors[name]? with
    | none => exact hnone hold ▸ hname
    | some old =>
      rw [hsome old hold]
      refine hname.trans (goes_giveUp hrun fun hs => ?_)
      exact Nat.lt_of_lt_of_le ((ho.inOrder (hstuck.symm.trans hs)).named_lt name old hold) hle
  unfold placeCollector
  cases spec with
  | withStep n =>
    have hlt := Nat.lt_of_lt_of_eq (Nat.lt_succ_self _)
      (length_addCollector s.heap (.withStep n)).symm
    refine hplace s.heap.collectors.length _ (goes_addCollector s n) rfl hlt (Nat.le_of_lt hlt) _
      (fun h => ?_) fun old h => ?_ <;> rw [h] <;> rfl
  | configured c =>
    have hlt := length_addConfigured s.heap c
    refine hplace s.heap.collectors.length _ (goes_addConfigured s c) rfl hlt (Nat.le_of_lt hlt) _
      (fun h => ?_) fun old h => ?_ <;> rw [h] <;> rfl
  | shared =>
    let v := if s.shared.isNone then s.heap.emit .globalStarting else s.heap
    have hreport : Goes s F { s with heap := v } F := by
      show Goes s F { s with
        heap := if s.shared.isNone then s.heap.emit .globalStarting else s.heap } F
      split
      · exact goes_emit s rfl
      · exact .refl s F
    have hadd := hreport.trans (goes_addCollector { s with heap := v } Collector.defaultStep)
    have hshare : Goes { s with heap := (v.addCollector (.withStep Collector.defaultStep)).2 } F
        { s with
          heap := (v.addCollector (.withStep Collector.defaultStep)).2
          shared := some v.collectors.length } F :=
      .of_silent rfl rfl rfl (fun ho => ⟨ho.covers,
        fun hs => (ho.inOrder hs).congr rfl rfl rfl ⟨rfl, rfl⟩, ho.alone⟩) (F.within _ _)
    have hlength : v.collectors.length = s.heap.collectors.length := by
      show (if s.shared.isNone then s.heap.emit .globalStarting else s.heap).collectors.length = _
      split <;> rfl
    have hlt := Nat.lt_of_lt_of_eq (Nat.lt_succ_self _)
      (length_addCollector v (.withStep Collector.defaultStep)).symm
    refine hplace v.collectors.length _ (hadd.trans hshare) rfl hlt (hlength ▸ Nat.le_of_lt hlt) _
      (fun h => ?_) fun old h => ?_ <;> rw [h] <;> rfl

/-- A collector comes into use. -/
theorem goes_using (hg : s.stuck = false → g < s.heap.collectors.length) :
    Goes s F { s with inUse := g :: s.inUse } (F.using g) := by
  refine .of_silent rfl rfl rfl (fun ho => ⟨ho.covers, fun hs => ?_, ho.alone⟩)
    ⟨id, rfl, List.subset_cons_self g F.inUse⟩
  obtain ⟨hsound, hqueues, hinUse, hnamed, hlt, hunlocks⟩ := ho.inOrder hs
  refine ⟨hsound, hqueues, congrArg (g :: ·) hinUse, hnamed, fun g' hg' => ?_,
    fun p hp g' hu => List.mem_cons_of_mem g (hunlocks p hp g' hu)⟩
  rcases List.mem_cons.mp hg' with rfl | hg'
  · exact hg hs
  · exact hlt g' hg'

theorem goes_keeping {α : Type} (hrun : Honest run) (name : String)
    (hg : s.stuck = false → g < s.heap.collectors.length) {act : Session → α × Session}
    (hact : ∀ s, Goes s (F.using g) (act s).2 (F.using g)) :
    Goes s F (s.keeping run name g act).2 F := by
  have hdone := (goes_using hg).trans (hact _)
  unfold keeping
  dsimp only
  generalize (act { s with inUse := g :: s.inUse }).2 = t at *
  have hleave : Goes s F { t with inUse := t.inUse.tail } F := by
    intro ho
    obtain ⟨⟨os, hl⟩, ho', -⟩ := hdone ho
    refine ⟨⟨os, hl.congr rfl rfl rfl⟩, ⟨ho'.covers, fun hs => ?_, ho'.alone⟩, F.within _ _⟩
    obtain ⟨hsound, hqueues, hinUse, hnamed, hlt, -⟩ := ho'.inOrder hs
    exact ⟨hsound, hqueues, congrArg List.tail hinUse, hnamed,
      fun g' hg' => hlt g' (List.mem_cons_of_mem g hg'),
      (ho.inOrder (hdone.stuck_of ho hs)).unlocks⟩
  split
  · exact hleave
  · refine .of_owns fun ho => hleave.trans (goes_giveUp hrun fun hs => ?_)
    obtain ⟨-, ho', -⟩ := hdone ho
    exact (ho'.inOrder hs).inUse_lt g List.mem_cons_self

/-- A new object comes with its hook. -/
theorem goes_allocate (s : Session) (kind : Kind) {hooks : Std.ExtTreeMap Handle Hook}
    (hhooks : ∀ h : Handle, hooks[h]? = s.hooks[h]? ∨ h = .fresh s.heap.allocated)
    (halone : s.Owns F → F.alone → ∀ (h : Handle) (hook : Hook), hooks[h]? = some hook →
      Program.alone hook.steps = true) :
    Goes s F { s with heap := (s.heap.allocate kind).2, hooks := hooks }
      (F.more [⟨.fresh s.heap.allocated, .whole⟩]) := by
  have hallocate : Goes s F { s with heap := (s.heap.allocate kind).2 }
      (F.more [⟨.fresh s.heap.allocated, .whole⟩]) :=
    .operate (.action (.allocate kind)) (fun _ => ⟨trivial, rfl⟩) (fun hc => hc.add _)
      (fun _ ho => ⟨⟨.of_none rfl, trivial⟩, ho.queues, ho.unlocks⟩) (fun _ => ⟨trivial, trivial⟩)
      nofun
  intro ho
  obtain ⟨⟨os, hl⟩, ho', hw⟩ := hallocate ho
  refine ⟨⟨os, { hl with hooks := fun h => ?_ }⟩, ⟨ho'.covers, fun hs => ?_, halone ho⟩, hw⟩
  · rcases hhooks h with hk | rfl
    · exact .inl hk
    · exact .inr (.inr ⟨_, Nat.le_refl _, Nat.lt_succ_self _, rfl⟩)
  · exact (ho'.inOrder hs).congr rfl rfl rfl ⟨rfl, rfl⟩

theorem goes_make (collector : String) (kind : Kind) (onDrop : List Step) (name : Option String)
    (s : Session) (hdrop : F.alone → Program.alone onDrop = true) :
    Goes s F (s.make collector kind onDrop name).2
      (F.more [(s.make collector kind onDrop name).1]) := by
  unfold make
  cases kind with
  | probe =>
    let own : Hook := { name := name.getD "", collector, steps := onDrop }
    have hinsert : ∀ h : Handle, (s.hooks.insert (.fresh s.heap.allocated) own)[h]? =
        if Handle.fresh s.heap.allocated = h then some own else s.hooks[h]? := fun h => by
      simp [Std.ExtTreeMap.getElem?_insert]
    have hmake : Goes s F { s with
        heap := (s.heap.allocate .probe).2
        hooks := s.hooks.insert (.fresh s.heap.allocated) own }
        (F.more [⟨.fresh s.heap.allocated, .whole⟩]) := by
      refine goes_allocate s .probe (fun h => ?_) fun ho hF h hook hh => ?_
      · rw [hinsert]
        split
        · exact .inr (Eq.symm ‹_›)
        · exact .inl rfl
      · rw [hinsert] at hh
        split at hh
        · cases hh
          exact hdrop hF
        · exact ho.alone hF h hook hh
    exact hmake
  | object | node | table => exact goes_allocate s _ (fun _ => .inl rfl) fun ho => ho.alone

/-- What the application has in hand after a registration. -/
def inHand : Except Handle Holder → List Holder
  | .ok x => [x]
  | .error _ => []

/-- Of two holders one goes into the slot and the other stays in hand. -/
theorem goes_intoSlot {t : Session} {x : Holder} (hg : g ∈ F.inUse)
    (hfree : t.stuck = false → g < t.heap.collectors.length →
      (Action.register g x).FindsFree t.heap) {new : List ReleaseQueue}
    (hnew : ((t.heap.hold x).register g x).2.queues = new ++ t.heap.queues)
    (hunlocks : ∀ p ∈ new, ∀ k, p.unlocks k = true → k = g) :
    Goes t (F.more [x]) { t with heap := ((t.heap.hold x).register g x).2 }
      { F.more [x] with queues := new ++ F.queues } := by
  have hhold : Goes t (F.more [x]) (t.update (·.hold x)) (F.more [x, x]) :=
    .hold fun ho => ho.cloneable (List.mem_cons_self)
  refine hhold.trans (.operate (.action (.register g x)) (fun ho => ⟨?_, rfl⟩) (fun hc => ?_)
    (fun hs ho => ⟨⟨?_, trivial⟩, ?_, ?_⟩) (fun _ => ⟨trivial, trivial⟩) nofun)
  · have hx : List.count x (x :: x :: F.holders) + (t.named x + F.kept.count x) ≤
        (t.heap.hold x).held.count x := ho.covers x
    simp only [List.count_cons_self] at hx
    show 2 ≤ (t.heap.hold x).held.count x
    omega
  · show Covers ((t.heap.hold x).register g x).2.held (x :: F.holders) (t.needs F)
    rw [(Heap.register_frame _ g x).1]
    exact hc.remove
  · exact hfree hs (ho.inUse_lt g hg)
  · have hqueues : t.heap.queues = F.queues := ho.queues
    show ((t.heap.hold x).register g x).2.queues = new ++ F.queues
    rw [hnew, hqueues]
  · intro p hp k hk
    rcases List.mem_append.mp hp with hp | hp
    · exact hunlocks p hp k hk ▸ hg
    · exact ho.unlocks p hp k hk

theorem goes_register (hrun : Honest run) (hg : g ∈ F.inUse) (x : Holder) (s : Session) :
    Goes s (F.more [x]) (s.register run g x).2 (F.more (inHand (s.register run g x).1)) := by
  have hlock : Goes s (F.more [x]) (s.acquire g) (F.more [x]) := goes_acquire s g
  have hslot : ∀ new : List ReleaseQueue, _ := fun new =>
    @goes_intoSlot F g (s.acquire g) x hg (findsFree_acquire rfl) new
  unfold register
  generalize s.acquire g = t at *
  dsimp only
  split
  · exact hlock
  · refine hlock.trans ?_
    have hqueues := Heap.queues_register (t.heap.hold x) g x
    generalize (t.heap.hold x).register g x = result at *
    obtain ⟨(_ | q) | q, heap⟩ := result
    · exact hslot [] hqueues (by simp)
    · obtain ⟨xs, stats, hq⟩ := hqueues
      refine (hslot [_] hq ?_).trans (goes_release hrun (Heap.waiting_head hq))
      simp [ReleaseQueue.unlocks]
    · obtain ⟨xs, hq⟩ := hqueues
      have hrelease : Goes t (F.more [x]) (release run q { t with heap := heap }) (F.more [x]) := by
        refine (hslot [_] hq ?_).trans (goes_release hrun (Heap.waiting_head hq))
        simp [ReleaseQueue.unlocks, eq_comm]
      dsimp only
      split
      · exact hrelease.weaken
      · exact hrelease.trans (goes_dropHolder hrun x _)

theorem goes_cleanup (hrun : Honest run) (hg : g ∈ F.inUse) (s : Session) :
    Goes s F (s.cleanup run g).2 F := by
  have hlock : Goes s F (s.acquire g) F := goes_acquire s g
  have hfree := findsFree_acquire (s := s) (a := .cleanup g) rfl
  unfold cleanup
  generalize s.acquire g = t at *
  dsimp only
  split
  · exact hlock
  · refine hlock.trans ?_
    have hturn : t.stuck = false → t.InOrder F → (Action.cleanup g).InTurn t.heap :=
      fun hs ho => hfree hs (ho.inUse_lt g hg)
    have hheld : ((Action.cleanup g).perform t.heap).held = t.heap.held :=
      (t.heap.beginCleanup_frame g).1
    have hnone : (t.heap.beginCleanup g).2.queues = t.heap.queues →
        Goes t F { t with heap := (t.heap.beginCleanup g).2 } F := fun hq =>
      .act (.cleanup g) ⟨trivial, rfl⟩ hturn (fun _ => trivial) nofun hq hheld
    have hsome : ∀ q xs stats,
        (t.heap.beginCleanup g).2.queues = ⟨q, xs, .complete g stats⟩ :: t.heap.queues →
        Goes t F (release run q { t with heap := (t.heap.beginCleanup g).2 }) F :=
      fun q xs stats hq => goes_open hrun (.cleanup g) ⟨trivial, rfl⟩ hturn trivial nofun
        hq (fun _ h => by cases h) hheld
    have hqueues := Heap.queues_beginCleanup t.heap g
    generalize t.heap.beginCleanup g = result at *
    obtain ⟨_ | ⟨stats, q⟩, heap⟩ := result
    · exact hnone hqueues
    · obtain ⟨xs, hq⟩ := hqueues
      exact hsome q xs stats hq

/-! ## Creations -/

theorem goes_createFrom {α : Type} (hrun : Honest run) (hg : g ∈ G.inUse)
    {init : Session → α × Holder × Session}
    (hinit : Goes s F (init s).2.2 (G.more [(init s).2.1])) :
    Goes s F (s.createFrom run g init).2.2 (G.more (inHand (s.createFrom run g init).2.1)) :=
  hinit.trans (goes_register hrun hg (init s).2.1 (init s).2.2)

theorem goes_create (hrun : Honest run) (collector : String) (hg : g ∈ F.inUse) (kind : Kind)
    (s : Session) :
    Goes s F (s.create run collector g kind).2
      (F.more (inHand (s.create run collector g kind).1)) :=
  goes_createFrom hrun hg (goes_make collector kind [] none s fun _ => rfl)

theorem goes_createMany (hrun : Honest run) (collector : String) (hg : g ∈ F.inUse) (kind : Kind)
    (stem : Option String) (count : Nat) (s : Session) :
    Goes s F (s.createMany run collector g kind stem count) F := by
  unfold createMany
  refine goes_foldl (fun s i => ?_) _ s
  have hcreate : Goes s F _ _ := goes_create hrun collector hg kind s
  generalize s.create run collector g kind = result at *
  obtain ⟨_ | x, t⟩ := result
  · exact hcreate
  · exact hcreate.trans (goes_bind hrun _ x t)

/-! ## Threads -/

/-- More of the holders that the caller has in hand, or that have names. -/
theorem goes_holdAll (xs : List Holder) (s : Session)
    (hxs : ∀ x ∈ xs, x ∈ F.holders ∨ ∃ name : String, s.holders[name]? = some x) :
    Goes s F (s.holdAll xs) (F.more xs) := by
  induction xs generalizing s F with
  | nil => exact .refl s F
  | cons x rest ih =>
    have hhold : Goes s F (s.update (·.hold x)) (F.more [x]) := by
      rcases hxs x List.mem_cons_self with hx | ⟨name, hx⟩
      · exact .hold fun ho => ho.cloneable hx
      · exact goes_hold_named hx
    have hrest := ih (F := F.more [x]) (s.update (·.hold x)) fun y hy =>
      (hxs y (List.mem_cons_of_mem _ hy)).imp_left (List.mem_cons_of_mem _)
    exact Goes.perm (hhold.trans hrest) List.perm_middle

theorem goes_dropAll (hrun : Honest run) (xs : List Holder) (s : Session) :
    Goes s (F.more xs) (s.dropAll run xs) F := by
  unfold dropAll
  induction xs generalizing s with
  | nil => exact .refl s F
  | cons x rest ih => exact (goes_dropHolder (F := F.more rest) hrun x s).trans (ih _)

theorem goes_doTask (hrun : Honest run) (collector : String) (hg : g ∈ F.inUse) (i : Nat)
    (task : Task) (hF : ∀ x ∈ task.holders, x ∈ F.holders) (s : Session) :
    Goes s F (s.doTask run collector g i task) F := by
  unfold doTask
  cases task with
  | garbage =>
    have hcreate : Goes s F _ _ := goes_create hrun collector hg .object s
    dsimp only
    generalize s.create run collector g .object = result at *
    obtain ⟨_ | y, t⟩ := result
    · exact hcreate
    · exact hcreate.trans (goes_dropHolder hrun y t)
  | fill table =>
    have hcreate : Goes s F _ _ := goes_create hrun collector hg .table s
    dsimp only
    generalize s.create run collector g .table = result at *
    obtain ⟨_ | y, t⟩ := result
    · exact hcreate
    · refine (hcreate.trans (goes_setEntry t y.handle (.str "value") (.int (Int64.ofNat i)))).trans ?_
      exact (goes_setEntry _ table.handle _ _).trans (goes_dropHolder hrun y _)
  | cloning x =>
    have hhold : Goes s F (s.update (·.hold x)) (F.more [x]) :=
      .hold fun ho => ho.cloneable (hF x List.mem_cons_self)
    exact hhold.trans (goes_dropHolder hrun x _)

/-- Each of several threads gets holders of its own. -/
theorem goes_holdRounds {α : Type} (xs : List Holder) (hxs : ∀ x ∈ xs, x ∈ F.holders) (l : List α)
    (s : Session) :
    Goes s F (l.foldl (fun s _ => s.holdAll xs) s) (F.more (l.map fun _ => xs).flatten) := by
  induction l generalizing s F with
  | nil => exact .refl s F
  | cons a rest ih =>
    have hrest := ih (F := F.more xs) (fun x hx => List.mem_append_left _ hx) (s.holdAll xs)
    refine Goes.perm ((goes_holdAll xs s fun x hx => .inl (hxs x hx)).trans hrest) ?_
    rw [List.map_cons, List.flatten_cons]
    show (_ ++ (xs ++ F.holders)).Perm _
    rw [← List.append_assoc]
    exact (List.perm_append_comm).append_right F.holders

/-- Each of several threads lets go of its own holders. -/
theorem goes_rounds {α : Type} {f : Session → α → Session} {xs : List Holder}
    (hf : ∀ s a ys, Goes s ((F.more ys).more xs) (f s a) (F.more ys)) (l : List α) (s : Session) :
    Goes s (F.more (l.map fun _ => xs).flatten) (l.foldl f s) F := by
  induction l generalizing s with
  | nil => exact .refl s F
  | cons a rest ih =>
    have hfirst := hf s a (rest.map fun _ => xs).flatten
    have hhand : (F.more (rest.map fun _ => xs).flatten).more xs =
        F.more ((a :: rest).map fun _ => xs).flatten := by
      simp [Hand.more]
    rw [hhand] at hfirst
    exact hfirst.trans (ih (f s a))

/-- What threads reported is taken back, so there are none if the program has to be alone. -/
theorem goes_doTasks (hrun : Honest run) (collector : String) (hg : g ∈ F.inUse) (task : Task)
    (threads rounds : Nat) (hF : ∀ x ∈ task.holders, x ∈ F.holders) (hthreads : ¬ F.alone)
    (s : Session) : Goes s F (s.doTasks run collector g task threads rounds) F := by
  have hstart := goes_holdRounds task.holders hF (List.range threads) s
  have hthread : ∀ (s : Session) (thread : Nat) (ys : List Holder),
      Goes s ((F.more ys).more task.holders)
        (((List.range rounds).foldl (fun s i =>
          s.doTask run collector g (thread * rounds + i) task) s).dropAll run task.holders)
        (F.more ys) := by
    intro s thread ys
    refine Goes.trans (goes_foldl (fun s i => ?_) _ s) (goes_dropAll hrun task.holders _)
    exact goes_doTask (F := (F.more ys).more task.holders) hrun collector hg _ task
      (fun x hx => List.mem_append_left _ hx) s
  exact (hstart.trans (goes_rounds hthread _ _)).trans
    (.act (.report s.heap.events) ⟨trivial, rfl⟩ (fun _ _ => .of_none rfl)
      (fun h => absurd h hthreads) nofun rfl rfl)

theorem bodiesAlone_cons {body : List Step} {rest : List (List Step)}
    (h : bodiesAlone (body :: rest) = true) :
    Program.alone body = true ∧ bodiesAlone rest = true := by
  simpa [bodiesAlone] using h

theorem goes_runHosts (hrun : Honest run) (bodies : List (List Step))
    (halone : F.alone → bodiesAlone bodies = true) (s : Session) :
    Goes s F (s.runHosts run bodies).2 F := by
  induction bodies generalizing s with
  | nil => exact .refl s F
  | cons body rest ih =>
    refine (hrun body s F fun hF => (bodiesAlone_cons (halone hF)).1).trans (ih ?_ _)
    exact fun hF => (bodiesAlone_cons (halone hF)).2

end Session

end Program

end SharedHeap
