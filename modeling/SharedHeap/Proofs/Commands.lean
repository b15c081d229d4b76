import SharedHeap.Proofs.StepParts

/-! # Programs take legal actions

Whatever a program does to its heap, it does by legal actions, and its calls on tables are whole. Unless
the program comes to wait for a lock of its own, its actions are those of a single thread: each step
works at its own queues and closes them before it is over. -/

namespace SharedHeap

namespace Program

namespace Session

variable {s t : Session} {F G : Hand} {g : CollectorId} {x : Holder} {run : Runner}

/-! ## Commands -/

theorem goes_initialise (hrun : Honest run) (collector : String) {source : Source}
    (taken : Option Holder) {steps : List Step} (name : Option String) (s : Session)
    (hsource : F.alone → source.alone = true) (hsteps : F.alone → Program.alone steps = true) :
    Goes s (F.more taken.toList) (s.initialise run collector source taken steps name).2.2
      (F.more [(s.initialise run collector source taken steps name).2.1]) := by
  have hrun := hrun steps s (F.more taken.toList) hsteps
  unfold initialise
  generalize run steps s = result at *
  obtain ⟨inner, t⟩ := result
  cases taken with
  | some x => exact hrun
  | none =>
    cases source with
    | fresh kind onDrop =>
      exact hrun.trans (goes_make collector kind onDrop name t fun hF => by
        simpa [Source.alone] using hsource hF)
    | again other => exact hrun.trans (goes_make collector .object [] name t fun _ => rfl)

theorem holder_eq {name : String} (hx : s.holder name = .ok x) : s.holders[name]? = some x := by
  unfold holder at hx
  split at hx
  · rename_i y hy
    cases hx
    exact hy
  · cases hx

theorem collector_name_eq {name : String} (hg : s.collector name = .ok g) :
    s.collectors[name]? = some g := by
  unfold collector at hg
  split at hg
  · rename_i g' hg'
    cases hg
    exact hg'
  · cases hg

theorem of_bind_eq_ok {ε α β : Type} {e : Except ε α} {f : α → Except ε β} {b : β}
    (h : e >>= f = .ok b) : ∃ a, e = .ok a ∧ f a = .ok b := by
  cases e with
  | error err => cases h
  | ok a => exact ⟨a, rfl, h⟩

theorem of_map_eq_ok {ε α β : Type} {e : Except ε α} {f : α → β} {b : β} (h : e.map f = .ok b) :
    ∃ a, e = .ok a ∧ f a = b := by
  cases e with
  | error err => cases h
  | ok a => exact ⟨a, rfl, Except.ok.inj h⟩

/-- The end of a creation, whose initialiser may return the holder that was taken before. -/
theorem goes_of_taken (hrun : Honest run) (collector : String) (hg : g ∈ F.inUse)
    {source : Source} {steps : List Step} (init : Option (List Step)) (name : Option String)
    {taken : Option Holder} {v : Session} (hsource : F.alone → source.alone = true)
    (hsteps : F.alone → Program.alone steps = true)
    (hv : Goes s F v (F.more taken.toList)) {reply : Reply} {t : Session} :
    (match v.createFrom run g (initialise run collector source taken steps name) with
      | (_, .error h, s) =>
        (.ok (.failed (.registeredTwice h), s) : Except Failure (Reply × Session))
      | (inner, .ok x, s) =>
        let reply : Reply := match init with
          | some _ => .created x.handle (s.heap.holderCount x.handle) inner
          | none => s.boundReply x
        .ok (reply, s.bind run name x)) = .ok (reply, t) → Goes s F t F := by
  intro ht
  have hcreate := hv.trans (goes_createFrom hrun hg
    (goes_initialise hrun collector taken name v hsource hsteps))
  generalize v.createFrom run g (initialise run collector source taken steps name) = result at *
  obtain ⟨inner, _ | x, u⟩ := result
  · cases ht
    exact hcreate
  · cases ht
    exact hcreate.trans (goes_bind hrun name x u)

theorem alone_create {source : Source} {init : Option (List Step)} {name : Option String}
    (h : (Command.create source init name).alone = true) :
    source.alone = true ∧ Program.alone (init.getD []) = true := by
  cases init with
  | none => exact ⟨by simpa [Command.alone] using h, rfl⟩
  | some ss => simpa [Command.alone] using h

theorem goes_createWith (hrun : Honest run) (collector : String) (hg : g ∈ F.inUse)
    (source : Source) (init : Option (List Step)) (name : Option String) (s : Session)
    (halone : F.alone → (Command.create source init name).alone = true)
    {reply : Reply} {t : Session}
    (ht : s.createWith run collector g source init name = .ok (reply, t)) : Goes s F t F := by
  have hsource := fun hF => (alone_create (halone hF)).1
  have hinit := fun hF => (alone_create (halone hF)).2
  cases source with
  | fresh kind onDrop =>
    have htake : Goes s F s (F.more none.toList) := .refl s F
    exact goes_of_taken hrun collector hg init name hsource hinit htake ht
  | again other =>
    obtain ⟨taken, htaken, ht⟩ := of_bind_eq_ok ht
    obtain ⟨x, hx, rfl⟩ := of_map_eq_ok htaken
    have htake : Goes s F (s.update (·.hold x)) (F.more (some x).toList) :=
      goes_hold_named (holder_eq hx)
    exact goes_of_taken hrun collector hg init name hsource hinit htake ht

theorem goes_unname {name : String} (hx : s.holders[name]? = some x) :
    Goes s F { s with holders := s.holders.erase name } (F.more [x]) := by
  refine .of_silent rfl rfl rfl (fun ho => ⟨fun y => ?_,
    fun hs => (ho.inOrder hs).congr rfl rfl rfl ⟨rfl, rfl⟩, ho.alone⟩) (F.within _ _)
  have hle : F.holders.count y + (occurrences s.holders y + F.kept.count y) ≤ _ := ho.covers y
  have hsize := occurrences_erase s.holders name y
  show (x :: F.holders).count y + (occurrences (s.holders.erase name) y + F.kept.count y) ≤
    s.heap.held.count y
  rw [List.count_cons]
  simp only [hx, Option.some.injEq, beq_iff_eq] at hsize ⊢
  omega

theorem tableHolder_eq {name : String} (hx : s.tableHolder name = .ok x) :
    s.holders[name]? = some x := by
  obtain ⟨y, hy, hx⟩ := of_bind_eq_ok hx
  split at hx
  · cases hx
    exact holder_eq hy
  · cases hx

theorem task_holders {work : Work} {task : Task} (ht : s.task work = .ok task) :
    ∀ x ∈ task.holders, ∃ name : String, s.holders[name]? = some x := by
  cases work with
  | garbage => cases ht; simp [Task.holders]
  | fill name =>
    obtain ⟨x, hx, rfl⟩ := of_map_eq_ok ht
    simpa [Task.holders] using ⟨name, tableHolder_eq hx⟩
  | cloning name =>
    obtain ⟨x, hx, rfl⟩ := of_map_eq_ok ht
    simpa [Task.holders] using ⟨name, holder_eq hx⟩

theorem goes_registryErase (hrun : Honest run) (r : RegistryId) (h : Handle) (s : Session) :
    Goes s F (match s.heap.registryErase r h with
      | (none, heap) => { s with heap }
      | (some q, heap) => release run q { s with heap }) F := by
  cases hx : (s.heap.registry r).erase h with
  | mk erased reg =>
    cases erased with
    | none =>
      simp only [Heap.registryErase, hx]
      exact .refl s F
    | some x =>
      have hheap : (Action.registryErase r h).perform s.heap =
          ((s.heap.setRegistry r reg).openQueue [x] .nothing).2 := by
        simp only [Action.perform, Heap.registryErase, hx]
      simp only [Heap.registryErase, hx]
      show Goes s F (release run s.heap.opened
        { s with heap := ((s.heap.setRegistry r reg).openQueue [x] .nothing).2 }) F
      have hqueues : ((Action.registryErase r h).perform s.heap).queues =
          ⟨s.heap.opened, [x], .nothing⟩ :: s.heap.queues := by
        rw [hheap]
        rfl
      rw [← hheap]
      refine goes_open hrun (.registryErase r h) ⟨trivial, rfl⟩ (fun _ _ => .of_none rfl) trivial
        (fun _ _ _ he => by cases he) hqueues (fun _ he => by cases he) ?_
      rw [hheap]
      rfl

theorem goes_perform (hrun : Honest run) (collector : String) (hg : g ∈ F.inUse) (s : Session)
    (command : Command) (halone : F.alone → command.alone = true) {reply : Reply} {t : Session}
    (ht : s.perform run collector g command = .ok (reply, t)) : Goes s F t F := by
  have hlock : Goes s F (s.acquire g) F := goes_acquire s g
  cases command with
  | placeCollector name spec =>
    cases ht
    exact goes_placeCollector hrun name spec s
  | create source init name => exact goes_createWith hrun collector hg source init name s halone ht
  | createMany count kind stem =>
    cases ht
    exact goes_createMany hrun collector hg kind stem count s
  | get kind ref name =>
    obtain ⟨h, -, ht⟩ := of_bind_eq_ok ht
    dsimp only at ht
    split at ht
    · rename_i x hx
      cases ht
      exact (goes_lookup hg hx).trans (goes_bind hrun name x _)
    · cases ht
      exact hlock
  | getObject ref name =>
    obtain ⟨h, -, ht⟩ := of_bind_eq_ok ht
    dsimp only at ht
    split at ht
    · rename_i x hx
      cases ht
      exact (goes_lookupBase hg hx).trans (goes_bind hrun name x _)
    · cases ht
      exact hlock
  | contains ref =>
    obtain ⟨h, -, ht⟩ := of_bind_eq_ok ht
    cases ht
    exact hlock
  | size =>
    cases ht
    exact hlock
  | cleanup =>
    cases ht
    exact goes_cleanup hrun hg s
  | stop =>
    cases ht
    exact hlock.trans (.act (.stop g) ⟨trivial, rfl⟩
      (fun hs ho => findsFree_acquire rfl hs (ho.inUse_lt g hg)) (fun _ => trivial) nofun rfl rfl)
  | resume =>
    cases ht
    exact hlock.trans (.act (.resume g) ⟨trivial, rfl⟩
      (fun hs ho => findsFree_acquire rfl hs (ho.inUse_lt g hg)) (fun _ => trivial) nofun rfl rfl)
  | step =>
    cases ht
    exact .refl s F
  | setStep n =>
    cases ht
    exact .act (.setStep g n) ⟨trivial, rfl⟩ (fun _ _ => .of_none rfl) (fun _ => trivial) nofun
      rfl rfl
  | host steps =>
    cases ht
    exact ((hrun steps s F halone).trans (goes_emit _ rfl)).trans (goes_cleanup hrun hg _)
  | hosts bodies =>
    cases ht
    exact ((goes_runHosts hrun bodies halone s).trans (goes_emit _ rfl)).trans (goes_cleanup hrun hg _)
  | threads work threads rounds =>
    obtain ⟨task, htask, ht⟩ := of_bind_eq_ok ht
    have hhold : Goes s F _ _ :=
      goes_holdAll task.holders s fun x hx => .inr (task_holders htask x hx)
    have hthreads : ¬ F.alone := fun hF => Bool.noConfusion (halone hF)
    have hdone := hhold.trans (goes_doTasks (F := F.more task.holders) hrun collector hg task threads
      rounds (fun x hx => List.mem_append_left _ hx) hthreads _)
    cases task with
    | garbage =>
      cases ht
      exact hdone.trans (goes_cleanup hrun hg _)
    | fill x =>
      cases ht
      exact hdone.trans (goes_dropAll hrun _ _)
    | cloning x =>
      cases ht
      exact hdone.trans (goes_dropAll hrun _ _)
  | track name steps =>
    cases ht
    exact (hrun steps s F halone).trans (goes_emit _ rfl)
  | make kind onDrop name =>
    cases ht
    exact (goes_make collector kind onDrop name s halone).trans (goes_bind hrun name _ _)
  | clone name as =>
    obtain ⟨x, hx, ht⟩ := of_bind_eq_ok ht
    cases ht
    exact (goes_hold_named (holder_eq hx)).trans (goes_bind hrun as x _)
  | base name as =>
    obtain ⟨x, hx, ht⟩ := of_bind_eq_ok ht
    cases ht
    have hhold : Goes s F (s.update (·.hold ⟨x.handle, .base⟩)) (F.more [⟨x.handle, .base⟩]) :=
      .hold fun ho => .inl (Heap.heldCount_pos_of_count (x := x) (ho.count_of_named (holder_eq hx)))
    exact hhold.trans (goes_bind hrun as _ _)
  | drop name =>
    obtain ⟨x, hx, ht⟩ := of_bind_eq_ok ht
    cases ht
    exact (goes_unname (holder_eq hx)).trans (goes_dropHolder hrun x _)
  | dropMany stem start count =>
    cases ht
    refine goes_foldl (fun s i => ?_) _ s
    dsimp only
    split
    · rename_i x hx
      exact (goes_unname hx).trans (goes_dropHolder hrun x _)
    · exact .refl s F
  | link name ref =>
    obtain ⟨h, -, ht⟩ := of_bind_eq_ok ht
    obtain ⟨x, -, ht⟩ := of_bind_eq_ok ht
    cases ht
    exact .act (.touch x.handle (.link h)) ⟨trivial, rfl⟩ (fun _ _ => .of_none rfl)
      (fun _ => trivial) nofun rfl rfl
  | unlink name ref =>
    obtain ⟨h, -, ht⟩ := of_bind_eq_ok ht
    obtain ⟨x, -, ht⟩ := of_bind_eq_ok ht
    cases ht
    exact .act (.touch x.handle (.unlink h)) ⟨trivial, rfl⟩ (fun _ _ => .of_none rfl)
      (fun _ => trivial) nofun rfl rfl
  | linkMany pairs =>
    obtain ⟨links, -, ht⟩ := of_bind_eq_ok ht
    cases ht
    exact goes_foldl (fun s ⟨x, h⟩ => .act (.touch x (.link h)) ⟨trivial, rfl⟩
      (fun _ _ => .of_none rfl) (fun _ => trivial) nofun rfl rfl) links s
  | clearLinks name =>
    obtain ⟨x, -, ht⟩ := of_bind_eq_ok ht
    cases ht
    exact .act (.touch x.handle .clearLinks) ⟨trivial, rfl⟩ (fun _ _ => .of_none rfl)
      (fun _ => trivial) nofun rfl rfl
  | set name key ref =>
    obtain ⟨v, -, ht⟩ := of_bind_eq_ok ht
    obtain ⟨x, -, ht⟩ := of_bind_eq_ok ht
    cases ht
    exact goes_setEntry _ _ _ _
  | remove name key =>
    obtain ⟨x, -, ht⟩ := of_bind_eq_ok ht
    cases ht
    exact goes_removeEntry _ _ _
  | registryInsert name =>
    obtain ⟨x, hx, ht⟩ := of_bind_eq_ok ht
    have hslot : Goes s F { s with heap := ((s.heap.hold x).registryInsert bare x).2 } F := by
      refine (goes_hold_named (holder_eq hx)).trans (.operate (.action (.registryInsert bare x))
        (fun ho => ⟨ho.covers.count_pos List.mem_cons_self, rfl⟩) (fun hc => hc.remove)
        (fun _ ho => ⟨⟨.of_none rfl, trivial⟩, ho.queues, ho.unlocks⟩) (fun _ => ⟨trivial, trivial⟩)
        nofun)
    dsimp only at ht
    generalize (s.heap.hold x).registryInsert bare x = result at *
    obtain ⟨_ | y, heap⟩ := result
    · cases ht
      exact hslot
    · cases ht
      exact hslot.trans (goes_afterDrop hrun y _)
  | registryErase ref =>
    obtain ⟨h, -, ht⟩ := of_bind_eq_ok ht
    have herase := goes_registryErase (F := F) hrun bare h s
    dsimp only at ht
    generalize s.heap.registryErase bare h = result at *
    obtain ⟨_ | q, heap⟩ := result
    · cases ht
      exact herase
    · cases ht
      exact herase
  | registryRetain marked =>
    obtain ⟨hs, -, ht⟩ := of_bind_eq_ok ht
    cases ht
    exact goes_open hrun (.registryRetain bare hs.contains) ⟨trivial, rfl⟩
      (fun _ _ => .of_none rfl) trivial nofun rfl (fun _ h => by cases h) rfl
  | holders name | handle name | debug name | links name =>
    obtain ⟨x, -, ht⟩ := of_bind_eq_ok ht
    cases ht
    exact .refl s F
  | lookup name key =>
    obtain ⟨x, -, ht⟩ := of_bind_eq_ok ht
    cases ht
    exact .refl s F
  | table name =>
    obtain ⟨x, -, ht⟩ := of_bind_eq_ok ht
    cases ht
    exact .refl s F
  | hasLink name ref =>
    obtain ⟨h, -, ht⟩ := of_bind_eq_ok ht
    obtain ⟨x, -, ht⟩ := of_bind_eq_ok ht
    cases ht
    exact .refl s F
  | registry =>
    cases ht
    exact .refl s F
  | registryLookup ref =>
    obtain ⟨h, -, ht⟩ := of_bind_eq_ok ht
    split at ht <;> cases ht <;> exact .refl s F
  | registryContains ref =>
    obtain ⟨h, -, ht⟩ := of_bind_eq_ok ht
    cases ht
    exact .refl s F

/-! ## Programs -/

/-- By these actions the heap `w` became that of `s`, which has no open queues. Unless `s` is stuck,
they are those of a single thread; if it is, then where some lock is held. -/
structure Ran (w : Heap) (s : Session) (as : List Action) : Prop where
  legal : w.Legal as
  heap : s.heap = w.performs as
  orderly : s.stuck = false → w.Orderly as ∧ s.heap.queues = []
  blocked : s.stuck = true → ∃ before, before <+: as ∧ w.Orderly before ∧
    ∃ g, ((w.performs before).collector g).locked = true

theorem Goes.ran (h : Goes s F t G) (ho : s.Owns F) (hs : s.stuck = false) (hG : G.queues = []) :
    ∃ as, Ran s.heap t as ∧ (F.alone → s.heap.Each Action.Announces as) := by
  obtain ⟨⟨os, hl⟩, ho, -⟩ := h ho
  refine ⟨s.heap.actionsOf os, ⟨hl.sequential.legal, hl.performs.symm, fun ht =>
    ⟨hl.orderly ht, ?_⟩, hl.blocked hs⟩, hl.announces⟩
  rw [(ho.inOrder ht).queues, hG]

theorem goes_runStep (hrun : Honest run) (step : Step) (s : Session)
    (halone : F.alone → step.alone = true) : Goes s F (s.runStep run step).2 F := by
  obtain ⟨collector, command⟩ := step
  have hstart : Goes s F { s with drops := [] } F := goes_drops s []
  unfold runStep
  dsimp only
  split
  · exact hstart.trans (goes_drops _ _)
  · rename_i g hg
    refine (hstart.trans (.of_owns fun ho => ?_)).trans (goes_drops _ _)
    refine goes_keeping hrun collector
      (fun hs => (ho.inOrder hs).named_lt collector g (collector_name_eq hg)) fun s => ?_
    split
    · rename_i reply t ht
      exact goes_perform (F := F.using g) hrun collector List.mem_cons_self s command halone ht
    · exact .refl s _

end Session

theorem honest_runSteps (depth : Nat) : Session.Honest (runSteps depth) := by
  -- what runs within a step, hooks included, has less depth left
  induction depth with
  | zero => exact fun steps s F _ => .refl s F
  | succ depth ih =>
    intro steps s F halone
    cases steps with
    | nil => exact .refl s F
    | cons step rest =>
      have hboth : F.alone → step.alone = true ∧ alone rest = true := fun hF => by
        simpa [alone] using halone hF
      rw [runSteps]
      split
      · exact .refl s F
      · exact (Session.goes_runStep ih step s fun hF => (hboth hF).1).trans
          (ih rest _ F fun hF => (hboth hF).2)

/-- Nothing is in hand. -/
def Hand.empty (alone : Prop) : Hand := ⟨[], [], [], [], alone⟩

namespace Session

theorem owns_empty (alone : Prop) : Owns {} (.empty alone) := by
  refine ⟨fun x => ?_, fun _ => ⟨Heap.sound_initial 1, rfl, rfl, fun name g hg => ?_, ?_, ?_⟩,
    fun _ h hook hh => ?_⟩
  · have hsize : occurrences (∅ : Std.ExtTreeMap String Holder) x = 0 := occurrences_empty x
    show 0 + occurrences (∅ : Std.ExtTreeMap String Holder) x ≤ _
    omega
  · have hg : (∅ : Std.ExtTreeMap String CollectorId)[name]? = some g := hg
    simp at hg
  · simp [Hand.empty]
  · simp [Hand.empty]
  · have hh : (∅ : Std.ExtTreeMap Handle Hook)[h]? = some hook := hh
    simp at hh

/-- A program starts with nothing in hand. -/
theorem goes_start (name : String) (spec : CollectorSpec) :
    Goes {} (.empty False) (.start name spec) (.empty False) := by
  have hnothing : Honest fun _ s => ([], s) := fun _ s F _ => .refl s F
  exact (goes_placeCollector hnothing name spec {}).trans
    (.act (.report []) ⟨trivial, rfl⟩ (fun _ _ => .of_none rfl) False.elim nofun rfl rfl)

theorem start_frame (name : String) (spec : CollectorSpec) :
    (Session.start name spec).stuck = false ∧ (Session.start name spec).hooks = ∅ ∧
      (Session.start name spec).heap.events = [] := by
  cases spec <;> simp [Session.start, placeCollector, update]

theorem owns_start (name : String) (spec : CollectorSpec) (alone : Prop) :
    (Session.start name spec).Owns (.empty alone) := by
  obtain ⟨-, ⟨hcovers, horder, -⟩, -⟩ := goes_start name spec (owns_empty False)
  refine ⟨hcovers, fun hs => (horder hs).congr rfl rfl rfl ⟨rfl, rfl⟩, fun _ h hook hh => ?_⟩
  rw [(start_frame name spec).2.1] at hh
  simp at hh

end Session

/-- **Programs are sequential runs.** The heap after any steps of a program, with all the
initialisers, hosts and hooks that run within them, comes from a sequential run, and later steps
prolong that run. -/
theorem runSteps_sequential (depth : Nat) (steps later : List Step) (name : String)
    (spec : CollectorSpec) :
    let s := (runSteps depth steps (.start name spec)).2
    ∃ os ps, (Heap.initial 1).Sequential (os ++ ps) ∧ s.heap = (Heap.initial 1).operates os ∧
      (runSteps depth later s).2.heap = (Heap.initial 1).operates (os ++ ps) := by
  intro s
  have hsteps := (Session.goes_start name spec).trans (honest_runSteps depth steps _ _ False.elim)
  obtain ⟨⟨os, hos⟩, howns, -⟩ := hsteps (Session.owns_empty False)
  obtain ⟨⟨ps, hps⟩, -⟩ := honest_runSteps depth later s _ False.elim howns
  have he : (Heap.initial 1).operates os = s.heap := hos.operates
  refine ⟨os, ps, (Heap.sequential_append _ os ps).mpr ⟨hos.sequential, he ▸ hps.sequential⟩,
    he.symm, ?_⟩
  rw [Heap.operates_append, he, hps.operates]

/-- **Programs take legal actions.** The heap after any steps of a program, with all the initialisers,
hosts and hooks that run within them, comes from a legal run, and later steps prolong that run. -/
theorem runSteps_legal (depth : Nat) (steps later : List Step) (name : String)
    (spec : CollectorSpec) :
    let s := (runSteps depth steps (.start name spec)).2
    ∃ as bs, (Heap.initial 1).Legal (as ++ bs) ∧ s.heap = (Heap.initial 1).performs as ∧
      (runSteps depth later s).2.heap = (Heap.initial 1).performs (as ++ bs) := by
  intro s
  obtain ⟨os, ps, hs, he, he'⟩ := runSteps_sequential depth steps later name spec
  refine ⟨_, _, Heap.actionsOf_append _ os ps ▸ hs.legal, ?_, ?_⟩
  · rw [Heap.performs_actionsOf, ← he]
  · rw [← Heap.actionsOf_append, Heap.performs_actionsOf, ← he']

/-- **Programs are runs of a single thread.** Unless it gets stuck, a program does to its heap what a
single thread can do, and when its steps are over it has closed every queue. It gets stuck only where
a lock is held. -/
theorem runSteps_ran (depth : Nat) (steps : List Step) (name : String) (spec : CollectorSpec) :
    ∃ as, Session.Ran (Heap.initial 1) (runSteps depth steps (.start name spec)).2 as := by
  have hsteps := (Session.goes_start name spec).trans (honest_runSteps depth steps _ _ False.elim)
  obtain ⟨as, hran, -⟩ := hsteps.ran (Session.owns_empty False) rfl rfl
  exact ⟨as, hran⟩

/-- Once it has its first collector, a program that starts no threads makes one announcement at a
time. -/
theorem runSteps_announces (depth : Nat) (steps : List Step) (name : String)
    (spec : CollectorSpec) :
    let w := (Session.start name spec).heap
    w.Sound ∧ w.queues = [] ∧ w.events = [] ∧
      ∃ as, Session.Ran w (runSteps depth steps (.start name spec)).2 as ∧
        (alone steps = true → w.Each Action.Announces as) := by
  intro w
  have howns := Session.owns_start name spec (alone steps = true)
  obtain ⟨hstuck, -, hevents⟩ := Session.start_frame name spec
  have horder := howns.inOrder hstuck
  exact ⟨horder.sound, horder.queues, hevents, (honest_runSteps depth steps _ _ id).ran howns hstuck rfl⟩

/-- It thereby reports one event at a time. -/
theorem runSteps_tells (depth : Nat) (steps : List Step) (name : String) (spec : CollectorSpec) :
    let w := (Session.start name spec).heap
    w.Sound ∧ w.queues = [] ∧ w.events = [] ∧
      ∃ as, Session.Ran w (runSteps depth steps (.start name spec)).2 as ∧
        (alone steps = true → w.Each Action.Tells as) := by
  obtain ⟨hsound, hqueues, hevents, as, hran, hannounces⟩ :=
    runSteps_announces depth steps name spec
  exact ⟨hsound, hqueues, hevents, as, hran, fun halone =>
    (hannounces halone).imp fun _ _ h => h.tells⟩

end Program

/-- Every program keeps the numbers of queues apart. -/
theorem Heap.numbered_runSteps (depth : Nat) (steps : List Program.Step) (name : String)
    (spec : Program.CollectorSpec) :
    (Program.runSteps depth steps (.start name spec)).2.heap.Numbered := by
  obtain ⟨as, _, -, hs, -⟩ := Program.runSteps_legal depth steps [] name spec
  rw [hs]
  exact (Heap.numbered_initial 1).performs as

end SharedHeap
