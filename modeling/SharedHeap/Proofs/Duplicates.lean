import SharedHeap.Proofs.Panicking
import SharedHeap.Proofs.Refusal

/-! # Registering what is registered already

An object that an initialiser returns is refused iff it is registered when the initialiser is done. A
due pass that runs in between makes no difference: it registers nothing, and what is about to be
registered has holders in hand, so the pass keeps it. The hooks of what the pass swept run before the
registration is over. They may look the new object up, let go of it and collect again, but they cannot
take the holder that is in hand, nor give up the collector that the registration is about. If one of
them panics, the creation panics although its object is registered. -/

namespace SharedHeap

open Heap

namespace Program.Session

variable {s t : Session} {F G : Hand} {g : CollectorId} {x : Holder} {run : Runner}

/-- A holder in hand may be kept there. -/
theorem Owns.keep (ho : s.Owns (F.more [x])) : s.Owns (F.keep x) := by
  refine ⟨fun y => ?_, fun hs => (ho.inOrder hs).congr rfl rfl rfl ⟨rfl, rfl⟩, ho.alone⟩
  have hle : (x :: F.holders).count y + (s.named y + F.kept.count y) ≤ _ := ho.covers y
  show F.holders.count y + (s.named y + (x :: F.kept).count y) ≤ s.heap.held.count y
  rw [List.count_cons] at hle ⊢
  omega

/-- A due pass neither registers nor takes out what is about to be registered. -/
theorem registered_duePass_hold (hg : g < t.heap.collectors.length) :
    ((t.heap.hold x).duePass g).2.Registered g x.handle ↔ t.heap.Registered g x.handle := by
  have hc : (t.heap.hold x).collectors[g]? = some _ := List.getElem?_eq_getElem hg
  rw [registered_duePass hc]
  exact and_iff_left_of_imp fun hr _ => live_of_count (count_hold_pos t.heap x) hr

theorem acquire_of_free (hs : t.stuck = false) (hlock : (t.heap.collector g).locked = false) :
    (t.acquire g).stuck = false := by
  unfold acquire
  rw [hlock]
  exact hs

/-- A new object is registered and in hand when its registration is over, hooks included. -/
theorem register_of_unregistered (hrun : Tolerant run) (hg : g ∈ F.inUse)
    (ho : t.Owns (F.more [x])) (hs : t.stuck = false)
    (hlock : (t.heap.collector g).locked = false) (hx : ¬ t.heap.Registered g x.handle) :
    (t.register run g x).1 = .ok x ∧ (t.register run g x).2.heap.Registered g x.handle ∧
      0 < (t.register run g x).2.heap.held.count x := by
  have hlt : g < t.heap.collectors.length := (ho.inOrder hs).inUse_lt g hg
  have hc : (t.heap.hold x).collectors[g]? = some _ := List.getElem?_eq_getElem hlt
  have haccepted : ((t.heap.hold x).register g x).1.isAccepted = true :=
    isAccepted_of_unregistered (w := t.heap.hold x) hlt (count_hold_pos t.heap x) hx
  have hregistered : ((t.heap.hold x).register g x).2.Registered g x.handle :=
    (registered_register hc x _).mpr (.inl rfl)
  have hslot : ∀ new : List ReleaseQueue, _ := fun new => @goes_intoSlot F g t x hg
    (fun _ hlt g' hg' => Option.some.inj hg' ▸ ⟨hlt, hlock⟩) new
  have hqueues := queues_register (t.heap.hold x) g x
  rw [register_of_acquire (acquire_of_free hs hlock)]
  generalize (t.heap.hold x).register g x = result at *
  obtain ⟨(_ | q) | q, heap⟩ := result
  · obtain ⟨-, howns, -⟩ := hslot [] hqueues (by simp) ho
    exact ⟨rfl, hregistered, howns.covers.count_pos List.mem_cons_self⟩
  · obtain ⟨xs, stats, hq⟩ := hqueues
    obtain ⟨-, howns, -⟩ := hslot [_] hq (by simp [ReleaseQueue.unlocks]) ho
    -- while the queue is worked off, the holder in hand is kept
    have hopened : Owns { t with heap := heap } ((F.keep x).opened ⟨q, xs, .complete g stats⟩) :=
      Owns.keep (F := F.opened ⟨q, xs, .complete g stats⟩) howns
    have hrelease : Comes { t with heap := heap } ((F.keep x).opened ⟨q, xs, .complete g stats⟩)
        (drain run q xs { t with heap := heap }) (F.keep x) :=
      composes_comes.drain hrun q _ xs _
    obtain ⟨howns, -, hkeeps⟩ := hrelease.registered hopened
    dsimp only
    rw [release, waiting_head hq]
    refine ⟨rfl, hkeeps g hg x List.mem_cons_self hregistered, ?_⟩
    exact Nat.lt_of_lt_of_le (List.count_pos_iff.mpr List.mem_cons_self) (howns.kept_le x)
  · cases haccepted

/-! ## Creations -/

variable {panics : Panics}

theorem createFrom_eq {α : Type} {init : Session → α × Holder × Session}
    (hinit : (init s).2 = (x, t)) : (s.createFrom run g init).2 = t.register run g x := by
  unfold createFrom
  generalize init s = result at *
  obtain ⟨told, y, u⟩ := result
  obtain ⟨rfl, rfl⟩ := Prod.mk.inj hinit
  rfl

theorem createPanicking_eq {α : Type} {init : Session → α × Holder × Session}
    (hinit : (init s).2 = (x, t)) :
    (s.createPanicking run panics g init).2 = t.registerPanicking run panics g x := by
  unfold createPanicking
  generalize init s = result at *
  obtain ⟨told, y, u⟩ := result
  obtain ⟨rfl, rfl⟩ := Prod.mk.inj hinit
  rfl

/-- **A creation panics on what is registered already, and for its hooks.** Take any state in which the
application has what it needs, the collector is in use and its lock is free, any initialiser that
arrives there with an object in hand, and any hooks, which may panic after all that they do. Suppose
that the creation comes to an end, which without hooks it does. The object is refused iff it is
registered when the initialiser is done, and whether a due pass runs first makes no difference to that.
If it is not, the creation panics iff a hook does, among those that run when the slots of a due pass are
released. Otherwise the object is handed back, and whatever the hooks did, it is then registered and the
application has a holder of it. All that is needed of the hooks is that they take nothing away from
those who have it in hand. They may clone what the pass releases and run creations of which they catch
the panic, for such a creation in turn leaves the application what it had. If no hook ever panics, the
creation is the one that programs run. Programs only come to such states: all the initialisers, hosts
and hooks that run within their steps leave the application what it needs, and each step keeps its
collector in use. -/
theorem creation_panics_iff :
    (∀ (α : Type) (run : Runner) (panics : Panics) (init : Session → α × Holder × Session)
      (s t : Session) (F : Hand) (g : CollectorId) (x : Holder), (init s).2 = (x, t) →
      t.Owns (F.more [x]) → g ∈ F.inUse → t.stuck = false → (t.heap.collector g).locked = false →
      let ending := (s.createPanicking run panics g init).2.1
      let u := (s.createPanicking run panics g init).2.2
      (((t.heap.hold x).duePass g).2.Registered g x.handle ↔ t.heap.Registered g x.handle) ∧
      (ending = .halted ↔ u.stuck = true) ∧ (t.hooks = ∅ → ending ≠ .halted) ∧
      (ending ≠ .halted →
        (ending = .refused x.handle ↔ t.heap.Registered g x.handle) ∧
        (ending = .unwound ↔
          ¬ t.heap.Registered g x.handle ∧ t.SweptPanics run panics g x) ∧
        (ending = .returned x ↔
          ¬ t.heap.Registered g x.handle ∧ ¬ t.SweptPanics run panics g x)) ∧
      (Tolerant run → Comes t (F.more [x]) u (F.more ending.inHand) ∧
        (ending = .returned x → u.heap.Registered g x.handle ∧ 0 < u.heap.held.count x)) ∧
      ((∀ v h hook, panics v h hook = false) → u = (s.createFrom run g init).2.2 ∧
        ending.answer? = if u.stuck then none else some (s.createFrom run g init).2.1)) ∧
    (∀ depth, Honest (runSteps depth)) ∧ (∀ run, Honest run → Tolerant run) ∧
    (∀ name spec, (Session.start name spec).Owns (.empty False)) ∧
    (∀ (s : Session) (F : Hand) (name : String) (g : CollectorId), s.Owns F →
      s.collectors[name]? = some g → Owns { s with inUse := g :: s.inUse } (F.using g)) ∧
    (∀ depth collector source taken steps name s (F : Hand), ¬ F.alone →
      s.Owns (F.more taken.toList) →
      let result := initialise (runSteps depth) collector source taken steps name s
      result.2.2.Owns (F.more [result.2.1])) ∧
    ∀ (s t : Session) (F G : Hand), Comes s F t G → s.Owns F → t.Owns G := by
  refine ⟨?_, honest_runSteps, fun _ => Honest.tolerant, fun name spec => owns_start name spec False,
    ?_, ?_, fun s t F G h ho => (h.registered ho).1⟩
  · intro α run panics init s t F g x hinit ho hg hs hlock
    have hlt : g < t.heap.collectors.length := (ho.inOrder hs).inUse_lt g hg
    have hfree := acquire_of_free hs hlock
    have haccepted : ((t.heap.hold x).register g x).1.isAccepted = false ↔
        t.heap.Registered g x.handle :=
      isAccepted_register (w := t.heap.hold x) hlt (count_hold_pos t.heap x)
    have hcases := registerPanicking_cases (x := x) run panics hfree
    have hnew := fun hrun => @register_of_unregistered t F g x run hrun hg ho hs hlock
    have hcomes := fun hrun => @comes_registerPanicking t F g x run panics hrun hg hfree
    have hnever := @registerPanicking_of_never t g x run panics
    have hends := @registerPanicking_of_no_hooks t g x run panics
    rw [createPanicking_eq hinit, createFrom_eq hinit]
    generalize ((t.heap.hold x).register g x).1.isAccepted = accepted at *
    generalize t.registerPanicking run panics g x = result at *
    obtain ⟨ending, u⟩ := result
    refine ⟨registered_duePass_hold hlt, ?_, fun h => hends h hfree, fun he => ?_,
      fun hrun => ⟨hcomes hrun, ?_⟩, fun h => hnever h hfree⟩ <;> dsimp only at *
    · rcases hcases with ⟨rfl, hu⟩ | ⟨hu, ⟨-, rfl⟩ | ⟨-, -, rfl⟩ | ⟨-, -, rfl, -⟩⟩ <;> simp [hu]
    · rw [← haccepted]
      rcases hcases with ⟨rfl, -⟩ | ⟨-, ⟨rfl, rfl⟩ | ⟨rfl, hp, rfl⟩ | ⟨rfl, hp, rfl, -⟩⟩
      · exact absurd rfl he
      · simp
      · simp [hp]
      · simp [hp]
    · rintro rfl
      rcases hcases with ⟨he, -⟩ | ⟨-, ⟨-, he⟩ | ⟨-, -, he⟩ | ⟨ha, -, -, he⟩⟩ <;> try cases he
      have hx : ¬ t.heap.Registered g x.handle := by
        rw [← haccepted, ha]
        exact Bool.noConfusion
      have hdone := (hnew hrun hx).2
      rwa [he] at hdone
  · intro s F name g ho hname
    exact (goes_using (fun hs => (ho.inOrder hs).named_lt name g hname) ho).2.1
  · intro depth collector source taken steps name s F hF ho result
    have hinit : Goes s (F.more taken.toList) result.2.2 (F.more [result.2.1]) :=
      goes_initialise (honest_runSteps depth) collector taken name s (fun h => absurd h hF)
        fun h => absurd h hF
    exact (hinit ho).2.1

/-- With step two the creation sweeps a probe. Its hook looks the new object up, lets go of it,
collects, and puts another collector in the place of the one that is in use. If it panics after that, so
does the creation. -/
theorem creation_panics_iff_of_hook :
    let hook : List Step := [.mk "gc" (.get .node (.raw (.fresh 1)) (some "n")), .mk "gc" (.drop "n"),
      .mk "gc" .cleanup, .mk "gc" (.placeCollector "gc" (.withStep 9))]
    let s := (runSteps 20 [.mk "gc" (.create (.fresh .probe hook) none (some "p")),
      .mk "gc" (.drop "p")] (.start "gc" (.withStep 2))).2
    let init := initialise (runSteps 20) "gc" (.fresh .node []) none [] none
    let s' := { s with inUse := 0 :: s.inUse }
    let x : Holder := ⟨.fresh 1, .whole⟩
    let t := (init s').2.2
    let others : Panics := fun _ h _ => h != .fresh 0
    let all : Panics := fun _ _ _ => true
    let calm := (s'.createPanicking (runSteps 20) others 0 init).2
    let panicked := (s'.createPanicking (runSteps 20) all 0 init).2
    calm.2.drops.map (fun | .mk _ _ inner => inner.length) = [4] ∧ calm.1 = .returned x ∧
      calm.2.heap.Registered 0 x.handle ∧ 0 < calm.2.heap.held.count x ∧
      panicked.2.drops.map (fun | .mk _ _ inner => inner.length) = [4] ∧ panicked.1 = .unwound ∧
      ¬ t.heap.Registered 0 x.handle ∧ t.SweptPanics (runSteps 20) all 0 x := by
  intro hook s init s' x t others all calm panicked
  obtain ⟨hcreation, hhonest, htolerant, hstart, huse, hinit, -⟩ := creation_panics_iff
  have hs : s.Owns (.empty False) := (hhonest 20 _ _ _ False.elim (hstart "gc" (.withStep 2))).2.1
  have hs' : s'.Owns ((Hand.empty False).using 0) := huse s _ "gc" 0 hs (by decide +kernel)
  have hx : (init s').2.1 = x := by decide +kernel
  have ht : t.Owns (((Hand.empty False).using 0).more [x]) := hx ▸
    hinit 20 "gc" (.fresh .node []) none [] none s' ((Hand.empty False).using 0) id hs'
  have hstuck : t.stuck = false := by decide +kernel
  have hfree : (t.heap.collector 0).locked = false := by decide +kernel
  have hcalm : calm.2.drops.map (fun | .mk _ _ inner => inner.length) = [4] ∧
      calm.1 = .returned x := by decide +kernel
  have hpanicked : panicked.2.drops.map (fun | .mk _ _ inner => inner.length) = [4] ∧
      panicked.1 = .unwound := by decide +kernel
  have hends : panicked.1 ≠ .halted := by rw [hpanicked.2]; exact Ending.noConfusion
  -- nothing else counts of the start
  clear_value s' x
  have hreturned := ((hcreation _ (runSteps 20) others init s' t ((Hand.empty False).using 0) 0 x
    (Prod.ext hx rfl) ht List.mem_cons_self hstuck hfree).2.2.2.2.1
    (htolerant _ (hhonest 20))).2 hcalm.2
  have hunwound := ((hcreation _ (runSteps 20) all init s' t ((Hand.empty False).using 0) 0 x
    (Prod.ext hx rfl) ht List.mem_cons_self hstuck hfree).2.2.2.1 hends).2.1
  exact ⟨hcalm.1, hcalm.2, hreturned.1, hreturned.2, hpanicked.1, hpanicked.2,
    hunwound.mp hpanicked.2⟩

/-- A creation can panic although its object is new, since the hook of a probe that its pass sweeps
panics. And it can fail to panic although its object is registered: the hook of the probe, which looks
at its collector, then waits for the lock that the refused registration keeps. -/
theorem panicked_without_duplicate :
    let steps : List Step := [.mk "gc" (.create (.fresh .probe []) none (some "p")),
      .mk "gc" (.create (.fresh .node []) none (some "a")), .mk "gc" (.base "a" (some "b")),
      .mk "gc" (.drop "p")]
    let s := (runSteps 20 steps (.start "gc" (.withStep 3))).2
    let base : Holder := ⟨.fresh 1, .base⟩
    let fresh := initialise (runSteps 20) "gc" (.fresh .node []) none [] none
    let again := initialise (runSteps 20) "gc" (.again "b") (some base) [] none
    let s' := s.update (·.hold base)
    ¬ (fresh s).2.2.heap.Registered 0 (fresh s).2.1.handle ∧
      (s.createPanicking (runSteps 20) (fun _ _ _ => true) 0 fresh).2.1 = .unwound ∧
      (again s').2.2.heap.Registered 0 base.handle ∧
      (s'.createPanicking (runSteps 20) (fun _ _ _ => false) 0 again).2.1 = .halted := by
  intro steps s base fresh again s'
  rw [Registered, Registered]
  decide +kernel

end Program.Session

end SharedHeap
