import SharedHeap.Proofs.Operation
import SharedHeap.Proofs.Queues

/-! # The run of a single thread

A thread works at the latest of its open queues: what a hook begins is over before the release that
it belongs to goes on. And it takes a lock only if that is free, for behind a lock that it holds
itself it would wait for ever. Every lock that is held has one open queue at whose end it is given
back. -/

namespace SharedHeap

open Heap

/-- The event is about a pass in progress, or about its end. -/
def Event.ofPass : Event → Bool
  | passStarted _ | danglingLink _ | passMarked _ | passSwept _ | passComplete _ _ => true
  | _ => false

/-- The event is not reported by a collector on its own, but by who makes it, uses it or times it. -/
def Event.isAnnouncement : Event → Bool
  | globalStarting | configured _ _ | hostDone | hostsDone _ | operationDone _ => true
  | _ => false

namespace Action

/-- The lock that the action takes is free. -/
def FindsFree (w : Heap) (a : Action) : Prop :=
  ∀ g ∈ a.lock?, g < w.collectors.length ∧ (w.collector g).locked = false

instance (w : Heap) (a : Action) : Decidable (a.FindsFree w) := by
  unfold FindsFree
  infer_instance

/-- The action is next: of the open queues the latest one goes on, and a lock is free. -/
def InTurn (w : Heap) : Action → Prop
  | release q => ∃ p ∈ w.queues.head?, p.id = q ∧ p.waiting ≠ []
  | close q => ∃ p ∈ w.queues.head?, p.id = q ∧ p.waiting = []
  | a => a.FindsFree w

instance decidableInTurn (w : Heap) : (a : Action) → Decidable (a.InTurn w)
  | release q => inferInstanceAs (Decidable (∃ p ∈ w.queues.head?, p.id = q ∧ p.waiting ≠ []))
  | close q => inferInstanceAs (Decidable (∃ p ∈ w.queues.head?, p.id = q ∧ p.waiting = []))
  | allocate _ | clone _ | drop _ | touch _ _ | addCollector _ | register _ _ | get _ _ _
  | getObject _ _ | cleanup _ | stop _ | resume _ | setStep _ _ | retire _ | registryInsert _ _
  | registryErase _ _ | registryRetain _ _ | report _ => inferInstanceAs (Decidable (FindsFree w _))

/-- If something is reported apart from an operation, it is one event, and not about a pass. -/
def Tells (w : Heap) : Action → Prop
  | report events => ∃ e, events = e :: w.events ∧ e.ofPass = false
  | _ => True

/-- If something is reported apart from an operation, it is one announcement. -/
def Announces (w : Heap) : Action → Prop
  | report events => ∃ e, events = e :: w.events ∧ e.isAnnouncement = true
  | _ => True

variable {w : Heap} {a : Action} {q : QueueId}

theorem Announces.tells (ha : a.Announces w) : a.Tells w := by
  cases a with
  | report events =>
    obtain ⟨e, rfl, he⟩ := ha
    exact ⟨e, rfl, by cases e <;> first | rfl | cases he⟩
  | _ => trivial

theorem FindsFree.of_none (ha : a.lock? = none) : a.FindsFree w := by
  intro g hg
  rw [ha] at hg
  cases hg

theorem inTurn_release_iff : (release q).InTurn w ↔
    ∃ p ps, w.queues = p :: ps ∧ p.id = q ∧ p.waiting ≠ [] := by
  unfold InTurn
  cases w.queues <;> simp

theorem inTurn_close_iff : (close q).InTurn w ↔
    ∃ p ps, w.queues = p :: ps ∧ p.id = q ∧ p.waiting = [] := by
  unfold InTurn
  cases w.queues <;> simp

theorem InTurn.findsFree (ha : a.InTurn w) : a.FindsFree w := by
  cases a with
  | release q | close q => exact .of_none rfl
  | _ => exact ha

end Action

namespace Heap

variable {w : Heap} {a : Action} {as bs : List Action} {g g' : CollectorId} {p : ReleaseQueue}
  {ps : List ReleaseQueue} {q : QueueId} {P : Heap → Action → Prop}

/-! ## Runs -/

/-- Each of the actions is as `P` says when its turn comes. -/
def Each (P : Heap → Action → Prop) (w : Heap) : List Action → Prop
  | [] => True
  | a :: as => P w a ∧ (a.perform w).Each P as

instance decidableEach [∀ w a, Decidable (P w a)] (w : Heap) : (as : List Action) →
    Decidable (w.Each P as)
  | [] => isTrue trivial
  | a :: as =>
    have := decidableEach (a.perform w) as
    inferInstanceAs (Decidable (P w a ∧ (a.perform w).Each P as))

theorem each_append : w.Each P (as ++ bs) ↔ w.Each P as ∧ (w.performs as).Each P bs := by
  induction as generalizing w with
  | nil => simp [Each, performs]
  | cons a as ih => simp [Each, performs, ih, and_assoc]

theorem Each.imp {P' : Heap → Action → Prop} (h : ∀ w a, P w a → P' w a) (hp : w.Each P as) :
    w.Each P' as := by
  induction as generalizing w with
  | nil => trivial
  | cons a as ih => exact ⟨h w a hp.1, ih hp.2⟩

theorem Each.of_forall (h : ∀ a ∈ as, ∀ w, P w a) (w : Heap) : w.Each P as := by
  induction as generalizing w with
  | nil => trivial
  | cons a as ih =>
    exact ⟨h a List.mem_cons_self w, ih (fun b hb => h b (List.mem_cons_of_mem _ hb)) _⟩

/-- What every action keeps, if it is as `P` says, is there whenever the next one comes. -/
theorem Each.invariant {I : Heap → Prop} {Q : Heap → Action → Prop}
    (step : ∀ w a, I w → P w a → I (a.perform w) ∧ Q w a) (hi : I w) (hp : w.Each P as) :
    I (w.performs as) ∧ w.Each Q as := by
  induction as generalizing w with
  | nil => exact ⟨hi, trivial⟩
  | cons a as ih =>
    obtain ⟨hi, hq⟩ := step w a hi hp.1
    obtain ⟨hi, hqs⟩ := ih hi hp.2
    exact ⟨hi, hq, hqs⟩

/-- What actions come to one after the other, the latest first. -/
def gather {α : Type} (f : Heap → Action → Option α) (w : Heap) : List Action → List α
  | [] => []
  | a :: as => (a.perform w).gather f as ++ (f w a).toList

/-- The actions can be those of a single thread. -/
def Orderly (w : Heap) (as : List Action) : Prop := w.Each Action.InTurn as

instance (w : Heap) (as : List Action) : Decidable (w.Orderly as) := decidableEach w as

/-! ## The latest queue -/

theorem queue?_head (hq : w.queues = p :: ps) : w.queue? p.id = some p := by
  simp [queue?, hq]

theorem waiting_head (hq : w.queues = p :: ps) : w.waiting p.id = p.waiting := by
  rw [waiting, queue?_head hq]
  rfl

theorem Numbered.ne_of_mem_tail (hn : w.Numbered) (hq : w.queues = p :: ps) {r : ReleaseQueue}
    (hr : r ∈ ps) : r.id ≠ p.id := by
  have hnodup := hn.nodup
  rw [hq, List.map_cons, List.nodup_cons] at hnodup
  exact fun he => hnodup.1 (he ▸ List.mem_map_of_mem hr)

theorem Numbered.releaseNext_head (hn : w.Numbered) (hq : w.queues = p :: ps) :
    (w.releaseNext p.id).queues = { p with waiting := p.waiting.tail } :: ps := by
  have hrest : ps.map (fun r : ReleaseQueue =>
      if r.id == p.id then { r with waiting := r.waiting.tail } else r) = ps := by
    refine (List.map_congr_left fun r hr => ?_).trans (List.map_id ps)
    rw [if_neg (by simpa using hn.ne_of_mem_tail hq hr)]
    rfl
  simp only [Heap.releaseNext, hq, List.map_cons, hrest]
  simp

theorem Numbered.closeQueue_head (hn : w.Numbered) (hq : w.queues = p :: ps) :
    (w.closeQueue p.id).queues = ps := by
  have hrest : ps.filter (·.id != p.id) = ps := List.filter_eq_self.mpr fun r hr => by
    simpa using hn.ne_of_mem_tail hq hr
  rw [(queues_closeQueue w p.id).1, hq, List.filter_cons_of_neg (by simp), hrest]

/-! ## Locks -/

theorem locked_of_length_le (hg : w.collectors.length ≤ g) : (w.collector g).locked = false := by
  rw [collector, List.getElem?_eq_none_iff.mpr hg]
  rfl

theorem locked_closeQueue (hq : w.queue? q = some p) (g : CollectorId) :
    ((w.closeQueue q).collector g).locked = ((w.collector g).locked && !p.unlocks g) := by
  unfold closeQueue
  rw [hq]
  obtain ⟨id, waiting, after⟩ := p
  cases after with
  | complete g' stats =>
    have hcol : (({ w with queues := w.queues.filter (·.id != q) }.finishPass g' stats).collector
        g).locked = (w.collector g).locked :=
      apply_modifyCollector (f := Collector.locked) (m := fun c => { c with
        collectionsRun := c.collectionsRun + 1, objectsSwept := c.objectsSwept + stats.swept })
        (fun _ => rfl) w g' g
    simpa [ReleaseQueue.unlocks] using hcol
  | unlock g' =>
    have hcol := collector_modifyCollector { w with queues := w.queues.filter (·.id != q) } g' g
      fun c => { c with locked := false }
    dsimp only
    rw [hcol]
    by_cases he : g' = g
    · subst he
      by_cases hlt : g' < w.collectors.length
      · simp [hlt, ReleaseQueue.unlocks]
      · have hfree := locked_of_length_le (Nat.le_of_not_lt hlt)
        rw [if_neg fun h => hlt h.2, hfree]
        exact hfree
    · rw [if_neg fun h => he h.1]
      simp [ReleaseQueue.unlocks, he]
      rfl
  | nothing => simp [ReleaseQueue.unlocks]; rfl

/-- Apart from the ends of queues, what becomes of a lock is that a refused registration keeps it. -/
theorem locked_perform (hc : ∀ q, a ≠ .close q) (g : CollectorId) :
    ((a.perform w).collector g).locked = ((w.collector g).locked || a.refuses w g) := by
  rw [apply_perform (f := Collector.locked) (fun _ _ _ _ _ => rfl) hc]
  cases a.refuses w g <;> simp

/-- A collector is locked iff an open queue ends with giving the lock back, and there is only one. -/
def Guarded (w : Heap) : Prop :=
  ∀ g, w.queues.countP (·.unlocks g) = if (w.collector g).locked then 1 else 0

theorem Guarded.exists_unlocks (hw : w.Guarded) (hg : (w.collector g).locked = true) :
    ∃ p ∈ w.queues, p.unlocks g = true := by
  refine List.countP_pos_iff.mp ?_
  rw [hw g, if_pos hg]
  exact Nat.one_pos

theorem Guarded.locked (hw : w.Guarded) (hp : p ∈ w.queues) (hu : p.unlocks g = true) :
    (w.collector g).locked = true := by
  have hpos : 0 < w.queues.countP (·.unlocks g) := List.countP_pos_iff.mpr ⟨p, hp, hu⟩
  rw [hw g] at hpos
  by_contra hn
  rw [if_neg hn] at hpos
  exact absurd hpos (Nat.lt_irrefl 0)

theorem Guarded.closeQueue (hw : w.Guarded) (hn : w.Numbered) (q : QueueId) :
    (w.closeQueue q).Guarded := by
  intro g
  cases hq : w.queue? q with
  | none =>
    rw [Heap.closeQueue, hq]
    exact hw g
  | some p =>
    have hp := List.mem_of_find?_eq_some hq
    obtain rfl : p.id = q := by simpa using List.find?_some hq
    have hcount := (hn.perm_filter hp).countP_eq (·.unlocks g)
    rw [List.countP_cons, hw g] at hcount
    rw [(queues_closeQueue w p.id).1, locked_closeQueue hq]
    cases hu : p.unlocks g with
    | false =>
      simp only [hu] at hcount
      simpa using hcount.symm
    | true =>
      have hlocked := hw.locked hp hu
      simp only [hu, hlocked] at hcount
      simp only [hlocked]
      simp at hcount ⊢
      exact hcount

theorem Guarded.releaseNext (hw : w.Guarded) (q : QueueId) : (w.releaseNext q).Guarded := by
  intro g
  obtain ⟨f, hf, -, hafter⟩ := queues_releaseNext w q
  have hunlocks : ∀ p, (f p).unlocks g = p.unlocks g := fun p => by
    simp only [ReleaseQueue.unlocks, hafter]
  rw [hf, List.countP_map]
  simp only [Function.comp_def, hunlocks]
  exact hw g

theorem Guarded.perform (hw : w.Guarded) (hn : w.Numbered) (ha : a.FindsFree w) :
    (a.perform w).Guarded := by
  obtain ⟨q, rfl⟩ | ⟨q, rfl⟩ | ⟨hr, hc⟩ := a.release_or_close
  · exact hw.releaseNext q
  · exact hw.closeQueue hn q
  · obtain ⟨new, hnew, -, hunlocks⟩ := opens_perform (w := w) hr hc
    intro g
    rw [locked_perform hc g, hnew.queues, List.countP_append, hw g, ← hunlocks g]
    cases new with
    | none => simp
    | some p =>
      cases hu : p.unlocks g with
      | false => simp [hu]
      | true =>
        -- whoever keeps the lock took it, so it was free
        have hfree : (w.collector g).locked = false := by
          have hrefuses : a.refuses w g = true := by rw [← hunlocks g]; exact hu
          cases a with
          | register g' x =>
            obtain rfl : g' = g := by
              simp only [Action.refuses, Bool.and_eq_true, decide_eq_true_eq] at hrefuses
              exact hrefuses.1
            exact (ha g' rfl).2
          | _ => cases hrefuses
        simp [hu, hfree]

/-- The queues have numbers of their own, and every lock that is held has a queue. -/
structure Sound (w : Heap) : Prop where
  numbered : w.Numbered
  guarded : w.Guarded

theorem sound_initial (n : Nat) : (initial n).Sound :=
  ⟨numbered_initial n, fun g => by rw [locked_of_length_le (Nat.zero_le g)]; rfl⟩

theorem Sound.perform (hw : w.Sound) (ha : a.FindsFree w) : (a.perform w).Sound :=
  ⟨hw.numbered.perform a, hw.guarded.perform hw.numbered ha⟩

theorem Sound.performs (hw : w.Sound) (has : w.Orderly as) : (w.performs as).Sound := by
  induction as generalizing w with
  | nil => exact hw
  | cons a as ih => exact ih (hw.perform has.1.findsFree) has.2

end Heap

end SharedHeap
