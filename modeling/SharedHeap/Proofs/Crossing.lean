import SharedHeap.Proofs.Conservation
import SharedHeap.Proofs.Stopped
import Mathlib.Data.Nat.Find

/-! # Passes that cross

A pass has the lock of its collector, and nothing else: while it counts holders and reads links, other
threads use the objects, release what earlier passes swept, and run passes over other collectors. Here
every pass takes its steps one by one, and whatever needs no lock that is taken comes between them. The
sweep and what follows it in the critical section are one turn, since only the lock shows what they
change. A pass that nothing comes between is one action, as it is elsewhere. -/

namespace SharedHeap

open Heap

/-- What a pass is run for. -/
inductive Errand where
  | cleanup
  | register (x : Holder)

namespace Errand

/-- The action that runs the whole pass at once. -/
def action (g : CollectorId) : Errand → Action
  | cleanup => .cleanup g
  | register x => .register g x

/-- A pass over `g` is to be run: the collector is not stopped, or the registration reaches its step. -/
def Due (w : Heap) (g : CollectorId) : Errand → Prop
  | cleanup => (w.collector g).state ≠ .stopped
  | register _ => w.PassDue g

instance (w : Heap) (g : CollectorId) : (e : Errand) → Decidable (e.Due w g)
  | cleanup => inferInstanceAs (Decidable ((w.collector g).state ≠ .stopped))
  | register _ => inferInstanceAs
      (Decidable ((w.collector g).isDue = true ∧ (w.collector g).state = .idle))

/-- What is reported before the pass. -/
def announce (w : Heap) (g : CollectorId) : Errand → Heap
  | cleanup => w
  | register _ => w.emit (.thresholdReached (w.collector g).pending (w.collector g).step)

/-- What follows the sweep: the pass is to be finished, or its registration comes first. -/
def finish (w : Heap) (g : CollectorId) (pass : PassStats × List Holder) :
    Errand → Option Registration × Heap
  | cleanup => (none, (w.openQueue pass.2 (.complete g pass.1)).2)
  | register x => ((w.enroll g x (some pass)).1, (w.enroll g x (some pass)).2)

/-- The action announces the pass, runs it, and does what is left. -/
theorem perform_action {w : Heap} {g : CollectorId} {e : Errand} (hdue : e.Due w g) :
    (e.action g).perform w = (e.finish ((e.announce w g).runPass g).2 g
      ((e.announce w g).runPass g).1).2 := by
  cases e with
  | cleanup =>
    rw [action, Action.perform, beginCleanup, if_neg hdue]
    rfl
  | register x =>
    rw [action, Action.perform, register_eq_enroll, duePass_of_due hdue]
    rfl

end Errand

/-- The books of a heap, and the passes in progress: at most one over each collector. -/
structure Crossing where
  books : Books
  passes : CollectorId → Option (Errand × Phase) := fun _ => none

/-- A posting, or a turn of a pass over some collector. -/
inductive Turn where
  | posting (e : Posting)
  /-- Takes the lock and begins. -/
  | enter (g : CollectorId) (e : Errand)
  /-- Counts the holders of one object, or reads the links of one. -/
  | read (g : CollectorId)
  /-- Sweeps, does what the pass was run for, and gives the lock back. -/
  | leave (g : CollectorId)

def Posting.lock? : Posting → Option CollectorId
  | action a => a.lock?
  | _ => none

namespace Crossing

variable (s : Crossing)

abbrev heap : Heap := s.books.heap

/-- The pass in progress over `g`, with the heap that it works on. -/
def passing? (g : CollectorId) : Option Passing := (s.passes g).map fun p => ⟨s.heap, p.2⟩

/-- The same with another heap, and with another pass over `g` or none. -/
def set (g : CollectorId) (p : Option (Errand × Phase)) (w : Heap) : Crossing where
  books := { s.books with heap := w }
  passes g' := if g' = g then p else s.passes g'

/-- What leaving comes to for the pass over `g`: what it counted and swept, the registration that it
was run for, and the heap. -/
def left? (g : CollectorId) : Option ((PassStats × List Holder) × Option Registration × Heap) :=
  match s.passes g with
  | some (e, .marking m) =>
    let (pass, w) := s.heap.endPass g m
    some (pass, e.finish w g pass)
  | _ => none

end Crossing

namespace Turn

/-- Nobody waits: the locks that are asked for are free, and a pass goes on until it can sweep. -/
def Enabled (s : Crossing) : Turn → Prop
  | posting e => e.Enabled s.books ∧ ∀ g ∈ e.lock?, (s.passes g).isNone = true
  | enter g e => (s.passes g).isNone = true ∧ g < s.heap.collectors.length ∧ e.Due s.heap g
  | read g => ∃ p ∈ s.passing? g, ¬ p.Sweeps
  | leave g => ∃ p ∈ s.passing? g, p.Sweeps

instance (s : Crossing) : (t : Turn) → Decidable (t.Enabled s)
  | posting e =>
    inferInstanceAs (Decidable (e.Enabled s.books ∧ ∀ g ∈ e.lock?, (s.passes g).isNone = true))
  | enter g e => inferInstanceAs
      (Decidable ((s.passes g).isNone = true ∧ g < s.heap.collectors.length ∧ e.Due s.heap g))
  | read g => inferInstanceAs (Decidable (∃ p ∈ s.passing? g, ¬ p.Sweeps))
  | leave g => inferInstanceAs (Decidable (∃ p ∈ s.passing? g, p.Sweeps))

def perform (s : Crossing) : Turn → Crossing
  | posting e => { s with books := e.perform s.books }
  | enter g e =>
    let p := Passing.start (e.announce s.heap g) g
    s.set g (some (e, p.phase)) p.heap
  | read g =>
    match s.passes g with
    | some (e, phase) => s.set g (some (e, (Passing.advance g ⟨s.heap, phase⟩).phase)) s.heap
    | none => s
  | leave g =>
    match s.left? g with
    | some (_, _, w) => s.set g none w
    | none => s

/-- The statistics of the pass over `g` that a turn ends, or runs as a whole. -/
def pass? (s : Crossing) (g : CollectorId) : Turn → Option PassStats
  | posting (.action a) => a.pass? s.heap g
  | leave g' => if g' = g then (s.left? g).map (·.1.1) else none
  | _ => none

/-- The turn registers an object in `g`. -/
def registers (s : Crossing) (g : CollectorId) : Turn → Bool
  | posting (.action a) => a.registers s.heap g
  | leave g' => g' = g && (s.left? g).any fun (_, r, _) => r.any (·.isAccepted)
  | _ => false

/-- The turn tries to register in `g` what is registered there already. -/
def refuses (s : Crossing) (g : CollectorId) : Turn → Bool
  | posting (.action a) => a.refuses s.heap g
  | leave g' => g' = g && (s.left? g).any fun (_, r, _) => r.any (!·.isAccepted)
  | _ => false

end Turn

namespace Crossing

/-- What some turns come to. -/
def performs (s : Crossing) : List Turn → Crossing
  | [] => s
  | t :: ts => (t.perform s).performs ts

/-- Each of the turns is enabled when it comes. -/
def Allows (s : Crossing) : List Turn → Prop
  | [] => True
  | t :: ts => t.Enabled s ∧ (t.perform s).Allows ts

instance decidableAllows (s : Crossing) : (ts : List Turn) → Decidable (s.Allows ts)
  | [] => isTrue trivial
  | t :: ts =>
    have := decidableAllows (t.perform s) ts
    inferInstanceAs (Decidable (t.Enabled s ∧ (t.perform s).Allows ts))

/-- Bare registries, no pass in progress, and nothing else. -/
def initial (n : Nat) : Crossing := { books := ⟨Heap.initial n, []⟩ }

variable {s : Crossing} {t : Turn} {ts : List Turn} {g g' : CollectorId} {e : Errand} {w : Heap}
  {p : Option (Errand × Phase)}

theorem performs_append (s : Crossing) (ts us : List Turn) :
    s.performs (ts ++ us) = (s.performs ts).performs us := by
  induction ts generalizing s with
  | nil => rfl
  | cons t ts ih => exact ih (t.perform s)

theorem allows_append (s : Crossing) (ts us : List Turn) :
    s.Allows (ts ++ us) ↔ s.Allows ts ∧ (s.performs ts).Allows us := by
  induction ts generalizing s with
  | nil => simp [Allows, performs]
  | cons t ts ih => simp [Allows, performs, ih, and_assoc]

@[simp] theorem set_passes_self : (s.set g p w).passes g = p := if_pos rfl

@[simp] theorem set_set (s : Crossing) (g : CollectorId) (p p' : Option (Errand × Phase))
    (w w' : Heap) : (s.set g p w).set g p' w' = s.set g p' w' := by
  simp only [set, mk.injEq, true_and]
  funext g'
  split <;> rfl

theorem set_self (hp : s.passes g = p) : s.set g p s.heap = s := by
  obtain ⟨b, passes⟩ := s
  simp only [set, mk.injEq, true_and]
  funext g'
  split
  · rename_i hg
    rw [hg, ← hp]
  · rfl

theorem set_none (hg : s.passes g = none) (w : Heap) :
    s.set g none w = { s with books := { s.books with heap := w } } :=
  set_self (s := { s with books := { s.books with heap := w } }) hg

theorem set_passes_of_ne (hg : g' ≠ g) : (s.set g p w).passes g' = s.passes g' := if_neg hg

/-- A way to keep the books is a way to take turns, if nobody else is in the way. -/
theorem allows_postings {b : Books} {es : List Posting} (hallows : b.Allows es) :
    Allows ⟨b, fun _ => none⟩ (es.map .posting) ∧
      performs ⟨b, fun _ => none⟩ (es.map .posting) = ⟨b.performs es, fun _ => none⟩ := by
  induction es generalizing b with
  | nil => exact ⟨trivial, rfl⟩
  | cons e es ih =>
    obtain ⟨ha, hp⟩ := ih hallows.2
    exact ⟨⟨⟨hallows.1, fun _ _ => rfl⟩, ha⟩, hp⟩

end Crossing

/-! ## A pass that nothing comes between -/

namespace Passing

variable {p : Passing} {g : CollectorId}

/-- A step before the sweep only reads. -/
theorem advance_of_not_sweeps (hp : ¬ p.Sweeps) :
    (p.advance g).heap = p.heap ∧ ∀ result, (p.advance g).phase = .done result → p.phase = .done result := by
  obtain ⟨w, phase⟩ := p
  cases phase with
  | reading unread roots => cases unread <;> exact ⟨rfl, nofun⟩
  | marking m =>
    have hs : m.stack ≠ [] := fun hs => hp ⟨m, rfl, hs⟩
    unfold advance
    split
    · contradiction
    · contradiction
    · rename_i hm
      obtain rfl := Phase.marking.inj hm
      split
      · contradiction
      · exact ⟨rfl, nofun⟩
    · contradiction
  | done result => exact ⟨rfl, fun _ h => h⟩

/-- Until the first sweep nothing but the phase changes. -/
theorem play_before_sweep (w : Heap) {n : Nat}
    (hn : ∀ k < n, ¬ ((start w g).play g (List.replicate k none)).Sweeps) :
    ((start w g).play g (List.replicate n none)).heap = w.beginPass g ∧
      ∀ result, ((start w g).play g (List.replicate n none)).phase ≠ .done result := by
  induction n with
  | zero => exact ⟨rfl, nofun⟩
  | succ n ih =>
    obtain ⟨hheap, hphase⟩ := ih fun k hk => hn k (Nat.lt_succ_of_lt hk)
    obtain ⟨hsame, hdone⟩ := advance_of_not_sweeps (g := g) (hn n (Nat.lt_succ_self n))
    rw [List.replicate_succ', play_concat]
    exact ⟨hsame.trans hheap, fun result h => hphase result (hdone result h)⟩

/-- A pass that nothing comes between gets to its sweep. -/
theorem exists_sweep (w : Heap) (g : CollectorId) :
    ∃ n, (∀ k < n, ¬ ((start w g).play g (List.replicate k none)).Sweeps) ∧
      ((start w g).play g (List.replicate n none)).Sweeps ∧
      ((start w g).play g (List.replicate n none)).advance g =
        ⟨(w.runPass g).2, .done (w.runPass g).1⟩ := by
  classical
  let size := 2 * (w.collector g).registry.size + 2
  have halone := play_alone w g
  have hsweeps : ∃ n, ((start w g).play g (List.replicate n none)).Sweeps := by
    by_contra hn
    rw [not_exists] at hn
    exact (play_before_sweep w fun k _ => hn k).2 _ (congrArg Passing.phase halone)
  have hfirst : ∀ k < Nat.find hsweeps, ¬ ((start w g).play g (List.replicate k none)).Sweeps :=
    fun k hk => Nat.find_min hsweeps hk
  have hsweep := Nat.find_spec hsweeps
  generalize Nat.find hsweeps = n at hfirst hsweep
  refine ⟨n, hfirst, hsweep, ?_⟩
  -- the pass is over after `size` steps, so the sweep is one of them, and the last that does anything
  have hlt : n < size := by
    by_contra hle
    exact (play_before_sweep w fun k hk => hfirst k (Nat.lt_of_lt_of_le hk (Nat.not_lt.mp hle))).2 _
      (congrArg Passing.phase halone)
  obtain ⟨rest, hrest⟩ := Nat.exists_eq_add_of_lt hlt
  have hlong : (start w g).play g (List.replicate size none) =
      (((start w g).play g (List.replicate n none)).advance g).play g (List.replicate rest none) := by
    rw [hrest, Nat.add_right_comm, List.replicate_add, play_append, List.replicate_succ', play_concat]
    rfl
  obtain ⟨m, hm, hnil⟩ := hsweep
  generalize (start w g).play g (List.replicate n none) = p at hm hlong ⊢
  obtain ⟨v, phase⟩ := p
  obtain rfl : phase = .marking m := hm
  have hdone : advance g ⟨v, .marking m⟩ = ⟨(v.endPass g m).2, .done (v.endPass g m).1⟩ := by
    simp only [advance, hnil]
  rw [hdone, play_replicate_done] at hlong
  rw [hdone, ← hlong]
  exact halone

end Passing

namespace Crossing

variable {s : Crossing} {g : CollectorId} {e : Errand}

/-- The turns of a pass from its beginning to its end. -/
def whole (g : CollectorId) (e : Errand) (reads : Nat) : List Turn :=
  .enter g e :: (List.replicate reads (.read g) ++ [.leave g])

/-- While a pass reads, nothing but its phase changes. -/
theorem reads_play {w : Heap} {n : Nat} (hs : s.passes g = some (e, (Passing.start w g).phase))
    (hw : s.heap = (Passing.start w g).heap)
    (hn : ∀ k < n, ¬ ((Passing.start w g).play g (List.replicate k none)).Sweeps) :
    s.Allows (List.replicate n (.read g)) ∧ s.performs (List.replicate n (.read g)) =
      s.set g (some (e, ((Passing.start w g).play g (List.replicate n none)).phase)) s.heap := by
  induction n with
  | zero =>
    exact ⟨trivial, (set_self hs).symm⟩
  | succ n ih =>
    obtain ⟨hallows, hperforms⟩ := ih fun k hk => hn k (Nat.lt_succ_of_lt hk)
    have hnow := hn n (Nat.lt_succ_self n)
    have hheap := (Passing.play_before_sweep w fun k hk => hn k (Nat.lt_succ_of_lt hk)).1
    have hstate : (⟨s.heap, ((Passing.start w g).play g (List.replicate n none)).phase⟩ : Passing) =
        (Passing.start w g).play g (List.replicate n none) := by
      rw [hw]
      exact congrArg (fun v => (⟨v, _⟩ : Passing)) hheap.symm
    simp only [List.replicate_succ', allows_append, performs_append, hperforms, Passing.play_concat]
    refine ⟨⟨hallows, ⟨_, ?_, hstate ▸ hnow⟩, trivial⟩, ?_⟩
    · rw [passing?, set_passes_self]
      rfl
    · show Turn.perform (s.set g _ s.heap) (.read g) = _
      rw [Turn.perform, set_passes_self]
      show (s.set g _ s.heap).set g (some (e, (Passing.advance g ⟨s.heap, _⟩).phase)) s.heap = _
      rw [hstate]
      exact set_set ..

/-- A pass that nothing comes between is one action. -/
theorem performs_whole (hfree : s.passes g = none) (hg : g < s.heap.collectors.length)
    (hdue : e.Due s.heap g) :
    ∃ reads, s.Allows (whole g e reads) ∧
      s.performs (whole g e reads) = (Turn.posting (.action (e.action g))).perform s := by
  let w := e.announce s.heap g
  obtain ⟨n, hfirst, hsweep, hend⟩ := Passing.exists_sweep w g
  let u := (Turn.enter g e).perform s
  obtain ⟨hallows, hreads⟩ := reads_play (s := u) (e := e) (w := w) set_passes_self rfl hfirst
  have hheap := (Passing.play_before_sweep w hfirst).1
  obtain ⟨m, hm, hnil⟩ := hsweep
  have hpass : (w.beginPass g).endPass g m = w.runPass g := by
    rw [show (Passing.start w g).play g (List.replicate n none) = ⟨w.beginPass g, .marking m⟩ from
      congrArg₂ Passing.mk hheap hm, Passing.advance] at hend
    simp only [hnil] at hend
    obtain ⟨hw, hresult⟩ := Passing.mk.inj hend
    exact Prod.ext (Phase.done.inj hresult) hw
  have hleave : (s.performs (.enter g e :: List.replicate n (.read g))) =
      s.set g (some (e, .marking m)) (w.beginPass g) := by
    rw [performs, hreads, hm]
    exact set_set ..
  have hwhole : s.performs (whole g e n) =
      s.set g none (e.finish (w.runPass g).2 g (w.runPass g).1).2 := by
    rw [whole, ← List.cons_append, performs_append, hleave, ← hpass]
    show Turn.perform (s.set g _ _) (.leave g) = _
    rw [Turn.perform, left?, set_passes_self]
    exact set_set ..
  refine ⟨n, ⟨⟨by rw [hfree]; rfl, hg, hdue⟩, (allows_append _ _ _).mpr ⟨hallows, ?_, trivial⟩⟩, ?_⟩
  · have hready : u.performs (List.replicate n (.read g)) = _ := hleave
    rw [hready]
    exact ⟨⟨w.beginPass g, .marking m⟩, by rw [passing?, set_passes_self]; rfl, m, rfl, hnil⟩
  · rw [hwhole, set_none hfree, ← e.perform_action hdue]
    rfl

end Crossing

/-! ## What is left at the end of a pass -/

namespace Errand

variable {w : Heap} {g g' : CollectorId} {pass : PassStats × List Holder}

theorem length_finish (w : Heap) (g : CollectorId) (pass : PassStats × List Holder) (e : Errand) :
    (e.finish w g pass).2.collectors.length = w.collectors.length := by
  cases e with
  | cleanup => rfl
  | register x => exact length_enroll w g x (some pass)

theorem collector_finish_of_ne (w : Heap) (pass : PassStats × List Holder) (e : Errand)
    (hg : g' ≠ g) : (e.finish w g pass).2.collector g' = w.collector g' := by
  cases e with
  | cleanup => rfl
  | register x => exact collector_enroll_of_ne w x (some pass) hg

/-- But for its registry and its lock, a registration changes nothing of its collector but what is
pending, and a cleanup not even that. -/
theorem collector_finish (hg : g < w.collectors.length) (pass : PassStats × List Holder)
    (e : Errand) :
    let n := if (e.finish w g pass).1.any (·.isAccepted) then 1 else 0
    ∃ r locked, r.size = (w.collector g).registry.size + n ∧
      (e.finish w g pass).2.collector g = { w.collector g with
        registry := r, pending := (w.collector g).pending + n, locked } := by
  cases e with
  | cleanup => exact ⟨_, _, rfl, rfl⟩
  | register x =>
    obtain ⟨hacc, hcol⟩ := collector_enroll hg x (some pass)
    have hsize := (w.collector g).registry.size_insert x
    intro n
    have hn : n = if (w.enroll g x (some pass)).1.isAccepted then 1 else 0 := rfl
    rw [hacc] at hcol hn
    rw [hn]
    cases hr : (w.collector g).registry.contains x.handle <;> rw [hr] at hcol hsize
    · exact ⟨_, _, hsize, hcol⟩
    · exact ⟨_, _, hsize, hcol⟩

/-- The queue that is opened at the end of a pass ends with that pass, unless its registration is
refused. -/
theorem opens_finish {v : Heap} (hq : v.queues = w.queues) (ho : v.opened = w.opened)
    (g : CollectorId) (pass : PassStats × List Holder) (e : Errand) :
    ∃ new, w.Opens (e.finish v g pass).2 new ∧ ∀ g', new.bind (·.pass? g') =
      if g = g' ∧ (e.finish v g pass).1.any (!·.isAccepted) = false then some pass.1 else none := by
  cases e with
  | cleanup =>
    refine ⟨_, .openQueue v hq ho pass.2 (.complete g pass.1), fun g' => ?_⟩
    simp [finish, ReleaseQueue.pass?]
  | register x =>
    obtain ⟨new, hnew, hpass, -⟩ := opens_enroll hq ho g x (some pass)
    exact ⟨new, hnew, fun g' => (hpass g').trans (by simp [finish])⟩

end Errand

/-! ## Passes in progress -/

namespace Heap

variable {α : Type} {f : Collector → α}

/-- Only totals change when a pass is counted. -/
theorem apply_countPass (hf : ∀ (c : Collector) n, f { c with collectionsRun := n } = f c) (w : Heap)
    (q : QueueId) (g : CollectorId) : f ((w.countPass q).collector g) = f (w.collector g) := by
  unfold countPass
  split
  · exact apply_modifyCollector (m := fun c => { c with collectionsRun := c.collectionsRun + 1 })
      (fun c => hf c _) w _ g
  · rfl

theorem apply_countSwept (hf : ∀ (c : Collector) n, f { c with objectsSwept := n } = f c) (w : Heap)
    (q : QueueId) (g : CollectorId) : f ((w.countSwept q).collector g) = f (w.collector g) := by
  unfold countSwept
  split
  · rename_i stats _
    exact apply_modifyCollector (m := fun c => { c with objectsSwept := c.objectsSwept + stats.swept })
      (fun c => hf c _) { w with queues := _ } _ g
  · rfl

end Heap

namespace Posting

variable {b : Books} {g : CollectorId}

/-- A posting that does not take the lock of `g` leaves its registry, its count and its state alone. -/
theorem collector_perform {e : Posting} (hg : e.lock? ≠ some g) :
    ((e.perform b).heap.collector g).registry = (b.heap.collector g).registry ∧
      ((e.perform b).heap.collector g).pending = (b.heap.collector g).pending ∧
      ((e.perform b).heap.collector g).state = (b.heap.collector g).state := by
  cases e with
  | action a =>
    have hlock : a.lock? ≠ some g := hg
    obtain ⟨hregistry, hpending, -⟩ := undisturbed_perform (w := b.heap) (Action.not_restructures hlock)
    refine ⟨hregistry, hpending, state_perform ?_ ?_ ?_⟩
    · rintro rfl; exact absurd rfl hlock
    · rintro rfl; exact absurd rfl hlock
    · rintro rfl; exact absurd rfl hlock
  | countPass q =>
    exact ⟨apply_countPass (fun _ _ => rfl) b.heap q g, apply_countPass (fun _ _ => rfl) b.heap q g,
      apply_countPass (fun _ _ => rfl) b.heap q g⟩
  | countSwept q =>
    exact ⟨apply_countSwept (fun _ _ => rfl) b.heap q g, apply_countSwept (fun _ _ => rfl) b.heap q g,
      apply_countSwept (fun _ _ => rfl) b.heap q g⟩

theorem state_ne_running_perform (hb : (b.heap.collector g).state ≠ .running) (e : Posting) :
    ((e.perform b).heap.collector g).state ≠ .running := by
  cases e with
  | action a => exact Heap.state_ne_running_perform hb a
  | countPass q =>
    exact (apply_countPass (f := Collector.state) (fun _ _ => rfl) b.heap q g).symm ▸ hb
  | countSwept q =>
    exact (apply_countSwept (f := Collector.state) (fun _ _ => rfl) b.heap q g).symm ▸ hb

end Posting

namespace Crossing

variable {s : Crossing} {t : Turn} {ts : List Turn} {g g' : CollectorId}

/-- The collectors that run are those with a pass in progress, and of what is not registered no pass
marks anything. -/
structure Ordered (s : Crossing) : Prop where
  running : ∀ g p, s.passes g = some p →
    g < s.heap.collectors.length ∧ (s.heap.collector g).state = .running
  resting : ∀ g, s.passes g = none → (s.heap.collector g).state ≠ .running
  consistent : ∀ g e m, s.passes g = some (e, .marking m) →
    m.Consistent (s.heap.collector g).registry.contains

theorem ordered_initial (n : Nat) : (initial n).Ordered where
  running := fun _ _ h => nomatch h
  resting := fun g _ => by rw [initial, heap, state_initial]; exact CollectorState.noConfusion
  consistent := fun _ _ _ h => nomatch h

/-- A turn of the pass over `g` leaves other passes as they are, if it leaves their collectors so. -/
theorem Ordered.set {p : Option (Errand × Phase)} {w : Heap} (ho : s.Ordered)
    (hlength : w.collectors.length = s.heap.collectors.length)
    (hothers : ∀ g', g' ≠ g → w.collector g' = s.heap.collector g')
    (hrunning : p.isSome = true → g < s.heap.collectors.length ∧ (w.collector g).state = .running)
    (hresting : p = none → (w.collector g).state ≠ .running)
    (hconsistent : ∀ e m, p = some (e, .marking m) → m.Consistent (w.collector g).registry.contains) :
    (s.set g p w).Ordered := by
  refine ⟨fun g' p' hp => ?_, fun g' hp => ?_, fun g' e m hp => ?_⟩
  · by_cases hg : g' = g
    · subst hg
      rw [set_passes_self] at hp
      exact (hrunning (hp ▸ rfl)).imp_left fun h => hlength.symm ▸ h
    · rw [set_passes_of_ne hg] at hp
      exact ⟨hlength.symm ▸ (ho.running g' p' hp).1, hothers g' hg ▸ (ho.running g' p' hp).2⟩
  · by_cases hg : g' = g
    · subst hg
      exact hresting (set_passes_self.symm.trans hp)
    · rw [set_passes_of_ne hg] at hp
      exact hothers g' hg ▸ ho.resting g' hp
  · by_cases hg : g' = g
    · subst hg
      exact hconsistent e m (set_passes_self.symm.trans hp)
    · rw [set_passes_of_ne hg] at hp
      exact hothers g' hg ▸ ho.consistent g' e m hp

/-- What is read of a heap does not change it, and only marks what is registered. -/
theorem consistent_advance {w : Heap} {phase : Phase} {m' : Marker}
    (hm : ∀ m, phase = .marking m → m.Consistent (w.collector g).registry.contains)
    (hm' : (Passing.advance g ⟨w, phase⟩).phase = .marking m') :
    m'.Consistent (w.collector g).registry.contains := by
  obtain ⟨-, -, ⟨roots, -, rfl⟩ | ⟨m, hphase, rfl⟩⟩ := Passing.marking_of_advance hm'
  · exact .start roots
  · exact (hm m hphase).scan

/-- The pass over `g` that is about to sweep. -/
theorem exists_left (hl : (Turn.leave g).Enabled s) :
    ∃ e m, s.passes g = some (e, .marking m) ∧ m.stack = [] ∧
      s.left? g = some ((s.heap.endPass g m).1,
        e.finish (s.heap.endPass g m).2 g (s.heap.endPass g m).1) := by
  obtain ⟨p, hp, m, hm, hnil⟩ := hl
  obtain ⟨⟨e, phase⟩, hpass, rfl⟩ := Option.map_eq_some_iff.mp hp
  obtain rfl : phase = .marking m := hm
  exact ⟨e, m, hpass, hnil, by rw [left?, hpass]⟩

theorem collector_announce (w : Heap) (g g' : CollectorId) (e : Errand) :
    (e.announce w g).collector g' = w.collector g' := by
  cases e <;> rfl

theorem length_announce (w : Heap) (g : CollectorId) (e : Errand) :
    (e.announce w g).collectors.length = w.collectors.length := by
  cases e <;> rfl

theorem Ordered.perform (ho : s.Ordered) (ht : t.Enabled s) : (t.perform s).Ordered := by
  cases t with
  | posting e =>
    have hlock : ∀ g p, s.passes g = some p → e.lock? ≠ some g := fun g p hp hlock => by
      have hfree := ht.2 g hlock
      rw [hp] at hfree
      cases hfree
    refine ⟨fun g p hp => ?_, fun g hp => e.state_ne_running_perform (ho.resting g hp),
      fun g e' m hp => ?_⟩
    · obtain ⟨hlt, hstate⟩ := ho.running g p hp
      obtain ⟨-, -, hkept⟩ := Posting.collector_perform (b := s.books) (hlock g p hp)
      exact ⟨Nat.lt_of_lt_of_le hlt (Books.length_perform_le s.books e), hkept.trans hstate⟩
    · obtain ⟨hkept, -⟩ := Posting.collector_perform (b := s.books) (hlock g _ hp)
      rw [Turn.perform, heap, hkept]
      exact ho.consistent g e' m hp
  | enter g e =>
    obtain ⟨-, hg, -⟩ := ht
    have hlength := length_announce s.heap g e
    refine ho.set ?_ (fun g' hg' => ?_) (fun _ => ⟨hg, ?_⟩) (fun hn => ?_) (fun e' m hm => ?_)
    · simpa [Passing.start, beginPass, modifyCollector, emit] using hlength
    · exact (collector_modifyCollector_of_ne _ hg'.symm _).trans (collector_announce s.heap g g' e)
    · exact congrArg Collector.state (collector_modifyCollector_self (hlength.symm ▸ hg) _)
    · cases hn
    · cases hm
  | read g =>
    obtain ⟨p, hp, -⟩ := ht
    obtain ⟨⟨e, phase⟩, hpass, rfl⟩ := Option.map_eq_some_iff.mp hp
    obtain ⟨hg, hstate⟩ := ho.running g _ hpass
    rw [Turn.perform, hpass]
    refine ho.set rfl (fun _ _ => rfl) (fun _ => ⟨hg, hstate⟩) (fun hn => ?_) (fun e' m' hm' => ?_)
    · cases hn
    · obtain ⟨-, hphase⟩ := Prod.mk.inj (Option.some.inj hm')
      exact consistent_advance (fun m hm => ho.consistent g e m (hm ▸ hpass)) hphase
  | leave g =>
    obtain ⟨e, m, hpass, -, hleft⟩ := exists_left ht
    obtain ⟨hg, -⟩ := ho.running g _ hpass
    have hlength : (s.heap.endPass g m).2.collectors.length = s.heap.collectors.length := by
      simp [endPass, modifyCollector, emit, emitMarked]
    have hstate : ((e.finish (s.heap.endPass g m).2 g (s.heap.endPass g m).1).2.collector g).state =
        .idle := by
      obtain ⟨r, locked, -, hcol⟩ := e.collector_finish (hlength.symm ▸ hg) (s.heap.endPass g m).1
      rw [hcol, collector_endPass hg]
    rw [Turn.perform, hleft]
    refine ho.set ((e.length_finish _ g _).trans hlength) (fun g' hg' => ?_) (fun hs => ?_)
      (fun _ => ?_) (fun e' m' hm' => ?_)
    · exact (e.collector_finish_of_ne _ _ hg').trans (collector_endPass_of_ne s.heap hg' m)
    · cases hs
    · exact fun hrunning => CollectorState.noConfusion (hstate.symm.trans hrunning)
    · cases hm'

theorem Ordered.performs (ho : s.Ordered) (ha : s.Allows ts) : (s.performs ts).Ordered := by
  induction ts generalizing s with
  | nil => exact ho
  | cons t ts ih => exact ih (ho.perform ha.1) ha.2

end Crossing

end SharedHeap
