import SharedHeap.Proofs.Departure
import Mathlib.Data.List.Induction
import Mathlib.Data.List.Infix

/-! # A pass among other threads

The lock of a collector does not cover the links and the holder counts of objects, so other threads
go on while a pass reads them. Here a pass is cut into the steps that nothing can come between: each
read of a holder count, each scan with its one read of the links of an object, and the sweep. Between
them the other threads do any actions that need not wait for the lock of this collector. -/

namespace SharedHeap

open Heap

/-- How far a pass has come. -/
inductive Phase where
  /-- Handles whose holder count is still to be read, and the roots found among the others. -/
  | reading (unread roots : List Handle)
  | marking (m : Marker)
  | done (result : PassStats × List Holder)

/-- A heap with a pass in progress. -/
structure Passing where
  heap : Heap
  phase : Phase

/-- A step of the pass, or an action of another thread. -/
abbrev Move := Option Action

namespace Passing

/-- A pass over collector `g` that has done nothing yet but to say so. -/
def start (w : Heap) (g : CollectorId) : Passing :=
  ⟨w.beginPass g, .reading (w.collector g).registry.handles []⟩

def registered (s : Passing) (g : CollectorId) (h : Handle) : Bool :=
  (s.heap.collector g).registry.contains h

/-- One step of the pass. -/
def advance (g : CollectorId) (s : Passing) : Passing :=
  match s.phase with
  | .reading [] roots => { s with phase := .marking (.start (s.registered g) roots) }
  | .reading (h :: rest) roots =>
    { s with phase := .reading rest (if s.heap.isRoot h then roots ++ [h] else roots) }
  | .marking m =>
    match m.stack with
    | [] => ⟨(s.heap.endPass g m).2, .done (s.heap.endPass g m).1⟩
    | _ => { s with phase := .marking (m.scan (s.registered g) s.heap.linked) }
  | .done _ => s

def move (g : CollectorId) (s : Passing) : Move → Passing
  | none => s.advance g
  | some a => { s with heap := a.perform s.heap }

def play (g : CollectorId) (s : Passing) (moves : List Move) : Passing := moves.foldl (move g) s

/-- No move needs the lock of `g`, which the pass has. -/
def Admits (g : CollectorId) (moves : List Move) : Prop :=
  ∀ a, some a ∈ moves → a.lock? ≠ some g

instance (g : CollectorId) (moves : List Move) : Decidable (Admits g moves) :=
  decidable_of_iff (∀ x ∈ moves, ∀ a ∈ x, a.lock? ≠ some g)
    ⟨fun h a ha => h _ ha a rfl, fun h _ hx a ha => h a (ha ▸ hx)⟩

/-- Nothing is left to be scanned: the next step of the pass is the sweep. -/
def Sweeps (s : Passing) : Prop := ∃ m, s.phase = .marking m ∧ m.stack = []

instance (s : Passing) : Decidable s.Sweeps :=
  match h : s.phase with
  | .marking m => decidable_of_iff (m.stack = [])
      ⟨fun hs => ⟨m, h, hs⟩, fun ⟨_, hm, hs⟩ => by cases h.symm.trans hm; exact hs⟩
  | .reading _ _ | .done _ => isFalse fun ⟨_, hm, _⟩ => by cases h.symm.trans hm

/-! ## A pass that nothing comes between -/

variable {g : CollectorId} {w : Heap} {c : Collector}

theorem play_append (s : Passing) (moves moves' : List Move) :
    s.play g (moves ++ moves') = (s.play g moves).play g moves' := List.foldl_append

theorem play_concat (s : Passing) (moves : List Move) (x : Move) :
    s.play g (moves ++ [x]) = (s.play g moves).move g x := by
  rw [play_append]; rfl

theorem play_replicate_done (w : Heap) (result : PassStats × List Holder) (n : Nat) :
    play g ⟨w, .done result⟩ (List.replicate n none) = ⟨w, .done result⟩ := by
  induction n with
  | zero => rfl
  | succ n ih => exact ih

theorem play_reading (w : Heap) (unread roots : List Handle) :
    play g ⟨w, .reading unread roots⟩ (List.replicate unread.length none) =
      ⟨w, .reading [] (roots ++ unread.filter w.isRoot)⟩ := by
  induction unread generalizing roots with
  | nil => simp [play]
  | cons h rest ih =>
    refine (ih _).trans ?_
    by_cases hr : w.isRoot h
    · simp [hr]
    · simp [hr]

theorem play_marking (w : Heap) (n : Nat) (m : Marker)
    (hs : (m.scans (w.collector g).registry.contains w.linked n).stack = []) :
    play g ⟨w, .marking m⟩ (List.replicate (n + 1) none) =
      ⟨(w.endPass g (m.scans (w.collector g).registry.contains w.linked n)).2,
        .done (w.endPass g (m.scans (w.collector g).registry.contains w.linked n)).1⟩ := by
  induction n generalizing m with
  | zero =>
    have hs : m.stack = [] := hs
    simp [play, move, advance, hs, Marker.scans]
  | succ n ih =>
    cases hm : m.stack with
    | nil =>
      rw [Marker.scans_nil hm]
      show play g (advance g ⟨w, .marking m⟩) (List.replicate (n + 1) none) = _
      rw [advance]
      simp only [hm]
      exact play_replicate_done _ _ _
    | cons h rest =>
      show play g (advance g ⟨w, .marking m⟩) (List.replicate (n + 1) none) = _
      rw [advance]
      simp only [hm]
      exact ih _ hs

/-- The steps of a pass, one right after the other, are the pass. -/
theorem play_alone (w : Heap) (g : CollectorId) :
    (start w g).play g (List.replicate (2 * (w.collector g).registry.size + 2) none) =
      ⟨(w.runPass g).2, .done (w.runPass g).1⟩ := by
  have hreg := registry_beginPass w g g
  have hlen : 2 * (w.collector g).registry.size + 2 =
      (w.collector g).registry.handles.length + (1 + ((w.collector g).registry.size + 1)) := by
    rw [Registry.length_handles]; omega
  rw [hlen, List.replicate_add, play_append, start, play_reading, List.replicate_add, play_append]
  have hstart : play g ⟨w.beginPass g, .reading [] ([] ++
      (w.collector g).registry.handles.filter (w.beginPass g).isRoot)⟩ (List.replicate 1 none) =
      ⟨w.beginPass g, .marking (.start (w.collector g).registry.contains
        ((w.beginPass g).roots (w.collector g).registry))⟩ := by
    rw [← hreg]; rfl
  have hpass : w.runPass g =
      (w.beginPass g).endPass g ((w.beginPass g).markFrom (w.collector g).registry) := by
    rw [← hreg]; rfl
  rw [hstart, play_marking]
  · rw [hreg, hpass]; rfl
  · rw [hreg]
    exact Marker.stack_mark (w.collector g).registry w.linked _

/-! ## What a pass read -/

/-- The next step of the pass reads the holder count of `h`. -/
def Counts (s : Passing) (h : Handle) : Prop := ∃ rest roots, s.phase = .reading (h :: rest) roots

/-- The next step of the pass reads the links of `a`, and `b` is one of them. -/
def Scans (s : Passing) (a b : Handle) : Prop :=
  ∃ m rest, s.phase = .marking m ∧ m.stack = a :: rest ∧ b ∈ s.heap.linked a

/-- Some step of the pass was taken when `p` held. -/
def Stepped (g : CollectorId) (s : Passing) (moves : List Move) (p : Passing → Prop) : Prop :=
  ∃ before, before ++ [none] <+: moves ∧ p (s.play g before)

/-- The pass found `h` to have a further holder. -/
def ReadRoot (g : CollectorId) (s : Passing) (moves : List Move) (h : Handle) : Prop :=
  Stepped g s moves fun s => s.Counts h ∧ s.heap.isRoot h = true

/-- The pass found a link from `a` to `b`. -/
def ReadLink (g : CollectorId) (s : Passing) (moves : List Move) (a b : Handle) : Prop :=
  Stepped g s moves fun s => s.Scans a b

variable {s : Passing} {moves : List Move} {p : Passing → Prop}

theorem stepped_nil : ¬ Stepped g s [] p := by
  rintro ⟨before, hb, -⟩
  simp at hb

theorem stepped_concat_some {a : Action} :
    Stepped g s (moves ++ [some a]) p ↔ Stepped g s moves p := by
  have hiff : ∀ before : List Move,
      before ++ [none] <+: moves ++ [some a] ↔ before ++ [none] <+: moves := by
    intro before
    rw [List.prefix_concat_iff]
    refine or_iff_right fun he => ?_
    simpa using List.append_inj_right' he rfl
  simp only [Stepped, hiff]

theorem stepped_concat_none :
    Stepped g s (moves ++ [none]) p ↔ Stepped g s moves p ∨ p (s.play g moves) := by
  have hiff : ∀ before : List Move,
      before ++ [none] <+: moves ++ [none] ↔ before = moves ∨ before ++ [none] <+: moves := by
    intro before
    rw [List.prefix_concat_iff]
    exact or_congr_left (List.append_left_inj _)
  simp only [Stepped, hiff]
  constructor
  · rintro ⟨before, rfl | hb, hp⟩
    · exact .inr hp
    · exact .inl ⟨before, hb, hp⟩
  · rintro (⟨before, hb, hp⟩ | hp)
    · exact ⟨before, .inr hb, hp⟩
    · exact ⟨moves, .inl rfl, hp⟩

/-- A phase agrees with what the pass read so far: whose holders it counted, which handles it found to
be roots, and which links it found. -/
def Agrees (registered : Handle → Bool) (handles : List Handle) (counted root : Handle → Prop)
    (link : Handle → Handle → Prop) : Phase → Prop
  | .reading unread roots =>
    (∀ h, h ∈ roots ↔ root h) ∧ (∀ a b, ¬ link a b) ∧ ∀ h ∈ handles, h ∈ unread ∨ counted h
  | .marking m =>
    Marker.Consistent registered m ∧ Marker.Follows registered root link m ∧
      ∀ h ∈ handles, counted h
  | .done _ => True

variable {registered : Handle → Bool} {handles : List Handle} {counted root : Handle → Prop}
  {link : Handle → Handle → Prop}

theorem Agrees.congr {counted' root' : Handle → Prop} {link' : Handle → Handle → Prop}
    {phase : Phase} (ha : Agrees registered handles counted root link phase)
    (hc : ∀ h, counted' h ↔ counted h) (hr : ∀ h, root' h ↔ root h) (hl : ∀ a b, link' a b ↔ link a b) :
    Agrees registered handles counted' root' link' phase := by
  obtain rfl : counted' = counted := funext fun h => propext (hc h)
  obtain rfl : root' = root := funext fun h => propext (hr h)
  obtain rfl : link' = link := funext fun a => funext fun b => propext (hl a b)
  exact ha

/-- A step of the pass adds what it reads. -/
theorem Agrees.advance (hreg : s.registered g = registered)
    (ha : Agrees registered handles counted root link s.phase) :
    Agrees registered handles (fun h => counted h ∨ s.Counts h)
      (fun h => root h ∨ (s.Counts h ∧ s.heap.isRoot h = true))
      (fun a b => link a b ∨ s.Scans a b) (s.advance g).phase := by
  obtain ⟨w, phase⟩ := s
  subst hreg
  cases phase with
  | reading unread roots =>
    obtain ⟨hroots, hnone, hall⟩ := ha
    cases unread with
    | nil =>
      have hstart : Agrees (registered ⟨w, .reading [] roots⟩ g) handles counted (· ∈ roots)
          (fun _ _ => False) (.marking (.start (registered ⟨w, .reading [] roots⟩ g) roots)) :=
        ⟨.start roots, .start roots, fun h hh => (hall h hh).resolve_left (by simp)⟩
      refine hstart.congr (fun h => ?_) (fun h => ?_) (fun a b => ?_)
      · simp [Counts]
      · simp [Counts, hroots]
      · simp [Scans, hnone]
    | cons k rest =>
      refine ⟨fun h => ?_, fun a b => ?_, fun h hh => ?_⟩
      · by_cases hk : w.isRoot k = true
        · by_cases he : h = k
          · subst he; simp [hk, Counts]
          · have he' : k ≠ h := fun e => he e.symm
            simp [hk, Counts, hroots, he, he']
        · by_cases he : h = k
          · subst he; simp [hk, hroots]
          · have he' : k ≠ h := fun e => he e.symm
            simp [hk, Counts, hroots, he']
      · simp [Scans, hnone]
      · rcases hall h hh with hm | hc
        · rcases List.mem_cons.mp hm with rfl | hm
          · exact .inr (.inr ⟨rest, roots, rfl⟩)
          · exact .inl hm
        · exact .inr (.inl hc)
  | marking m =>
    obtain ⟨hcons, hfollows, hall⟩ := ha
    cases hm : m.stack with
    | nil =>
      simp only [Passing.advance, hm]
      exact trivial
    | cons k rest =>
      simp only [Passing.advance, hm]
      have hscan : Agrees (registered ⟨w, .marking m⟩ g) handles counted root
          (fun a b => link a b ∨ (a = k ∧ b ∈ w.linked k))
          (.marking (m.scan (registered ⟨w, .marking m⟩ g) w.linked)) :=
        ⟨hcons.scan, hfollows.scan w.linked hcons hm, hall⟩
      refine hscan.congr (fun h => ?_) (fun h => ?_) (fun a b => ?_)
      · simp [Counts]
      · simp [Counts]
      · refine or_congr_right ⟨?_, ?_⟩
        · rintro ⟨m', rest', hp, hs, hb⟩
          obtain rfl : m = m' := by simpa using hp
          rw [hm] at hs
          obtain ⟨rfl, -⟩ := List.cons.inj hs
          exact ⟨rfl, hb⟩
        · rintro ⟨rfl, hb⟩
          exact ⟨m, rest, rfl, hm, hb⟩
  | done result => exact trivial

theorem Admits.of_append {moves' : List Move} (ha : Admits g (moves ++ moves')) : Admits g moves :=
  fun a hm => ha a (List.mem_append_left _ hm)

/-- Until the sweep nothing is registered or taken out. -/
theorem registry_play (ha : Admits g moves) :
    (∃ result, ((start w g).play g moves).phase = .done result) ∨
      (((start w g).play g moves).heap.collector g).registry = (w.collector g).registry := by
  induction moves using List.reverseRecOn with
  | nil => exact .inr (registry_beginPass w g g)
  | append_singleton moves x ih =>
    rw [play_concat]
    cases x with
    | some a =>
      have hr : ¬ a.Restructures g := Action.not_restructures (ha a (by simp))
      refine (ih ha.of_append).imp id fun he => ?_
      exact (registry_perform hr).trans he
    | none =>
      have ih := ih ha.of_append
      simp only [move, advance]
      split
      · exact .inr (ih.resolve_left (by simp [*]))
      · exact .inr (ih.resolve_left (by simp [*]))
      · split
        · exact .inl ⟨_, rfl⟩
        · exact .inr (ih.resolve_left (by simp [*]))
      · exact ih

/-- At every moment of a pass its phase agrees with what it read. -/
theorem agrees_play (ha : Admits g moves) :
    Agrees (w.collector g).registry.contains (w.collector g).registry.handles
      (fun h => Stepped g (start w g) moves (·.Counts h)) (ReadRoot g (start w g) moves)
      (ReadLink g (start w g) moves) ((start w g).play g moves).phase := by
  induction moves using List.reverseRecOn with
  | nil =>
    refine ⟨fun h => ?_, fun a b => stepped_nil, fun h hh => .inl hh⟩
    simp [ReadRoot, stepped_nil]
  | append_singleton moves x ih =>
    have ih := ih ha.of_append
    rw [play_concat]
    cases x with
    | some a =>
      exact ih.congr (fun h => stepped_concat_some) (fun h => stepped_concat_some)
        fun b d => stepped_concat_some
    | none =>
      rcases registry_play (w := w) (Admits.of_append ha) with ⟨result, hd⟩ | hreg
      · rw [move, advance, hd]
        simp only [hd]
        exact trivial
      · have hreg :
            ((start w g).play g moves).registered g = (w.collector g).registry.contains := by
          funext h
          rw [registered, hreg]
        exact (ih.advance hreg).congr (fun h => stepped_concat_none) (fun h => stepped_concat_none)
          fun a b => stepped_concat_none

/-! ## What other threads do to links -/

/-- Another thread gives a scanned object a link to `y`, which is registered and was not reached. -/
def Gains (g : CollectorId) (y : Handle) (s : Passing) (a : Action) : Prop :=
  ∃ m x, s.phase = .marking m ∧ m.color x = .black ∧ y ∉ s.heap.linked x ∧
    y ∈ (a.perform s.heap).linked x ∧ s.registered g y = true ∧ m.color y = .white

/-- Links lead from `y` to `h` by way of registered objects that were not reached, and neither were these
two. -/
def Leads (g : CollectorId) (s : Passing) (y h : Handle) : Prop :=
  ∃ m, s.phase = .marking m ∧ m.Leads (s.registered g) s.heap.linked y h

/-- Another thread takes a link that led on to `h` from a registered object that was not scanned. -/
def Loses (g : CollectorId) (h : Handle) (s : Passing) (a : Action) : Prop :=
  ∃ m x y, s.phase = .marking m ∧ s.registered g x = true ∧ m.color x ≠ .black ∧
    y ∈ s.heap.linked x ∧ y ∉ (a.perform s.heap).linked x ∧ s.Leads g y h

/-- Some action of another thread was done when `p` held of it. -/
def Met (g : CollectorId) (s : Passing) (moves : List Move) (p : Passing → Action → Prop) : Prop :=
  ∃ before a, before ++ [some a] <+: moves ∧ p (s.play g before) a

/-- All the time somebody holds `h` besides its slot. -/
def HeldThroughout (g : CollectorId) (s : Passing) (moves : List Move) (h : Handle) : Prop :=
  ∀ before, before <+: moves → (s.play g before).heap.HeldElsewhere g h

/-- All the time registered objects that are held throughout reach `h` by way of registered ones. -/
def ReachedThroughout (g : CollectorId) (s : Passing) (moves : List Move) (h : Handle) : Prop :=
  ∀ before, before <+: moves → Marker.Reached (s.registered g) (HeldThroughout g s moves)
    (fun a b => b ∈ (s.play g before).heap.linked a) h

theorem Met.concat {q : Passing → Action → Prop} (x : Move) (hm : Met g s moves q) :
    Met g s (moves ++ [x]) q := by
  obtain ⟨before, a, hb, hq⟩ := hm
  exact ⟨before, a, hb.trans (List.prefix_append _ _), hq⟩

theorem registered_start (w : Heap) (g : CollectorId) :
    (start w g).registered g = (w.collector g).registry.contains := by
  funext h
  exact congrArg (·.contains h) (registry_beginPass w g g)

theorem registered_play (ha : Admits g moves)
    (hn : ∀ result, ((start w g).play g moves).phase ≠ .done result) :
    ((start w g).play g moves).registered g = (start w g).registered g := by
  rw [registered_start]
  rcases registry_play (w := w) ha with ⟨result, hd⟩ | hreg
  · exact absurd hd (hn result)
  · funext h
    rw [registered, hreg]

theorem ne_done_of_marking {m : Marker} (hm : s.phase = .marking m)
    (result : PassStats × List Holder) : s.phase ≠ .done result := by
  intro hd
  rw [hm] at hd
  cases hd

/-- How a step of the pass gets to a marking. -/
theorem marking_of_advance {m : Marker} (hm : (s.advance g).phase = .marking m) :
    (∀ result, s.phase ≠ .done result) ∧ (s.advance g).heap = s.heap ∧
      ((∃ roots, s.phase = .reading [] roots ∧ m = .start (s.registered g) roots) ∨
        ∃ m', s.phase = .marking m' ∧ m = m'.scan (s.registered g) s.heap.linked) := by
  obtain ⟨w, phase⟩ := s
  cases phase with
  | reading unread roots =>
    cases unread with
    | nil =>
      refine ⟨?_, rfl, .inl ⟨roots, rfl, (Phase.marking.inj hm).symm⟩⟩
      intro result hd; cases hd
    | cons h rest => cases hm
  | marking m' =>
    refine ⟨ne_done_of_marking rfl, ?_⟩
    cases hs : m'.stack with
    | nil =>
      simp only [advance, hs] at hm
      cases hm
    | cons h rest =>
      simp only [advance, hs] at hm ⊢
      exact ⟨trivial, .inr ⟨m', rfl, (Phase.marking.inj hm).symm⟩⟩
  | done result => cases hm

variable {m : Marker} {h : Handle}

/-- Scanned objects link to reached ones, but for the links that they gained since. -/
theorem covered_play (ha : Admits g moves) (hm : ((start w g).play g moves).phase = .marking m) :
    Marker.Covered ((start w g).registered g) ((start w g).play g moves).heap.linked
      (fun y => Met g (start w g) moves (Gains g y)) m := by
  induction moves using List.reverseRecOn generalizing m with
  | nil => cases hm
  | append_singleton moves x ih =>
    have ih : ∀ m, ((start w g).play g moves).phase = .marking m →
        Marker.Covered ((start w g).registered g) ((start w g).play g moves).heap.linked
          (fun y => Met g (start w g) (moves ++ [x]) (Gains g y)) m :=
      fun m hm a b hb hab hr hw => (ih ha.of_append hm a b hb hab hr hw).concat x
    have hreg := registered_play (w := w) (Admits.of_append ha)
    rw [play_concat] at hm ⊢
    cases x with
    | some a =>
      -- a link is new, and then it was gained just now, or it was there before
      have hm : ((start w g).play g moves).phase = .marking m := hm
      intro x y hx hxy hr hw
      by_cases hold : y ∈ ((start w g).play g moves).heap.linked x
      · exact ih m hm x y hx hold hr hw
      · rw [← hreg (ne_done_of_marking hm)] at hr
        exact ⟨moves, a, List.prefix_refl _, m, x, hm, hx, hold, hxy, hr, hw⟩
    | none =>
      obtain ⟨hn, hheap, ⟨roots, -, rfl⟩ | ⟨m', hm', rfl⟩⟩ := marking_of_advance hm
      · rw [hreg hn]
        exact .start roots
      · rw [hreg hn, show (((start w g).play g moves).move g none).heap = _ from hheap]
        exact (ih m' hm').scan

/-- Whoever is registered and held throughout is coloured when the marking starts. -/
theorem color_of_held (ha : Admits g moves) (hm : ((start w g).play g moves).phase = .marking m)
    (hh : HeldThroughout g (start w g) moves h) (hr : (start w g).registered g h = true) :
    m.color h ≠ .white := by
  have hagrees := agrees_play (w := w) ha
  rw [hm] at hagrees
  obtain ⟨-, hfollows, hall⟩ := hagrees
  rw [registered_start] at hr
  -- its holders were counted at some moment, and at that moment somebody held it
  refine hfollows.rooted h ?_ hr
  obtain ⟨before, hb, hc⟩ := hall h ((Registry.mem_handles _ h).mpr hr)
  refine ⟨before, hb, hc, ?_⟩
  have hpre : before <+: moves := (List.prefix_append _ _).trans hb
  have hadm : Admits g before := fun a hm => ha a (hpre.subset hm)
  refine (isRoot_iff (g := g) ?_).mpr (hh before hpre)
  rcases registry_play (w := w) hadm with ⟨result, hd⟩ | hreg
  · obtain ⟨rest, roots, hp⟩ := hc
    rw [hp] at hd; cases hd
  · rw [Registered, hreg, hr]

theorem HeldThroughout.of_append {moves' : List Move}
    (hh : HeldThroughout g s (moves ++ moves') h) : HeldThroughout g s moves h :=
  fun before hb => hh before (hb.trans (List.prefix_append _ _))

/-- What is reached throughout is scanned or ahead, unless an object that was not scanned lost a link
that led on to it. -/
theorem ahead_play (ha : Admits g moves)
    (hroot : ∀ r, root r → HeldThroughout g (start w g) moves r)
    (hreach : ∀ before, before <+: moves → Marker.Reached ((start w g).registered g) root
      (fun a b => b ∈ ((start w g).play g before).heap.linked a) h)
    (hm : ((start w g).play g moves).phase = .marking m) :
    m.color h = .black ∨
      Marker.Ahead ((start w g).registered g) ((start w g).play g moves).heap.linked m h ∨
      Met g (start w g) moves (Loses g h) := by
  induction moves using List.reverseRecOn generalizing m with
  | nil => cases hm
  | append_singleton moves x ih =>
    have ih := fun m => ih ha.of_append (m := m)
      (fun r hr => (hroot r hr).of_append)
      fun before hb => hreach before (hb.trans (List.prefix_append _ _))
    have hreg := registered_play (w := w) (Admits.of_append ha)
    have hheld := fun r hr => color_of_held ha hm (hroot r hr)
    rw [play_concat] at hm ⊢
    cases x with
    | some a =>
      have hm : ((start w g).play g moves).phase = .marking m := hm
      have hreg := hreg (ne_done_of_marking hm)
      have hagrees := agrees_play (w := w) (Admits.of_append ha)
      rw [hm, ← registered_start] at hagrees
      rcases ih m hm with hb | hahead | hlost
      · exact .inl hb
      · rcases hahead.or_lost hagrees.1 with hstill | ⟨x, y, hx, hc, hxy, hnew, hl⟩
        · exact .inr (.inl hstill)
        · exact .inr (.inr ⟨moves, a, List.prefix_refl _, m, x, y, hm, hreg ▸ hx, hc, hxy, hnew, m, hm,
            hreg ▸ hl⟩)
      · exact .inr (.inr (hlost.concat _))
    | none =>
      -- the first scan is what the path at this moment is needed for
      have hreach := hreach (moves ++ [none]) (List.prefix_refl _)
      rw [play_concat] at hreach
      obtain ⟨hn, hheap, ⟨roots, -, rfl⟩ | ⟨m', hm', rfl⟩⟩ := marking_of_advance hm
      · exact .inr (.inl (.of_reached (Marker.color_start roots) hheld hreach))
      · rcases ih m' hm' with hb | hahead | hlost
        · exact .inl (Marker.color_scan_eq_black hb)
        · rw [hreg hn, show (((start w g).play g moves).move g none).heap = _ from hheap]
          exact hahead.scan.imp_right .inl
        · exact .inr (.inr (hlost.concat _))

/-! ## The sweep -/

theorem registered_endPass (w : Heap) (g : CollectorId) (m : Marker) (h : Handle) :
    (w.endPass g m).2.Registered g h ↔ w.Registered g h ∧ m.marked h = true := by
  have hlen : (w.endPass g m).2.collectors.length = w.collectors.length := by
    simp [endPass, modifyCollector, emit, emitMarked]
  by_cases hg : g < w.collectors.length
  · rw [Registered, collector_endPass hg, Registry.contains_retain, Bool.and_eq_true]
    rfl
  · exact iff_of_false (fun hr => hg (hlen ▸ hr.lt_length)) fun hr => hg hr.1.lt_length

theorem heap_advance_of_nil (hm : s.phase = .marking m) (hs : m.stack = []) :
    (s.advance g).heap = (s.heap.endPass g m).2 := by
  obtain ⟨w, phase⟩ := s
  obtain rfl : phase = .marking m := hm
  simp only [advance, hs]

theorem registered_sweep (ha : Admits g moves) (hm : ((start w g).play g moves).phase = .marking m)
    (hs : m.stack = []) (h : Handle) :
    (((start w g).play g moves).advance g).heap.Registered g h ↔ m.color h = .black := by
  have hagrees := agrees_play (w := w) ha
  rw [hm] at hagrees
  rw [heap_advance_of_nil hm hs, registered_endPass, Marker.marked, beq_iff_eq]
  refine and_iff_right_of_imp fun hb => ?_
  have hr := hagrees.1.registered_of_ne h (by rw [hb]; decide)
  have hreg := registered_play (w := w) ha (ne_done_of_marking hm)
  rw [registered_start] at hreg
  exact (congrFun hreg h).trans hr

/-- **What a pass loses to other threads.** With nothing between them, the steps of a pass are the
pass. Whatever other threads do to links and holders while it runs, it keeps what the roots that it
counted reach along the links that it read. Now take an object that registered objects which are held
throughout reach, all the time and by way of registered objects. It is swept iff a scanned object gained
a link from which, at the end, links lead to it by way of objects that were not reached. This happens
only if an object that was still to be scanned lost a link that led to it in the same way. -/
theorem kept_unless_moved (w : Heap) (g : CollectorId) (moves : List Move) (ha : Admits g moves)
    (hs : ((start w g).play g moves).Sweeps) :
    (start w g).play g (List.replicate (2 * (w.collector g).registry.size + 2) none) =
      ⟨(w.runPass g).2, .done (w.runPass g).1⟩ ∧
    (∀ h, (((start w g).play g moves).advance g).heap.Registered g h ↔
      Marker.Reached ((start w g).registered g) (ReadRoot g (start w g) moves)
        (ReadLink g (start w g) moves) h) ∧
    ∀ h, ReachedThroughout g (start w g) moves h →
      (¬ (((start w g).play g moves).advance g).heap.Registered g h ↔
        ∃ y, Met g (start w g) moves (Gains g y) ∧ ((start w g).play g moves).Leads g y h) ∧
      (¬ (((start w g).play g moves).advance g).heap.Registered g h →
        Met g (start w g) moves (Loses g h)) := by
  obtain ⟨m, hm, hnil⟩ := hs
  have hagrees := agrees_play (w := w) ha
  rw [hm, ← registered_start] at hagrees
  obtain ⟨hcons, hfollows, -⟩ := hagrees
  have hkept := registered_sweep ha hm hnil
  refine ⟨play_alone w g, fun h => ?_, fun h hreach => ?_⟩
  · rw [hkept, ← hfollows.color_ne_white_iff]
    constructor
    · intro hb; rw [hb]; decide
    · intro hw
      cases hc : m.color h with
      | white => exact absurd hc hw
      | gray => exact absurd hc (hcons.color_ne_gray hnil h)
      | black => rfl
  · have hreg := registered_play (w := w) ha (ne_done_of_marking hm)
    rw [hkept]
    refine ⟨⟨fun hb => ?_, ?_⟩, fun hb => ?_⟩
    · -- the path that is there at the end leaves what was scanned by a link that was gained
      have hend := (covered_play ha hm).black_or_leads hcons hnil
        (fun r hr => color_of_held ha hm hr) (hreach moves (List.prefix_refl _))
      obtain ⟨y, hg, hl⟩ := hend.resolve_left hb
      exact ⟨y, hg, m, hm, hreg ▸ hl⟩
    · rintro ⟨y, -, m', hm', hl⟩ hb
      obtain rfl : m = m' := Phase.marking.inj (hm.symm.trans hm')
      rw [hl.color_eq_white] at hb
      cases hb
    · -- the path that was there at the start is gone
      rcases (ahead_play ha (fun r hr => hr) hreach hm).resolve_left hb with hahead | hlost
      · exact (hahead.false_of_nil hcons hnil).elim
      · exact hlost

/-- To add a link takes no link away. -/
theorem mem_linked_touch_link {x y k child : Handle} (hy : y ∈ w.linked x) :
    y ∈ ((Action.touch k (.link child)).perform w).linked x := by
  have hobject : ((Action.touch k (.link child)).perform w).object x =
      if k = x then (w.object k).link child else w.object x := by
    by_cases hk : k = x
    · subst hk; simp [Action.perform, object, setObject, Touch.apply]
    · simp [Action.perform, object, setObject, Std.ExtTreeMap.getElem?_insert, hk]
  unfold linked at hy ⊢
  rw [hobject]
  split
  · subst k
    unfold Object.link
    split
    · exact hy
    · simp only [Object.linked, Bag.members, Bag.add, Std.ExtTreeMap.mem_keys] at hy ⊢
      rw [Std.ExtTreeMap.mem_insert]
      exact .inr hy
  · exact hy

/-- Two objects that the application holds all the time, of which all the time one links to a third
one, reach it all the time. -/
theorem reachedThroughout_of_two {a b c : Handle}
    (hreg : (start w g).registered g a = true ∧ (start w g).registered g b = true ∧
      (start w g).registered g c = true)
    (hall : ∀ before ∈ moves.inits, 0 < ((start w g).play g before).heap.heldCount a ∧
      0 < ((start w g).play g before).heap.heldCount b ∧
      (c ∈ ((start w g).play g before).heap.linked a ∨
        c ∈ ((start w g).play g before).heap.linked b)) :
    ReachedThroughout g (start w g) moves c := by
  have hall := fun before (hb : before <+: moves) => hall before ((List.mem_inits _ _).mpr hb)
  obtain ⟨ha, hb, hc⟩ := hreg
  intro before hpre
  rcases (hall before hpre).2.2 with hl | hl
  · exact .step (.root (fun before hpre => .inl (hall before hpre).1) ha) hl hc
  · exact .step (.root (fun before hpre => .inl (hall before hpre).2.1) hb) hl hc

/-- Two held objects, of which the first links to a third one. While a pass runs, the second one,
which was scanned already, gets a link to it as well. The third one is kept, since the first keeps its
link. -/
theorem kept_unless_moved_of_shared :
    let w := ofLinks 9 [[2], [], []] [0, 1]
    let moves : List Move :=
      List.replicate 5 none ++ [some (.touch (.fresh 1) (.link (.fresh 2))), none, none]
    Admits 0 moves ∧ ((start w 0).play 0 moves).Sweeps ∧
      ReachedThroughout 0 (start w 0) moves (.fresh 2) ∧
      (((start w 0).play 0 moves).advance 0).heap.Registered 0 (.fresh 2) := by
  intro w moves
  have ha : Admits 0 moves := by decide +kernel
  have hs : ((start w 0).play 0 moves).Sweeps := by decide +kernel
  have hreach : ReachedThroughout 0 (start w 0) moves (.fresh 2) :=
    reachedThroughout_of_two (a := .fresh 0) (b := .fresh 1) (by decide +kernel) (by decide +kernel)
  refine ⟨ha, hs, hreach, by_contra fun hn => ?_⟩
  obtain ⟨before, a, hb, m, x, y, -, -, -, hxy, hnot, -⟩ :=
    ((kept_unless_moved w 0 moves ha hs).2.2 _ hreach).2 hn
  have hmem : some a ∈ moves := hb.subset (by simp)
  obtain rfl : a = .touch (.fresh 1) (.link (.fresh 2)) := by simpa [moves] using hmem
  exact hnot (mem_linked_touch_link hxy)

/-- **What a pass can lose.** First: two held objects, of which the first links to a third one. While a
pass runs, the second one, which was scanned already, gets a link to it, and then the first one, which
is still to be scanned, loses its own. Second, with no other thread at all: a held registered object
links to a held one that is not registered, which links to a registered one. In both cases the last
object is reached all the time and swept. -/
theorem lost_to_moved_link :
    (let w := ofLinks 9 [[2], [], []] [0, 1]
      let moves : List Move := List.replicate 5 none ++
        [some (.touch (.fresh 1) (.link (.fresh 2))), some (.touch (.fresh 0) (.unlink (.fresh 2))),
          none]
      Admits 0 moves ∧ ((start w 0).play 0 moves).Sweeps ∧
        (∀ before ∈ moves.inits, 0 < ((start w 0).play 0 before).heap.heldCount (.fresh 0) ∧
          0 < ((start w 0).play 0 before).heap.heldCount (.fresh 1)) ∧
        ReachedThroughout 0 (start w 0) moves (.fresh 2) ∧
        ¬ (((start w 0).play 0 moves).advance 0).heap.Registered 0 (.fresh 2)) ∧
    (let r : Holder := ⟨.fresh 0, .whole⟩
      let c : Holder := ⟨.fresh 2, .whole⟩
      let actions : List Action := [.addCollector 200, .allocate .node, .clone r, .register 0 r,
        .allocate .node, .allocate .node, .clone c, .register 0 c,
        .touch (.fresh 0) (.link (.fresh 1)), .touch (.fresh 1) (.link (.fresh 2)), .drop c]
      let w := (initial 1).performs actions
      let moves : List Move := List.replicate 4 none
      (initial 1).Legal actions ∧ ((start w 0).play 0 moves).Sweeps ∧
        (start w 0).registered 0 (.fresh 0) = true ∧ (start w 0).registered 0 (.fresh 1) = false ∧
        (start w 0).registered 0 (.fresh 2) = true ∧
        (∀ before ∈ moves.inits, 0 < ((start w 0).play 0 before).heap.heldCount (.fresh 0) ∧
          .fresh 1 ∈ ((start w 0).play 0 before).heap.linked (.fresh 0) ∧
          .fresh 2 ∈ ((start w 0).play 0 before).heap.linked (.fresh 1)) ∧
        ¬ (((start w 0).play 0 moves).advance 0).heap.Registered 0 (.fresh 2)) := by
  refine ⟨?_, ?_⟩
  · intro w moves
    refine ⟨by decide +kernel, by decide +kernel, by decide +kernel,
      reachedThroughout_of_two (a := .fresh 0) (b := .fresh 1) (by decide +kernel)
        (by decide +kernel), ?_⟩
    rw [Registered]
    decide +kernel
  · intro r c actions w moves
    refine ⟨by decide +kernel, by decide +kernel, by decide +kernel, by decide +kernel,
      by decide +kernel, by decide +kernel, ?_⟩
    rw [Registered]
    decide +kernel

end Passing

end SharedHeap
