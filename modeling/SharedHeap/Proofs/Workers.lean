import SharedHeap.Proofs.Accounting
import SharedHeap.Proofs.Creation
import SharedHeap.Proofs.Operation
import SharedHeap.Proofs.Turns
import Mathlib.Data.List.Induction

/-! # Threads that make garbage

Each of several threads makes objects in one collector and drops each before it makes the next. A pass
that one of them runs keeps what the others have in their hands at that moment, but starts the count
of registrations from zero. So how many objects are registered depends on how the threads take turns,
and need not stay below the step. -/

namespace SharedHeap

open Heap

/-- Idle, unlocked, and of step `S`. -/
def Collector.Steady (S : Nat) (c : Collector) : Prop :=
  c.step = S ∧ c.state = .idle ∧ c.locked = false

namespace Heap

variable {w : Heap} {g : CollectorId} {h : Handle} {xs : List Holder} {x : Holder}

/-! ## Who holds what -/

/-- One collector, no links, and no holders but its slots and the application's `xs`. -/
structure Holds (w : Heap) (xs : List Holder) : Prop where
  length_collectors : w.collectors.length = 1
  bare : ∀ r ∈ w.registries, r = .empty
  queues : w.queues = []
  linked : ∀ h, w.linked h = []
  count : ∀ x, w.held.count x = xs.count x

theorem Holds.heldCount_pos_iff (hw : w.Holds xs) :
    0 < w.heldCount h ↔ h ∈ xs.map Holder.handle := by
  rw [heldCount, hw.count, hw.count, List.mem_map]
  constructor
  · intro hpos
    rcases Nat.add_pos_iff_pos_or_pos.mp hpos with hx | hx
    · exact ⟨_, List.count_pos_iff.mp hx, rfl⟩
    · exact ⟨_, List.count_pos_iff.mp hx, rfl⟩
  · rintro ⟨⟨k, v⟩, hx, rfl⟩
    have hx := List.count_pos_iff.mpr hx
    cases v
    · exact Nat.add_pos_left hx _
    · exact Nat.add_pos_right _ hx

/-- What is live is what the application holds. -/
theorem Holds.live_iff (hw : w.Holds xs) :
    w.Live 0 h ↔ w.Registered 0 h ∧ h ∈ xs.map Holder.handle := by
  have helse : w.HeldElsewhere 0 h ↔ h ∈ xs.map Holder.handle := by
    rw [HeldElsewhere, hw.heldCount_pos_iff, hw.queues]
    refine or_iff_left ?_
    rintro (⟨g, hg, hr⟩ | ⟨r, hr, hh⟩ | ⟨q, hq, -⟩)
    · have hlt := hr.lt_length
      rw [hw.length_collectors] at hlt
      exact hg (Nat.lt_one_iff.mp hlt)
    · rw [hw.bare r hr] at hh
      simp [Registry.empty, Registry.contains] at hh
    · cases hq
  rw [← helse]
  constructor
  · intro hl
    cases hl with
    | held hr he => exact ⟨hr, he⟩
    | linked _ hab _ => rw [hw.linked] at hab; cases hab
  · rintro ⟨hr, he⟩
    exact .held hr he

theorem size_eq_length {l : List Handle} (hn : l.Nodup) (hl : ∀ h, h ∈ l ↔ w.Registered g h) :
    (w.collector g).registry.size = l.length := by
  rw [← Registry.length_handles]
  refine ((List.perm_ext_iff_of_nodup (Registry.nodup_handles _) hn).mpr fun h => ?_).length_eq
  rw [hl]
  exact Registry.mem_handles _ h

/-! ## Registering a new object -/

/-- Where a new object is registered, a due pass leaves one pending, and else there is one more. -/
theorem steady_register {S : Nat} (hg : g < w.collectors.length)
    (hs : (w.collector g).Steady S) (hx : ¬ w.Registered g x.handle) :
    ((w.register g x).2.collector g).Steady S ∧
      (w.PassDue g → ((w.register g x).2.collector g).pending = 1) ∧
      (¬ w.PassDue g → ((w.register g x).2.collector g).pending = (w.collector g).pending + 1) := by
  obtain ⟨c, hc⟩ : ∃ c, w.collectors[g]? = some c := ⟨_, List.getElem?_eq_getElem hg⟩
  have hacc : (w.register g x).1.isAccepted = true := by
    rw [register_of_new ⟨c, hc⟩ hx]
    exact isAccepted_accept ..
  obtain ⟨r, n, hcol, hdue, hnot⟩ := collector_register_of_accepted hc hacc
  rw [collector_eq hc] at hs ⊢
  rw [hcol]
  exact ⟨hs, hdue, hnot⟩

/-! ## What the application makes and drops -/

theorem Holds.perm {ys : List Holder} (hw : w.Holds xs) (hp : xs.Perm ys) : w.Holds ys := by
  refine ⟨hw.length_collectors, hw.bare, hw.queues, hw.linked, fun x => ?_⟩
  rw [hw.count, hp.count_eq]

theorem Holds.hold (hw : w.Holds xs) (x : Holder) : (w.hold x).Holds (x :: xs) := by
  refine ⟨hw.length_collectors, hw.bare, hw.queues, hw.linked, fun y => ?_⟩
  show (w.held.add x).count y = _
  rw [Bag.count_add, hw.count, List.count_cons]
  by_cases hy : x = y <;> simp [hy]

theorem Holds.letGo (hw : w.Holds (x :: xs)) : (w.letGo x).Holds xs := by
  refine ⟨hw.length_collectors, hw.bare, hw.queues, hw.linked, fun y => ?_⟩
  show (w.held.remove x).count y = _
  rw [Bag.count_remove, hw.count, List.count_cons]
  by_cases hy : x = y <;> simp [hy]

theorem Holds.allocate (hw : w.Holds xs) (kind : Kind) :
    (w.allocate kind).2.Holds (⟨.fresh w.allocated, .whole⟩ :: xs) := by
  obtain ⟨hl, hb, hq, hlinked, hcount⟩ := hw.hold ⟨.fresh w.allocated, .whole⟩
  refine ⟨hl, hb, hq, fun h => ?_, hcount⟩
  show ((w.setObject (.fresh w.allocated) { kind }).object h).linked = []
  by_cases hh : h = .fresh w.allocated
  · rw [hh, object_setObject]
    rfl
  · rw [object_setObject_of_ne w hh]
    exact hw.linked h

/-- After a registration nothing is left but that its queue may wait to be released. -/
structure Settles (g : CollectorId) (w w' : Heap) : Prop where
  queues : w'.queues = []
  objects : w'.objects = w.objects
  held : w'.held = w.held
  registries : w'.registries = w.registries
  allocated : w'.allocated = w.allocated
  length_collectors : w'.collectors.length = w.collectors.length
  collector : ∃ n k,
    w'.collector g = { w.collector g with collectionsRun := n, objectsSwept := k }

theorem Settles.registered {w' : Heap} (hs : w.Settles g w') :
    w'.Registered g h ↔ w.Registered g h := by
  obtain ⟨n, k, hcol⟩ := hs.collector
  exact registered_congr (by rw [hcol]) h

theorem linked_congr {w' : Heap} (ho : w'.objects = w.objects) (h : Handle) :
    w'.linked h = w.linked h := by
  simp only [linked, object, ho]

/-- A registration takes the holder that it registers from the application. -/
theorem Holds.register {w' : Heap} (hw : w.Holds (x :: xs)) (hs : (w.register 0 x).2.Settles 0 w') :
    w'.Holds xs := by
  obtain ⟨hheld, hbare, -, hobjects⟩ := register_frame w 0 x
  refine ⟨?_, ?_, hs.queues, fun h => ?_, fun y => ?_⟩
  · rw [hs.length_collectors, length_register]
    exact hw.length_collectors
  · rw [hs.registries, hbare]
    exact hw.bare
  · rw [linked_congr (hs.objects.trans hobjects)]
    exact hw.linked h
  · rw [hs.held, hheld]
    exact hw.letGo.count y

theorem settles_finishPass (hg : g < w.collectors.length) (stats : PassStats) :
    w.Settles g (({ w with queues := [] } : Heap).finishPass g stats) := by
  refine ⟨rfl, rfl, rfl, rfl, rfl, by simp [finishPass, modifyCollector, emit], ?_⟩
  exact ⟨_, _, collector_modifyCollector_self (w := { w with queues := [] }) hg _⟩

end Heap

namespace Program.Session

variable {s : Session} {g : CollectorId} {x : Holder}

/-- Without hooks, a new object is registered and nothing is left to be released. -/
theorem register_of_new (run : Runner) (hooks : s.hooks = ∅) (hst : s.stuck = false)
    (hq : s.heap.queues = []) (hg : g < s.heap.collectors.length)
    (hlock : (s.heap.collector g).locked = false) (hx : ¬ s.heap.Registered g x.handle) :
    ∃ w', ((s.heap.hold x).register g x).2.Settles g w' ∧
      s.register run g x = (.ok x, { s with heap := w' }) := by
  have hl : (s.acquire g).stuck = false := by simp [acquire, hlock, hst]
  have hg' : g < ((s.heap.hold x).register g x).2.collectors.length := by
    rw [length_register]; exact hg
  have hnew := Heap.register_of_new (w := s.heap.hold x) ⟨_, List.getElem?_eq_getElem hg⟩ hx
  obtain ⟨-, -, -, hqueues, -, -, -⟩ := duePass_frame (s.heap.hold x) g
  have hwait : (((s.heap.hold x).duePass g).2.insertSlot g x).2.queues = [] := hqueues.trans hq
  rw [register_of_acquire hl]
  rw [hnew] at hg' ⊢
  generalize (((s.heap.hold x).duePass g).2.insertSlot g x).2 = w at hg' hwait ⊢
  generalize ((s.heap.hold x).duePass g).1 = pass at hg' ⊢
  cases pass with
  | none =>
    have hqueues : (w.accept g x.handle none).2.queues = [] := hwait
    exact ⟨_, ⟨hqueues, rfl, rfl, rfl, rfl, rfl, _, _, rfl⟩, rfl⟩
  | some pass =>
    refine ⟨_, settles_finishPass hg' pass.1, ?_⟩
    have hopen : (w.accept g x.handle (some pass)).2.queues =
        [⟨w.opened, pass.2, .complete g pass.1⟩] := by
      simp [accept, openQueue, hwait, modifyCollector, emit]
    have hclose : (w.accept g x.handle (some pass)).2.closeQueue w.opened =
        ({ (w.accept g x.handle (some pass)).2 with queues := [] } : Heap).finishPass g pass.1 := by
      simp [closeQueue, queue?, hopen]
    have hdrain := drain_eq (s := { s with heap := (w.accept g x.handle (some pass)).2 }) run hooks
      hst w.opened
    rw [update, hclose] at hdrain
    exact congrArg (Prod.mk _) (hdrain _)

end Program.Session

namespace Program

/-- A thread that makes objects one after another and drops each before it makes the next. -/
structure Worker where
  /-- How many objects it has yet to make. -/
  rounds : Nat
  /-- The object that it has made and not yet dropped. -/
  hand : Option Holder := none

namespace Worker

/-! ## Workers -/

/-- The next thing that a worker does. A refused registration would end it. -/
def work (run : Runner) (name : String) (s : Session) (t : Worker) : Session × Worker :=
  match t.hand, t.rounds with
  | some x, _ => (s.dropHolder run x, { t with hand := none })
  | none, 0 => (s, t)
  | none, n + 1 =>
    match s.create run name 0 .object with
    | (.ok x, s) => (s, ⟨n, some x⟩)
    | (.error _, s) => (s, ⟨0, none⟩)

/-- A fresh collector of the given step, and a worker for each number of rounds. -/
def start (name : String) (step : Nat) (rounds : List Nat) : Turns Session Worker :=
  ⟨.start name (.withStep step), rounds.map fun n => { rounds := n }⟩

/-- The rounds that remain to these workers. -/
def left : List Worker → Nat
  | [] => 0
  | t :: ts => t.rounds + left ts

/-- What these workers have in their hands. -/
def hands (ts : List Worker) : List Holder := ts.filterMap (·.hand)

def Finished (ts : List Worker) : Prop := ∀ t ∈ ts, t.rounds = 0 ∧ t.hand = none

instance (ts : List Worker) : Decidable (Finished ts) := by
  unfold Finished
  infer_instance

/-- How many objects were made. -/
def made (e : Turns Session Worker) : Nat := e.shared.heap.allocated

def size (e : Turns Session Worker) : Nat := (e.shared.heap.collector 0).registry.size

def pending (e : Turns Session Worker) : Nat := (e.shared.heap.collector 0).pending

variable (run : Runner) (name : String) {S total : Nat} {s : Session} {ts l₁ l₂ : List Worker}
  {t : Worker} {x : Holder} {n : Nat}

theorem left_append (l₁ l₂ : List Worker) : left (l₁ ++ l₂) = left l₁ + left l₂ := by
  induction l₁ with
  | nil => exact (Nat.zero_add _).symm
  | cons t rest ih => simp [left, ih, Nat.add_assoc]

theorem left_eq_zero (hd : Finished ts) : left ts = 0 := by
  induction ts with
  | nil => rfl
  | cons t rest ih =>
    have hrest : left rest = 0 := ih fun t ht => hd t (List.mem_cons_of_mem _ ht)
    rw [left, hrest, (hd t List.mem_cons_self).1]

theorem hands_of_none (ht : t.hand = none) : hands (l₁ ++ t :: l₂) = hands l₁ ++ hands l₂ := by
  rw [hands, List.filterMap_append, List.filterMap_cons_none ht]
  rfl

theorem hands_of_some (ht : t.hand = some x) :
    (hands (l₁ ++ t :: l₂)).Perm (x :: (hands l₁ ++ hands l₂)) := by
  rw [hands, List.filterMap_append, List.filterMap_cons_some ht]
  exact List.perm_middle

/-- Workers on a collector of step `S`: nothing else happens, and what they have in their hands are
registered objects. -/
structure Working (S total : Nat) (s : Session) (ts : List Worker) : Prop where
  hooks : s.hooks = ∅
  stuck : s.stuck = false
  holds : s.heap.Holds (hands ts)
  steady : (s.heap.collector 0).Steady S
  registered : ∀ x ∈ hands ts, s.heap.Registered 0 x.handle
  nodup : ((hands ts).map Holder.handle).Nodup
  numbered : ∀ h, s.heap.Registered 0 h → ∃ n < s.heap.allocated, h = .fresh n
  rounds : s.heap.allocated + left ts = total

theorem working_start (name : String) (hS : 1 ≤ S) (rounds : List Nat) :
    Working S (left (start name S rounds).threads) (start name S rounds).shared
      (start name S rounds).threads := by
  have hnone : hands (start name S rounds).threads = [] := by
    simp [hands, start, List.filterMap_map]
  have hcol : (start name S rounds).shared.heap.collector 0 = .withStep S := rfl
  have hreg : ∀ h, ¬ (start name S rounds).shared.heap.Registered 0 h := by
    intro h hr
    rw [Registered, hcol] at hr
    simp [Collector.withStep, Registry.empty, Registry.contains] at hr
  have hholds : (start name S rounds).shared.heap.Holds [] := by
    refine ⟨rfl, fun r hr => List.mem_singleton.mp hr, rfl, fun h => ?_, fun x => ?_⟩
    · simp [linked, object, start, Session.start, Session.placeCollector, Session.update,
        addCollector, Object.linked, Bag.members, Bag.empty]
    · exact Bag.count_empty x
  refine ⟨rfl, rfl, hnone ▸ hholds, ⟨Nat.max_eq_left hS, rfl, rfl⟩, ?_, ?_, ?_, Nat.zero_add _⟩
  · rw [hnone]
    exact fun x hx => absurd hx List.not_mem_nil
  · rw [hnone]
    exact List.nodup_nil
  · exact fun h hr => absurd hr (hreg h)

/-! ## What one turn does -/

theorem Working.drop (hw : Working S total s (l₁ ++ t :: l₂)) (ht : t.hand = some x) :
    Working S total (s.dropHolder run x) (l₁ ++ { t with hand := none } :: l₂) ∧
      (s.dropHolder run x).heap = s.heap.letGo x := by
  have heap := Session.dropHolder_of_no_hooks run hw.hooks x
  have hp : (hands (l₁ ++ t :: l₂)).Perm (x :: (hands l₁ ++ hands l₂)) := hands_of_some ht
  have hn : hands (l₁ ++ { t with hand := none } :: l₂) = hands l₁ ++ hands l₂ := hands_of_none rfl
  have hnodup := (hp.map Holder.handle).nodup_iff.mp hw.nodup
  rw [heap]
  refine ⟨⟨hw.hooks, hw.stuck, ?_, hw.steady, ?_, ?_, hw.numbered, ?_⟩, rfl⟩
  · rw [hn]
    exact (hw.holds.perm hp).letGo
  · rw [hn]
    exact fun y hy => hw.registered y (hp.mem_iff.mpr (List.mem_cons_of_mem _ hy))
  · rw [hn]
    exact hnodup.of_cons
  · have hr := hw.rounds
    rw [left_append] at hr ⊢
    exact hr

/-- The object that a worker makes next. -/
def next (s : Session) : Holder := ⟨.fresh s.heap.allocated, .whole⟩

/-- The heap in which the next object is made and about to be registered. -/
def making (s : Session) : Heap := (s.heap.allocate .object).2.hold (next s)

theorem Working.holds_making (hw : Working S total s (l₁ ++ ⟨n + 1, none⟩ :: l₂)) :
    (making s).Holds (next s :: next s :: (hands l₁ ++ hands l₂)) := by
  have hn : hands (l₁ ++ ⟨n + 1, none⟩ :: l₂) = hands l₁ ++ hands l₂ := hands_of_none rfl
  exact (hn ▸ hw.holds.allocate .object).hold (next s)

theorem Working.lt_length (hw : Working S total s (l₁ ++ ⟨n + 1, none⟩ :: l₂)) :
    0 < (making s).collectors.length := by
  rw [hw.holds_making.length_collectors]
  exact Nat.one_pos

theorem Working.room (hw : Working S total s (l₁ ++ ⟨n + 1, none⟩ :: l₂)) :
    s.heap.allocated + (left l₁ + (n + 1 + left l₂)) = total := by
  rw [← hw.rounds, left_append]
  rfl

theorem Working.next_new (hw : Working S total s (l₁ ++ ⟨n + 1, none⟩ :: l₂))
    (hN : total < UInt64.size) : ¬ (making s).Registered 0 (next s).handle := by
  intro hr
  obtain ⟨m, hm, he⟩ := hw.numbered _ hr
  have hrounds := hw.room
  have := Handle.fresh_injective (by omega) (by omega) he
  omega

theorem Working.create (hw : Working S total s (l₁ ++ ⟨n + 1, none⟩ :: l₂))
    (hN : total < UInt64.size) : ∃ w', ((making s).register 0 (next s)).2.Settles 0 w' ∧
      s.create run name 0 .object = (.ok (next s), { s with heap := w' }) := by
  obtain ⟨-, -, hlock⟩ := hw.steady
  exact Session.register_of_new (s := { s with heap := (s.heap.allocate .object).2 }) run hw.hooks
    hw.stuck hw.holds.queues hw.lt_length hlock (hw.next_new hN)

/-- What is registered once a new object is: the object, and what was registered before, if no pass
was due, or else of that what the workers have in their hands. -/
theorem Working.registered_create {w' : Heap} (hw : Working S total s (l₁ ++ ⟨n + 1, none⟩ :: l₂))
    (hs : ((making s).register 0 (next s)).2.Settles 0 w') (h : Handle) :
    w'.Registered 0 h ↔ h = (next s).handle ∨ s.heap.Registered 0 h ∧
      ((making s).PassDue 0 → h ∈ (hands l₁ ++ hands l₂).map Holder.handle) := by
  have hlive : (making s).Live 0 h ↔ s.heap.Registered 0 h ∧
      (h = (next s).handle ∨ h ∈ (hands l₁ ++ hands l₂).map Holder.handle) := by
    rw [hw.holds_making.live_iff, List.map_cons, List.map_cons, List.mem_cons, List.mem_cons,
      or_self_left]
    rfl
  rw [hs.registered, registered_register (List.getElem?_eq_getElem hw.lt_length), hlive]
  constructor
  · rintro (hh | ⟨hr, hl⟩)
    · exact .inl hh
    · by_cases hh : h = (next s).handle
      · exact .inl hh
      · exact .inr ⟨hr, fun hd => (hl hd).2.resolve_left hh⟩
  · rintro (hh | ⟨hr, hl⟩)
    · exact .inl hh
    · exact .inr ⟨hr, fun hd => ⟨hr, .inr (hl hd)⟩⟩

theorem Working.of_create {w' : Heap} (hw : Working S total s (l₁ ++ ⟨n + 1, none⟩ :: l₂))
    (hN : total < UInt64.size) (hs : ((making s).register 0 (next s)).2.Settles 0 w') :
    Working S total { s with heap := w' } (l₁ ++ ⟨n, some (next s)⟩ :: l₂) := by
  have hp : (hands (l₁ ++ ⟨n, some (next s)⟩ :: l₂)).Perm (next s :: (hands l₁ ++ hands l₂)) :=
    hands_of_some rfl
  have hn : hands (l₁ ++ ⟨n + 1, none⟩ :: l₂) = hands l₁ ++ hands l₂ := hands_of_none rfl
  have hreg := hw.registered_create hs
  have hnew : ¬ s.heap.Registered 0 (next s).handle := hw.next_new hN
  have hall : w'.allocated = s.heap.allocated + 1 :=
    hs.allocated.trans (register_frame (making s) 0 (next s)).2.2.1
  -- of the two holders of the new object one became its slot, and the worker has the other
  refine ⟨hw.hooks, hw.stuck, (hw.holds_making.register hs).perm hp.symm, ?_, ?_, ?_, ?_, ?_⟩
  · obtain ⟨k, m, hcol⟩ := hs.collector
    rw [hcol]
    exact (steady_register (w := making s) hw.lt_length hw.steady (hw.next_new hN)).1
  · intro x hx
    rw [hreg]
    rcases List.mem_cons.mp (hp.mem_iff.mp hx) with rfl | hx
    · exact .inl rfl
    · exact .inr ⟨hw.registered x (hn ▸ hx), fun _ => List.mem_map_of_mem hx⟩
  · rw [(hp.map Holder.handle).nodup_iff, List.map_cons, List.nodup_cons]
    refine ⟨fun hx => ?_, hn ▸ hw.nodup⟩
    obtain ⟨x, hx, he⟩ := List.mem_map.mp hx
    exact hnew (he ▸ hw.registered x (hn ▸ hx))
  · intro h hr
    rw [hall]
    rcases (hreg h).mp hr with rfl | ⟨hr, -⟩
    · exact ⟨s.heap.allocated, Nat.lt_succ_self _, rfl⟩
    · obtain ⟨m, hm, he⟩ := hw.numbered h hr
      exact ⟨m, Nat.lt_succ_of_lt hm, he⟩
  · rw [hall, left_append, ← hw.room]
    show _ + 1 + (left l₁ + (n + left l₂)) = _
    omega

/-- A pass keeps what the other workers have in their hands; without one everything stays. -/
theorem Working.counts_create {w' : Heap} (hw : Working S total s (l₁ ++ ⟨n + 1, none⟩ :: l₂))
    (hN : total < UInt64.size) (hs : ((making s).register 0 (next s)).2.Settles 0 w') :
    let c := s.heap.collector 0
    let c' := w'.collector 0
    (S ≤ c.pending + 1 → c'.registry.size = (hands l₁ ++ hands l₂).length + 1 ∧ c'.pending = 1) ∧
      (c.pending + 1 < S → c'.registry.size = c.registry.size + 1 ∧ c'.pending = c.pending + 1) := by
  intro c c'
  have hp : (hands (l₁ ++ ⟨n, some (next s)⟩ :: l₂)).Perm (next s :: (hands l₁ ++ hands l₂)) :=
    hands_of_some rfl
  have hn : hands (l₁ ++ ⟨n + 1, none⟩ :: l₂) = hands l₁ ++ hands l₂ := hands_of_none rfl
  have hreg := hw.registered_create hs
  have hnew : ¬ s.heap.Registered 0 (next s).handle := hw.next_new hN
  have hdue : (making s).PassDue 0 ↔ S ≤ c.pending + 1 := by
    obtain ⟨hstep, hidle, -⟩ := hw.steady
    rw [← hstep]
    exact ⟨fun hd => of_decide_eq_true hd.1, fun hle => ⟨decide_eq_true hle, hidle⟩⟩
  obtain ⟨-, hpass, hno⟩ := steady_register (w := making s) hw.lt_length hw.steady (hw.next_new hN)
  have hpending : c'.pending = (((making s).register 0 (next s)).2.collector 0).pending := by
    obtain ⟨k, m, hcol⟩ := hs.collector
    show (w'.collector 0).pending = _
    rw [hcol]
  constructor
  · intro hle
    have hd := hdue.mpr hle
    refine ⟨?_, hpending.trans (hpass hd)⟩
    have hnodup : ((next s :: (hands l₁ ++ hands l₂)).map Holder.handle).Nodup :=
      (hp.map Holder.handle).nodup_iff.mp (hw.of_create hN hs).nodup
    rw [size_eq_length hnodup, List.length_map, List.length_cons]
    intro h
    rw [hreg, List.map_cons, List.mem_cons]
    refine or_congr_right ⟨fun hm => ⟨?_, fun _ => hm⟩, fun hr => hr.2 hd⟩
    obtain ⟨x, hx, rfl⟩ := List.mem_map.mp hm
    exact hw.registered x (hn ▸ hx)
  · intro hlt
    have hd : ¬ (making s).PassDue 0 := fun hd => Nat.not_le.mpr hlt (hdue.mp hd)
    refine ⟨?_, hpending.trans (hno hd)⟩
    have hnodup : ((next s).handle :: c.registry.handles).Nodup :=
      List.nodup_cons.mpr ⟨fun hm => hnew ((Registry.mem_handles _ _).mp hm),
        Registry.nodup_handles _⟩
    rw [size_eq_length hnodup, List.length_cons, Registry.length_handles]
    intro h
    rw [hreg, List.mem_cons, Registry.mem_handles]
    exact or_congr_right ⟨fun hr => ⟨hr, fun h => absurd h hd⟩, fun hr => hr.1⟩

/-- What a turn does to the counts: nothing; or an object is made, after a pass if that is due. -/
inductive Turned (S : Nat) (e e' : Turns Session Worker) : Prop where
  | same (hm : made e' = made e) (hs : size e' = size e) (hp : pending e' = pending e)
  | counted (hm : made e' = made e + 1) (hlt : pending e + 1 < S) (hs : size e' = size e + 1)
      (hp : pending e' = pending e + 1)
  | passed (hm : made e' = made e + 1) (hle : S ≤ pending e + 1)
      (hh : (hands e.threads).length < e.threads.length)
      (hs : size e' = (hands e.threads).length + 1) (hp : pending e' = 1)

theorem length_hands_le (ts : List Worker) : (hands ts).length ≤ ts.length :=
  List.length_filterMap_le _ _

/-- One step of one worker between the others. -/
theorem Working.step (hw : Working S total s (l₁ ++ t :: l₂)) (hN : total < UInt64.size) :
    Working S total (work run name s t).1 (l₁ ++ (work run name s t).2 :: l₂) ∧
      Turned S ⟨s, l₁ ++ t :: l₂⟩ ⟨(work run name s t).1, l₁ ++ (work run name s t).2 :: l₂⟩ := by
  obtain ⟨n, hand⟩ := t
  cases hand with
  | some x =>
    obtain ⟨hw', hheap⟩ := hw.drop run rfl
    have hmade : (s.dropHolder run x).heap.allocated = s.heap.allocated := by rw [hheap]; rfl
    have hcol : (s.dropHolder run x).heap.collector 0 = s.heap.collector 0 := by rw [hheap]; rfl
    refine ⟨hw', .same hmade ?_ ?_⟩
    · exact congrArg (·.registry.size) hcol
    · exact congrArg (·.pending) hcol
  | none =>
    cases n with
    | zero => exact ⟨hw, .same rfl rfl rfl⟩
    | succ n =>
      obtain ⟨w', hs, he⟩ := hw.create run name hN
      have hwork : work run name s ⟨n + 1, none⟩ = ({ s with heap := w' }, ⟨n, some (next s)⟩) := by
        simp only [work, he]
      have hw' := hw.of_create hN hs
      obtain ⟨hpass, hno⟩ := hw.counts_create hN hs
      have hmade : w'.allocated = s.heap.allocated + 1 :=
        hs.allocated.trans (register_frame (making s) 0 (next s)).2.2.1
      have hhands : hands (l₁ ++ ⟨n + 1, none⟩ :: l₂) = hands l₁ ++ hands l₂ := hands_of_none rfl
      rw [hwork]
      refine ⟨hw', ?_⟩
      by_cases hle : S ≤ (s.heap.collector 0).pending + 1
      · obtain ⟨hsize, hpending⟩ := hpass hle
        refine .passed hmade hle ?_ (by rw [hhands]; exact hsize) hpending
        have h₁ := length_hands_le l₁
        have h₂ := length_hands_le l₂
        rw [hhands, List.length_append, List.length_append, List.length_cons]
        omega
      · obtain ⟨hsize, hpending⟩ := hno (Nat.lt_of_not_le hle)
        exact .counted hmade (Nat.lt_of_not_le hle) hsize hpending

/-! ## Whole schedules -/

/-- What the workers have come to after these turns. -/
def after (run : Runner) (name : String) (S : Nat) (rounds schedule : List Nat) :
    Turns Session Worker := (start name S rounds).play (work run name) schedule

/-- Object number `m` was made in a turn that began with `k` objects in the hands of workers. -/
def MadeAmid (run : Runner) (name : String) (S : Nat) (rounds schedule : List Nat) (m k : Nat) :
    Prop :=
  ∃ before i later, schedule = before ++ i :: later ∧
    made (after run name S rounds before) = m ∧
    made (after run name S rounds (before ++ [i])) = m + 1 ∧
    (hands (after run name S rounds before).threads).length = k

variable {rounds schedule : List Nat} {m k : Nat}

variable {run name} in
theorem MadeAmid.concat (hm : MadeAmid run name S rounds schedule m k) (i : Nat) :
    MadeAmid run name S rounds (schedule ++ [i]) m k := by
  obtain ⟨before, j, later, rfl, h⟩ := hm
  exact ⟨before, j, later ++ [i], by simp, h⟩

theorem after_concat (schedule : List Nat) (i : Nat) :
    after run name S rounds (schedule ++ [i]) =
      (after run name S rounds schedule).turn (work run name) i := Turns.play_append ..

theorem working_after (hS : 1 ≤ S) (hN : left (start name S rounds).threads < UInt64.size)
    (schedule : List Nat) :
    Working S (left (start name S rounds).threads) (after run name S rounds schedule).shared
      (after run name S rounds schedule).threads :=
  Turns.play_invariant (fun _ _ _ _ hw => (hw.step run name hN).1) (working_start name hS rounds)
    schedule

theorem turned_after (hS : 1 ≤ S) (hN : left (start name S rounds).threads < UInt64.size)
    (schedule : List Nat) (i : Nat) :
    Turned S (after run name S rounds schedule) (after run name S rounds (schedule ++ [i])) := by
  have hw := working_after run name hS hN schedule
  rw [after_concat]
  generalize after run name S rounds schedule = e at hw ⊢
  rcases Turns.turn_cases (work run name) e i with he | ⟨l₁, t, l₂, hl, he⟩
  · rw [he]
    exact .same rfl rfl rfl
  · obtain ⟨s, ts⟩ := e
    obtain rfl : ts = l₁ ++ t :: l₂ := hl
    rw [he]
    exact (hw.step run name hN).2

theorem length_after (S : Nat) (rounds schedule : List Nat) :
    (after run name S rounds schedule).threads.length = rounds.length := by
  rw [after, Turns.length_play, start, List.length_map]

/-- A remainder grows by one, or starts again from zero. -/
theorem mod_eq_of_pred {d : Nat} (hm : 0 < m) : m % d = ((m - 1) % d + 1) % d := by
  rw [Nat.mod_add_mod, Nat.sub_add_cancel hm]

/-- What is registered and pending at any moment. The first pass runs when `S - 1` objects were made
before, and each further one `S - 1` objects later. -/
theorem account (hS : 2 ≤ S) (hN : left (start name S rounds).threads < UInt64.size)
    (schedule : List Nat) :
    let n := made (after run name S rounds schedule)
    let e := after run name S rounds schedule
    (n < S → size e = n ∧ pending e = n) ∧
      (S ≤ n → pending e = (n - 1) % (S - 1) + 1 ∧ ∃ k < rounds.length,
        MadeAmid run name S rounds schedule (n - 1 - (n - 1) % (S - 1)) k ∧
          size e = k + (n - 1) % (S - 1) + 1) := by
  induction schedule using List.reverseRecOn with
  | nil =>
    have hmade : made (after run name S rounds []) = 0 := rfl
    intro n e
    exact ⟨fun _ => ⟨rfl, rfl⟩, fun h => by omega⟩
  | append_singleton schedule i ih =>
    obtain ⟨hfew, hmany⟩ := ih
    intro n e
    have hturned := turned_after run name (by omega) hN schedule i
    generalize hn : made (after run name S rounds schedule) = n₀ at hfew hmany
    -- the remainder counts the objects since the last pass, and wraps around when a pass is due
    rcases hturned with ⟨hm, hs, hp⟩ | ⟨hm, hlt, hs, hp⟩ | ⟨hm, hle, hh, hs, hp⟩
    · have hn : n = n₀ := hm.trans hn
      rw [hn, hs, hp]
      refine ⟨hfew, fun h => ?_⟩
      obtain ⟨hpending, k, hk, hamid, hsize⟩ := hmany h
      exact ⟨hpending, k, hk, hamid.concat i, hsize⟩
    · have hn : n = n₀ + 1 := hm.trans (congrArg (· + 1) hn)
      rw [hn, hs, hp, Nat.add_sub_cancel]
      rcases Nat.lt_or_ge n₀ S with h | h
      · obtain ⟨hsize, hpending⟩ := hfew h
        exact ⟨fun _ => ⟨by rw [hsize], by rw [hpending]⟩, fun h => by omega⟩
      · obtain ⟨hpending, k, hk, hamid, hsize⟩ := hmany h
        have hmod : n₀ % (S - 1) = (n₀ - 1) % (S - 1) + 1 := by
          rw [mod_eq_of_pred (by omega), Nat.mod_eq_of_lt (by omega)]
        rw [hmod, hpending, hsize]
        refine ⟨fun h => by omega, fun _ => ⟨rfl, k, hk, ?_, rfl⟩⟩
        rw [Nat.sub_add_eq, Nat.sub_right_comm]
        exact hamid.concat i
    · have hn' : n = n₀ + 1 := hm.trans (congrArg (· + 1) hn)
      have hS' : S ≤ n₀ + 1 ∧ n₀ % (S - 1) = 0 := by
        rcases Nat.lt_or_ge n₀ S with h | h
        · obtain ⟨-, hpending⟩ := hfew h
          have hlast : n₀ = S - 1 := by omega
          exact ⟨by omega, by rw [hlast, Nat.mod_self]⟩
        · obtain ⟨hpending, -⟩ := hmany h
          have hlt := Nat.mod_lt (n₀ - 1) (show S - 1 > 0 by omega)
          have hfull : (n₀ - 1) % (S - 1) + 1 = S - 1 := by omega
          exact ⟨by omega, by rw [mod_eq_of_pred (by omega), hfull, Nat.mod_self]⟩
      rw [hn', hs, hp, Nat.add_sub_cancel, hS'.2]
      refine ⟨fun h => by omega, fun _ => ⟨rfl, _, ?_, ⟨schedule, i, [], rfl, hn, ?_, rfl⟩, rfl⟩⟩
      · rw [← length_after run name S rounds schedule]
        exact hh
      · exact hn'

theorem made_le_after_append (hS : 1 ≤ S)
    (hN : left (start name S rounds).threads < UInt64.size) (schedule later : List Nat) :
    made (after run name S rounds schedule) ≤ made (after run name S rounds (schedule ++ later)) := by
  induction later using List.reverseRecOn with
  | nil => rw [List.append_nil]
  | append_singleton later i ih =>
    rw [← List.append_assoc]
    rcases turned_after run name hS hN (schedule ++ later) i with
      ⟨hm, -⟩ | ⟨hm, -⟩ | ⟨hm, -⟩ <;> omega

variable {run name} in
/-- Each object is made once. -/
theorem MadeAmid.unique {k' : Nat} (hS : 1 ≤ S)
    (hN : left (start name S rounds).threads < UInt64.size)
    (h : MadeAmid run name S rounds schedule m k) (h' : MadeAmid run name S rounds schedule m k') :
    k = k' := by
  -- a turn that makes the object again would come after one that made it
  have hlate : ∀ before i rest, made (after run name S rounds (before ++ [i])) = m + 1 →
      made (after run name S rounds (before ++ i :: rest)) ≠ m := by
    intro before i rest hm he
    have hle := made_le_after_append run name hS hN (before ++ [i]) rest
    rw [List.append_assoc, List.singleton_append, he, hm] at hle
    omega
  obtain ⟨before, i, later, rfl, hm, hm₁, rfl⟩ := h
  obtain ⟨before', i', later', he, hm', hm₁', rfl⟩ := h'
  rcases List.append_eq_append_iff.mp he with ⟨rest, rfl, hrest⟩ | ⟨rest, rfl, hrest⟩
  · cases rest with
    | nil => rw [List.append_nil]
    | cons j rest =>
      obtain ⟨rfl, -⟩ := List.cons.inj hrest
      exact absurd hm' (hlate before i rest hm₁)
  · cases rest with
    | nil => rw [List.append_nil]
    | cons j rest =>
      obtain ⟨rfl, -⟩ := List.cons.inj hrest
      exact absurd hm (hlate before' i' rest hm₁')

/-- **How many objects are registered when workers have finished.** If they made fewer objects than
the step, all of them are. Otherwise the last pass ran when the last object was made of which the
number is a multiple of `S - 1`, counted from zero; registered are the objects that other workers had
in their hands at that moment, that object, and those made since. So the registry stays below the step
iff there were few enough of the former, as there are with a single worker. -/
theorem size_lt_step_iff (run : Runner) (name : String) {S : Nat} (hS : 2 ≤ S)
    (rounds schedule : List Nat) (hN : left (start name S rounds).threads < UInt64.size)
    (hd : Finished (after run name S rounds schedule).threads) :
    let n := left (start name S rounds).threads
    let e := after run name S rounds schedule
    let last := n - 1 - (n - 1) % (S - 1)
    (n < S → size e = n) ∧
      (S ≤ n → ∃ k < rounds.length, MadeAmid run name S rounds schedule last k ∧
        size e = k + (n - last)) ∧
      (size e < S ↔
        n < S ∨ ∃ k, MadeAmid run name S rounds schedule last k ∧ k + (n - last) < S) := by
  intro n e last
  have hmade : made e = n := by
    have hrounds := (working_after run name (by omega) hN schedule).rounds
    rwa [left_eq_zero hd] at hrounds
  obtain ⟨hfew, hmany⟩ := account run name hS hN schedule
  rw [show made (after run name S rounds schedule) = n from hmade] at hfew hmany
  have hlast : S ≤ n → n - last = (n - 1) % (S - 1) + 1 := by
    intro h
    have hle := Nat.mod_le (n - 1) (S - 1)
    omega
  refine ⟨fun h => (hfew h).1, fun h => ?_, fun h => ?_, ?_⟩
  · obtain ⟨-, k, hk, hamid, hsize⟩ := hmany h
    exact ⟨k, hk, hamid, by rw [hlast h]; exact hsize⟩
  · rcases Nat.lt_or_ge n S with hn | hn
    · exact .inl hn
    · obtain ⟨-, k, -, hamid, hsize⟩ := hmany hn
      refine .inr ⟨k, hamid, ?_⟩
      rw [hlast hn]
      exact hsize ▸ h
  · intro h
    rcases Nat.lt_or_ge n S with hn | hn
    · rw [(hfew hn).1]
      exact hn
    · obtain ⟨-, k₀, -, hamid₀, hsize⟩ := hmany hn
      rcases h with h | ⟨k, hamid, hk⟩
      · exact absurd hn (Nat.not_le.mpr h)
      · obtain rfl : k₀ = k := hamid₀.unique (by omega) hN hamid
        rw [hlast hn] at hk
        exact hsize ▸ hk

/-- With step three, one of two workers makes its only object while the other is between two objects,
and still has it when the last pass runs. -/
theorem size_lt_step_of_two_workers :
    let run : Runner := fun _ s => ([], s)
    let e := after run "gc" 3 [2, 1] [0, 0, 1, 0, 0, 1]
    Finished e.threads ∧ size e < 3 ∧ MadeAmid run "gc" 3 [2, 1] [0, 0, 1, 0, 0, 1] 2 1 := by
  intro run e
  have hd : Finished e.threads := by decide +kernel
  have hamid : MadeAmid run "gc" 3 [2, 1] [0, 0, 1, 0, 0, 1] 2 1 :=
    ⟨[0, 0, 1], 0, [0, 1], rfl, by decide +kernel, by decide +kernel, by decide +kernel⟩
  obtain ⟨-, -, hiff⟩ :=
    size_lt_step_iff run "gc" (by decide) [2, 1] [0, 0, 1, 0, 0, 1] (by decide) hd
  exact ⟨hd, hiff.mpr (.inr ⟨1, hamid, by decide⟩), hamid⟩

/-- With step two, two workers make one object each before either drops its own. The pass that the
second one runs keeps the object that the first one has, and both objects stay registered. -/
theorem size_reaches_step :
    let run : Runner := fun _ s => ([], s)
    let e := after run "gc" 2 [1, 1] [0, 1, 0, 1]
    Finished e.threads ∧ ¬ size e < 2 := by
  decide +kernel

end Worker

end Program

end SharedHeap
