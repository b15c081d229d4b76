import SharedHeap.Proofs.Accounting
import SharedHeap.Proofs.Queues

/-! # No object is lost

Every object that was registered is registered still, was counted as swept, or was swept by a pass
that has not counted it yet. A pass sweeps at once and counts much later, after hooks that can do
anything, and in two steps: first that it ran, then what it swept. Other threads come between all of
these. -/

namespace SharedHeap

open Heap

/-! ## Counting in two steps -/

namespace Heap

/-- The pass that ends with queue `q` is counted, but not yet what it swept. -/
def countPass (w : Heap) (q : QueueId) : Heap :=
  match w.queue? q with
  | some ⟨_, _, .complete g _⟩ =>
    w.modifyCollector g fun c => { c with collectionsRun := c.collectionsRun + 1 }
  | _ => w

/-- What the pass that ends with queue `q` swept is counted, and the queue is closed. -/
def countSwept (w : Heap) (q : QueueId) : Heap :=
  match w.queue? q with
  | some ⟨_, _, .complete g stats⟩ =>
    ({ w with queues := w.queues.filter (·.id != q) }.modifyCollector g fun c =>
      { c with objectsSwept := c.objectsSwept + stats.swept }).emit
      (.passComplete stats.swept stats.reachable)
  | _ => w

end Heap

/-- The queue ends with the count of a pass. -/
def ReleaseQueue.endsPass (p : ReleaseQueue) : Bool :=
  match p.afterwards with
  | .complete _ _ => true
  | _ => false

/-- A heap, and the queues whose pass is counted while what it swept is not. -/
structure Books where
  heap : Heap
  counted : List QueueId := []

/-- An atomic action, or one of the two steps that count a pass. -/
inductive Posting where
  | action (a : Action)
  | countPass (q : QueueId)
  | countSwept (q : QueueId)

namespace Posting

/-- A pass is counted once, and what it swept is counted after that. Nothing is asked of where holders
come from: the books balance also where somebody clones what is about to go away. -/
def Enabled (b : Books) : Posting → Prop
  | action a => ∀ q ∈ a.closes?, q ∉ b.counted
  | countPass q => q ∉ b.counted ∧ ∃ p ∈ b.heap.queues, p.id = q ∧ p.endsPass = true
  | countSwept q => q ∈ b.counted

instance decidableEnabled (b : Books) : (e : Posting) → Decidable (e.Enabled b)
  | action a => inferInstanceAs (Decidable (∀ q ∈ a.closes?, q ∉ b.counted))
  | countPass q => inferInstanceAs
      (Decidable (q ∉ b.counted ∧ ∃ p ∈ b.heap.queues, p.id = q ∧ p.endsPass = true))
  | countSwept q => inferInstanceAs (Decidable (q ∈ b.counted))

def perform (b : Books) : Posting → Books
  | action a => { b with heap := a.perform b.heap }
  | countPass q => ⟨b.heap.countPass q, q :: b.counted⟩
  | countSwept q => ⟨b.heap.countSwept q, b.counted.erase q⟩

end Posting

namespace Books

/-- The books after some postings. -/
def performs (b : Books) : List Posting → Books
  | [] => b
  | e :: es => (e.perform b).performs es

/-- Each of the postings is enabled when its turn comes. -/
def Allows (b : Books) : List Posting → Prop
  | [] => True
  | e :: es => e.Enabled b ∧ (e.perform b).Allows es

instance decidableAllows (b : Books) : (es : List Posting) → Decidable (b.Allows es)
  | [] => isTrue trivial
  | e :: es =>
    have := decidableAllows (e.perform b) es
    inferInstanceAs (Decidable (e.Enabled b ∧ (e.perform b).Allows es))

end Books

theorem Heap.queue?_countPass (w : Heap) (q : QueueId) : (w.countPass q).queue? q = w.queue? q := by
  unfold countPass
  split <;> rfl

/-- Where nothing comes between the two steps, they close the queue. -/
theorem Heap.countSwept_countPass {w : Heap} {p : ReleaseQueue} {q : QueueId}
    (hq : w.queue? q = some p) (hp : p.endsPass = true) :
    (w.countPass q).countSwept q = w.closeQueue q := by
  obtain ⟨id, waiting, after⟩ := p
  cases after with
  | complete g stats =>
    have hpass : w.countPass q =
        w.modifyCollector g fun c => { c with collectionsRun := c.collectionsRun + 1 } := by
      simp [countPass, hq]
    unfold countSwept closeQueue
    rw [queue?_countPass, hq, hpass]
    simp only [modifyCollector, finishPass, List.modify_modify_eq]
    rfl
  | unlock g => cases hp
  | nothing => cases hp

/-- Every legal run is a way to keep the books. -/
theorem Books.allows_of_legal {w : Heap} {as : List Action} (hl : w.Legal as) :
    Books.Allows ⟨w, []⟩ (as.map .action) ∧
      Books.performs ⟨w, []⟩ (as.map .action) = ⟨w.performs as, []⟩ := by
  induction as generalizing w with
  | nil => exact ⟨trivial, rfl⟩
  | cons a as ih =>
    obtain ⟨ha, hp⟩ := ih hl.2
    exact ⟨⟨fun _ _ => List.not_mem_nil, ha⟩, hp⟩

/-! ## Ledgers -/

/-- What happened in a collector: how many objects were registered, how many registrations were
refused, and all its passes, the latest first. -/
structure Ledger where
  registrations : Nat := 0
  refusals : Nat := 0
  passes : List PassStats := []

/-- The passes over `g` that some queues end with. -/
def passesOf (g : CollectorId) (ps : List ReleaseQueue) : List PassStats :=
  ps.filterMap (·.pass? g)

namespace Ledger

def next (b : Books) (g : CollectorId) (l : Ledger) : Posting → Ledger
  | .action a =>
    { registrations := l.registrations + if a.registers b.heap g then 1 else 0
      refusals := l.refusals + if a.refuses b.heap g then 1 else 0
      passes := (a.pass? b.heap g).toList ++ l.passes }
  | _ => l

/-- The ledger of collector `g` after some postings. -/
def along (g : CollectorId) (l : Ledger) (b : Books) : List Posting → Ledger
  | [] => l
  | e :: es => along g (l.next b g e) (e.perform b) es

end Ledger

namespace Books

/-- The passes over `g` whose swept objects are not counted yet. -/
def unfinished (b : Books) (g : CollectorId) : List PassStats := passesOf g b.heap.queues

/-- The passes over `g` that are not counted yet. -/
def uncounted (b : Books) (g : CollectorId) : List PassStats :=
  passesOf g (b.heap.queues.filter (·.id ∉ b.counted))

end Books

section

variable {g : CollectorId} {ps : List ReleaseQueue}

theorem passesOf_cons (g : CollectorId) (p : ReleaseQueue) (ps : List ReleaseQueue) :
    passesOf g (p :: ps) = (p.pass? g).toList ++ passesOf g ps := by
  unfold passesOf
  cases hp : p.pass? g <;> simp [hp]

theorem passesOf_toList (g : CollectorId) (new : Option ReleaseQueue) (ps : List ReleaseQueue) :
    passesOf g (new.toList ++ ps) = (new.bind (·.pass? g)).toList ++ passesOf g ps := by
  cases new with
  | none => rfl
  | some p => exact passesOf_cons g p ps

/-- Passes depend on nothing of their queues but how those end. -/
theorem passesOf_map {f : ReleaseQueue → ReleaseQueue}
    (hf : ∀ p, (f p).afterwards = p.afterwards) (ps : List ReleaseQueue) :
    passesOf g (ps.map f) = passesOf g ps := by
  have hpass : ∀ p, (f p).pass? g = p.pass? g := fun p => by
    unfold ReleaseQueue.pass?
    rw [hf]
  simp only [passesOf, List.filterMap_map, Function.comp_def, hpass]

/-- Queues that end with no pass over `g` do not matter. -/
theorem passesOf_filter {f : ReleaseQueue → Bool}
    (hf : ∀ p ∈ ps, f p = false → p.pass? g = none) : passesOf g (ps.filter f) = passesOf g ps := by
  induction ps with
  | nil => rfl
  | cons p ps ih =>
    have ih := ih fun r hr => hf r (List.mem_cons_of_mem p hr)
    rw [passesOf_cons]
    cases hp : f p with
    | true => rw [List.filter_cons_of_pos hp, passesOf_cons, ih]
    | false =>
      rw [List.filter_cons_of_neg (by simp [hp]), ih, hf p List.mem_cons_self hp]
      rfl

theorem passesOf_perm {p : ReleaseQueue} {ps ps' : List ReleaseQueue} (h : ps.Perm (p :: ps')) :
    (passesOf g ps).Perm ((p.pass? g).toList ++ passesOf g ps') :=
  passesOf_cons g p ps' ▸ h.filterMap _

end

/-! ## Each step of a count -/

namespace Heap

variable {w : Heap} {p : ReleaseQueue} {q : QueueId} {g : CollectorId} {c : Collector}

theorem countPass_frame (w : Heap) (q : QueueId) :
    (w.countPass q).queues = w.queues ∧ (w.countPass q).opened = w.opened ∧
      (w.countPass q).collectors.length = w.collectors.length := by
  unfold countPass
  split <;> simp [modifyCollector]

theorem countSwept_frame (hq : w.queue? q = some p) (hp : p.endsPass = true) :
    (w.countSwept q).queues = w.queues.filter (·.id != q) ∧ (w.countSwept q).opened = w.opened ∧
      (w.countSwept q).collectors.length = w.collectors.length := by
  obtain ⟨id, waiting, after⟩ := p
  unfold countSwept
  rw [hq]
  cases after with
  | complete g stats => simp [modifyCollector, emit]
  | unlock g => cases hp
  | nothing => cases hp

/-- The first step counts the pass that the queue ends with. -/
theorem collector_countPass (hc : w.collectors[g]? = some c) (hq : w.queue? q = some p) :
    (w.countPass q).collectors[g]? =
      some { c with collectionsRun := c.collectionsRun + (p.pass? g).toList.length } := by
  obtain ⟨id, waiting, after⟩ := p
  unfold countPass ReleaseQueue.pass?
  rw [hq]
  cases after with
  | complete g' stats =>
    show (w.collectors.modify g' _)[g]? = _
    rw [List.getElem?_modify, hc]
    by_cases he : g' = g <;> simp [he]
  | unlock g' => exact hc
  | nothing => exact hc

/-- The second step counts what that pass swept. -/
theorem collector_countSwept (hc : w.collectors[g]? = some c) (hq : w.queue? q = some p) :
    (w.countSwept q).collectors[g]? =
      some { c with objectsSwept := c.objectsSwept + sweptBy (p.pass? g).toList } := by
  obtain ⟨id, waiting, after⟩ := p
  unfold countSwept ReleaseQueue.pass?
  rw [hq]
  cases after with
  | complete g' stats =>
    show (w.collectors.modify g' _)[g]? = _
    rw [List.getElem?_modify, hc]
    by_cases he : g' = g <;> simp [he, sweptBy]
  | unlock g' => exact hc
  | nothing => exact hc

end Heap

theorem ReleaseQueue.pass?_eq_none {p : ReleaseQueue} (hp : p.endsPass = false) (g : CollectorId) :
    p.pass? g = none := by
  obtain ⟨id, waiting, after⟩ := p
  cases after with
  | complete g' stats => cases hp
  | unlock g' => rfl
  | nothing => rfl

namespace Books

variable {b : Books} {p : ReleaseQueue} {q : QueueId} {g : CollectorId} {l : Ledger}

/-- What is counted are passes whose queues are open. -/
structure Sound (b : Books) : Prop where
  numbered : b.heap.Numbered
  nodup : b.counted.Nodup
  counted : ∀ q ∈ b.counted, ∃ p ∈ b.heap.queues, p.id = q ∧ p.endsPass = true

theorem Sound.opens {w : Heap} {new : Option ReleaseQueue} (hs : b.Sound)
    (ho : b.heap.Opens w new) : Sound { b with heap := w } := by
  refine ⟨hs.numbered.opens ho, hs.nodup, fun q hq => ?_⟩
  obtain ⟨p, hp, he⟩ := hs.counted q hq
  exact ⟨p, by rw [ho.queues]; exact List.mem_append_right _ hp, he⟩

theorem Sound.releaseNext (hs : b.Sound) (q : QueueId) :
    Sound { b with heap := b.heap.releaseNext q } := by
  obtain ⟨f, hf, hid, hafter⟩ := queues_releaseNext b.heap q
  refine ⟨hs.numbered.releaseNext q, hs.nodup, fun r hr => ?_⟩
  obtain ⟨p, hp, he, hends⟩ := hs.counted r hr
  refine ⟨f p, by rw [hf]; exact List.mem_map_of_mem hp, (hid p).trans he, ?_⟩
  rw [ReleaseQueue.endsPass, hafter]
  exact hends

theorem Sound.closeQueue (hs : b.Sound) (hq : q ∉ b.counted) :
    Sound { b with heap := b.heap.closeQueue q } := by
  refine ⟨hs.numbered.closeQueue q, hs.nodup, fun r hr => ?_⟩
  obtain ⟨p, hp, he⟩ := hs.counted r hr
  have hne : p.id ≠ q := fun h => hq (h ▸ he.1 ▸ hr)
  refine ⟨p, ?_, he⟩
  rw [(queues_closeQueue b.heap q).1]
  exact List.mem_filter.mpr ⟨hp, by simpa using hne⟩

theorem Sound.countPass (hs : b.Sound) (hq : q ∉ b.counted) (hp : p ∈ b.heap.queues)
    (hid : p.id = q) (hends : p.endsPass = true) :
    Sound ⟨b.heap.countPass q, q :: b.counted⟩ := by
  obtain ⟨hqueues, hopened, -⟩ := countPass_frame b.heap q
  refine ⟨hs.numbered.opens (.none hqueues hopened), List.nodup_cons.mpr ⟨hq, hs.nodup⟩, ?_⟩
  intro r hr
  rw [hqueues]
  rcases List.mem_cons.mp hr with rfl | hr
  · exact ⟨p, hp, hid, hends⟩
  · exact hs.counted r hr

theorem Sound.countSwept (hs : b.Sound) (hq : q ∈ b.counted) :
    Sound ⟨b.heap.countSwept q, b.counted.erase q⟩ := by
  obtain ⟨p, hp, rfl, hends⟩ := hs.counted q hq
  obtain ⟨hqueues, hopened, -⟩ := countSwept_frame (hs.numbered.queue?_eq hp) hends
  obtain ⟨hclose, hclosed⟩ := queues_closeQueue b.heap p.id
  refine ⟨?_, hs.nodup.erase _, fun r hr => ?_⟩
  · exact (hs.numbered.closeQueue p.id).opens
      (.none (hqueues.trans hclose.symm) (hopened.trans hclosed.symm))
  · obtain ⟨hne, hr⟩ := (hs.nodup.mem_erase_iff).mp hr
    obtain ⟨t, ht, rfl, he⟩ := hs.counted r hr
    refine ⟨t, ?_, rfl, he⟩
    rw [hqueues]
    exact List.mem_filter.mpr ⟨ht, by simpa using hne⟩

/-- The counters of collector `g` and its registry agree with its ledger. -/
structure Agree (b : Books) (g : CollectorId) (l : Ledger) : Prop where
  lt_length : g < b.heap.collectors.length
  size : (b.heap.collector g).registry.size + sweptBy l.passes = l.registrations
  run : (b.heap.collector g).collectionsRun + (b.uncounted g).length = l.passes.length
  swept : (b.heap.collector g).objectsSwept + sweptBy (b.unfinished g) = sweptBy l.passes

theorem Agree.countPass (hs : b.Sound) (ha : b.Agree g l) (hq : q ∉ b.counted)
    (hp : p ∈ b.heap.queues) (hid : p.id = q) :
    Agree ⟨b.heap.countPass q, q :: b.counted⟩ g l := by
  obtain ⟨hg, hsize, hrun, hswept⟩ := ha
  obtain ⟨hqueues, -, hlength⟩ := countPass_frame b.heap q
  have hc := List.getElem?_eq_getElem hg
  have hcol := collector_countPass hc (hid ▸ hs.numbered.queue?_eq hp)
  -- the pass leaves the list of those that are not counted
  have hperm : (b.heap.queues.filter (·.id ∉ b.counted)).Perm
      (p :: b.heap.queues.filter (·.id ∉ q :: b.counted)) := by
    have := (hs.numbered.perm_filter hp).filter (·.id ∉ b.counted)
    rw [List.filter_cons_of_pos (by simpa [hid] using hq), List.filter_filter, hid] at this
    refine this.trans (List.Perm.cons p (List.Perm.of_eq (List.filter_congr fun r _ => ?_)))
    rw [Bool.eq_iff_iff]
    simp [and_comm]
  have hlist := (passesOf_perm (g := g) hperm).length_eq
  rw [List.length_append] at hlist
  rw [collector_eq hc] at hsize hrun hswept
  refine ⟨by rwa [hlength], ?_, ?_, ?_⟩ <;> rw [collector_eq hcol]
  · exact hsize
  · rw [← hrun, uncounted, uncounted, hqueues, hlist, Nat.add_assoc]
  · rw [unfinished, hqueues]; exact hswept

theorem Agree.countSwept (hs : b.Sound) (ha : b.Agree g l) (hq : q ∈ b.counted) :
    Agree ⟨b.heap.countSwept q, b.counted.erase q⟩ g l := by
  obtain ⟨p, hp, rfl, hends⟩ := hs.counted q hq
  obtain ⟨hg, hsize, hrun, hswept⟩ := ha
  have hqueue := hs.numbered.queue?_eq hp
  obtain ⟨hqueues, -, hlength⟩ := countSwept_frame hqueue hends
  have hc := List.getElem?_eq_getElem hg
  have hcol := collector_countSwept hc hqueue
  have hlist := sweptBy_perm (passesOf_perm (g := g) (hs.numbered.perm_filter hp))
  rw [sweptBy_append] at hlist
  -- its queue was left out of the list already
  have hsame : (b.heap.queues.filter (·.id != p.id)).filter (·.id ∉ b.counted.erase p.id) =
      b.heap.queues.filter (·.id ∉ b.counted) := by
    rw [List.filter_filter]
    refine List.filter_congr fun r _ => ?_
    by_cases he : r.id = p.id
    · simp [he, hq]
    · simp [he, List.mem_erase_of_ne he]
  rw [collector_eq hc] at hsize hrun hswept
  refine ⟨by rwa [hlength], ?_, ?_, ?_⟩ <;> rw [collector_eq hcol]
  · exact hsize
  · rw [← hrun, uncounted, uncounted, hqueues, hsame]
  · rw [← hswept, unfinished, unfinished, hqueues, hlist, Nat.add_assoc]

/-- Where the registry and the counters stay as they are, only the lists of passes matter. -/
theorem Agree.of_lists {w : Heap} (ha : b.Agree g l)
    (hlength : b.heap.collectors.length ≤ w.collectors.length)
    (hregistry : (w.collector g).registry = (b.heap.collector g).registry)
    (hcounters : (w.collector g).counters = (b.heap.collector g).counters)
    (hunfinished : unfinished { b with heap := w } g = b.unfinished g)
    (huncounted : uncounted { b with heap := w } g = b.uncounted g) :
    Agree { b with heap := w } g l := by
  obtain ⟨hg, hsize, hrun, hswept⟩ := ha
  obtain ⟨hcount, hcountSwept⟩ := Prod.mk.inj hcounters
  refine ⟨Nat.lt_of_lt_of_le hg hlength, ?_, ?_, ?_⟩
  · rw [hregistry]; exact hsize
  · rw [hcount, huncounted]; exact hrun
  · rw [hcountSwept, hunfinished]; exact hswept

/-- To close the queue of a pass is to take both steps at once. -/
theorem Agree.closeQueue (hs : b.Sound) (ha : b.Agree g l) (hq : q ∉ b.counted) :
    Agree { b with heap := b.heap.closeQueue q } g l := by
  by_cases hpass : ∃ p ∈ b.heap.queues, p.id = q ∧ p.endsPass = true
  · obtain ⟨p, hp, rfl, hends⟩ := hpass
    have hboth := Agree.countSwept (hs.countPass hq hp rfl hends) (ha.countPass hs hq hp rfl)
      List.mem_cons_self
    rw [countSwept_countPass (hs.numbered.queue?_eq hp) hends, List.erase_cons_head] at hboth
    exact hboth
  · have hends : ∀ p ∈ b.heap.queues, p.id = q → p.endsPass = false := fun p hp hid => by
      simpa using fun he => hpass ⟨p, hp, hid, he⟩
    have hnone : ∀ p ∈ b.heap.queues, (p.id != q) = false → p.pass? g = none := fun p hp hid =>
      ReleaseQueue.pass?_eq_none (hends p hp (by simpa using hid)) g
    obtain ⟨hqueues, -⟩ := queues_closeQueue b.heap q
    have hcounters := counters_closeQueue (q := q) fun _ => ha.lt_length
    have hpass : (b.heap.queue? q).bind (·.pass? g) = none := by
      cases hq : b.heap.queue? q with
      | none => rfl
      | some p => exact hnone p (List.mem_of_find?_eq_some hq) (by simpa using List.find?_some hq)
    rw [hpass] at hcounters
    refine ha.of_lists (length_perform_le b.heap (.close q)) (registry_closeQueue _ q g)
      hcounters ?_ ?_
    · rw [unfinished, hqueues]
      exact passesOf_filter hnone
    · rw [uncounted, hqueues, List.filter_comm]
      exact passesOf_filter fun p hp => hnone p (List.mem_of_mem_filter hp)

theorem Agree.releaseNext (ha : b.Agree g l) (q : QueueId) :
    Agree { b with heap := b.heap.releaseNext q } g l := by
  obtain ⟨f, hf, hid, hafter⟩ := queues_releaseNext b.heap q
  refine ha.of_lists (Nat.le_refl _) rfl rfl ?_ ?_
  · rw [unfinished, hf]
    exact passesOf_map hafter _
  · simp only [uncounted, hf, List.filter_map, passesOf_map hafter, Function.comp_def, hid]

end Books

/-! ## Each action -/

namespace Heap

variable {w : Heap} {a : Action} {g : CollectorId}

theorem size_runPass (hg : g < w.collectors.length) :
    ((w.runPass g).2.collector g).registry.size + (w.runPass g).1.1.swept =
      (w.collector g).registry.size := by
  have hc := List.getElem?_eq_getElem hg
  obtain ⟨hex, hre, -, hsum⟩ := stats_runPass hc
  rw [collector_eq hc]
  omega

theorem size_duePass (hg : g < w.collectors.length) :
    ((w.duePass g).2.collector g).registry.size +
      sweptBy ((w.duePass g).1.map (·.1)).toList = (w.collector g).registry.size := by
  by_cases hd : w.PassDue g
  · rw [duePass_of_due hd]
    exact size_runPass (w := w.emit _) hg
  · rw [duePass_of_not_due hd]
    rfl

theorem size_beginCleanup (hg : g < w.collectors.length) :
    ((w.beginCleanup g).2.collector g).registry.size +
      sweptBy ((w.beginCleanup g).1.map (·.1)).toList = (w.collector g).registry.size := by
  have hc := List.getElem?_eq_getElem hg
  by_cases hs : w.collectors[g].state = .stopped
  · rw [beginCleanup_of_stopped hc hs]
    rfl
  · have hpass := size_runPass hg
    rw [beginCleanup_of_ne hc hs]
    generalize w.runPass g = pass at hpass ⊢
    exact hpass

theorem size_register (hg : g < w.collectors.length) (x : Holder) :
    ((w.register g x).2.collector g).registry.size +
      sweptBy ((w.duePass g).1.map (·.1)).toList =
      (w.collector g).registry.size + if (w.register g x).1.isAccepted then 1 else 0 := by
  obtain ⟨hacc, hcol⟩ := collector_register hg x
  have hins := ((w.duePass g).2.collector g).registry.size_insert x
  have hdue := size_duePass hg
  have hsize : ((w.register g x).2.collector g).registry.size =
      (((w.duePass g).2.collector g).registry.insert x).2.size := by
    rw [hcol]
    split <;> rfl
  rw [hsize, hins, hacc]
  cases ((w.duePass g).2.collector g).registry.contains x.handle <;> simp <;> omega

/-- An action makes the registry of `g` smaller by what it sweeps, and larger by what it registers. -/
theorem size_perform (hg : g < w.collectors.length) (ha : a ≠ .retire g) :
    ((a.perform w).collector g).registry.size + sweptBy (a.pass? w g).toList =
      (w.collector g).registry.size + if a.registers w g then 1 else 0 := by
  by_cases hr : a.Restructures g
  · cases a with
    | register g' x =>
      obtain rfl : g' = g := hr
      simpa [Action.perform, Action.pass?, Action.registers] using size_register hg x
    | cleanup g' =>
      obtain rfl : g' = g := hr
      simpa [Action.perform, Action.pass?, Action.registers] using size_beginCleanup hg
    | retire g' => exact absurd (congrArg Action.retire hr) ha
    | _ => exact hr.elim
  · obtain ⟨hpass, hregisters⟩ := Action.idle_of_not_restructures hr w
    rw [registry_perform hr, hpass, hregisters]
    rfl

end Heap

namespace Books

variable {b : Books} {a : Action} {e : Posting} {es : List Posting} {g : CollectorId} {l : Ledger}

/-- A new queue has a new number, so its pass is not counted. -/
theorem uncounted_opens {w : Heap} {new : Option ReleaseQueue} (hs : b.Sound)
    (ho : b.heap.Opens w new) :
    uncounted { b with heap := w } g = (new.bind (·.pass? g)).toList ++ b.uncounted g := by
  have hnew : new.toList.filter (·.id ∉ b.counted) = new.toList := by
    refine List.filter_eq_self.mpr fun p hp => ?_
    have hid : p.id = b.heap.opened := ho.id_eq p (by simpa using hp)
    rw [decide_eq_true_iff, hid]
    intro hm
    obtain ⟨r, hr, he, -⟩ := hs.counted _ hm
    exact absurd he (Nat.ne_of_lt (hs.numbered.lt_opened r hr))
  rw [uncounted, ho.queues, List.filter_append, hnew, passesOf_toList]
  rfl

/-- A queue is opened or none, with the pass that was run, and the registry of `g` gets smaller by what
that swept and larger by what was registered. -/
theorem Agree.opens {w : Heap} {new : Option ReleaseQueue} {pass : Option PassStats} {n m : Nat}
    (hs : b.Sound) (ha : b.Agree g l) (hnew : b.heap.Opens w new) (hpass : new.bind (·.pass? g) = pass)
    (hlength : b.heap.collectors.length ≤ w.collectors.length)
    (hcounters : (w.collector g).counters = (b.heap.collector g).counters)
    (hsize : (w.collector g).registry.size + sweptBy pass.toList =
      (b.heap.collector g).registry.size + n) :
    Agree { b with heap := w } g ⟨l.registrations + n, m, pass.toList ++ l.passes⟩ := by
  obtain ⟨hcount, hcountSwept⟩ := Prod.mk.inj hcounters
  have huncounted := uncounted_opens (g := g) hs hnew
  have hunfinished : unfinished { b with heap := w } g = pass.toList ++ b.unfinished g := by
    rw [unfinished, hnew.queues, passesOf_toList, hpass]
    rfl
  rw [hpass] at huncounted
  refine ⟨Nat.lt_of_lt_of_le ha.lt_length hlength, ?_, ?_, ?_⟩
  · have := ha.size
    simp only [sweptBy_append]
    omega
  · have := ha.run
    simp only [huncounted, List.length_append]
    omega
  · have := ha.swept
    simp only [hunfinished, sweptBy_append]
    omega

/-- An action that opens a queue or none. -/
theorem Agree.action (hs : b.Sound) (ha : b.Agree g l) (hr : ∀ q, a ≠ .release q)
    (hc : ∀ q, a ≠ .close q) (hg : a ≠ .retire g) (hrefuses : a.refuses b.heap g = false) :
    Agree { b with heap := a.perform b.heap } g (l.next b g (.action a)) := by
  obtain ⟨new, hnew, hpass, -⟩ := opens_perform (w := b.heap) hr hc
  have hpass : new.bind (·.pass? g) = a.pass? b.heap g := by rw [hpass, hrefuses]; rfl
  exact ha.opens hs hnew hpass (length_perform_le b.heap a) (counters_perform hc g)
    (size_perform ha.lt_length hg)

/-! ## Postings -/

theorem Sound.perform (hs : b.Sound) (he : e.Enabled b) : (e.perform b).Sound := by
  cases e with
  | action a =>
    obtain ⟨q, rfl⟩ | ⟨q, rfl⟩ | ⟨hr, hc⟩ := a.release_or_close
    · exact hs.releaseNext q
    · exact hs.closeQueue (he q rfl)
    · obtain ⟨new, hnew, -⟩ := opens_perform (w := b.heap) hr hc
      exact hs.opens hnew
  | countPass q =>
    obtain ⟨hq, p, hp, hid, hends⟩ := he
    exact hs.countPass hq hp hid hends
  | countSwept q => exact hs.countSwept he

/-- What one posting does to a collector that it does not give up, if it is no refused registration. -/
theorem Agree.perform (hs : b.Sound) (ha : b.Agree g l) (he : e.Enabled b)
    (hg : e ≠ .action (.retire g)) (hr : (l.next b g e).refusals = l.refusals) :
    (e.perform b).Agree g (l.next b g e) := by
  cases e with
  | action a =>
    obtain ⟨q, rfl⟩ | ⟨q, rfl⟩ | ⟨hrelease, hclose⟩ := a.release_or_close
    · exact ha.releaseNext q
    · exact ha.closeQueue hs (he q rfl)
    · refine ha.action hs hrelease hclose (fun h => hg (congrArg _ h)) ?_
      simpa [Ledger.next] using hr
  | countPass q =>
    obtain ⟨hq, p, hp, hid, -⟩ := he
    exact ha.countPass hs hq hp hid
  | countSwept q => exact ha.countSwept hs he

theorem Ledger.refusals_le_along (g : CollectorId) (l : Ledger) (b : Books) (es : List Posting) :
    l.refusals ≤ (Ledger.along g l b es).refusals := by
  induction es generalizing l b with
  | nil => exact Nat.le_refl _
  | cons e es ih =>
    refine Nat.le_trans ?_ (ih (l.next b g e) (e.perform b))
    cases e <;> simp [Ledger.next]

/-- What each posting keeps that is as `P` says and no refused registration, all of them keep. -/
theorem Sound.invariant {I : Books → Ledger → Prop} {P : Posting → Prop}
    (step : ∀ {b : Books} {l : Ledger} {e : Posting}, b.Sound → I b l → e.Enabled b → P e →
      (l.next b g e).refusals = l.refusals → I (e.perform b) (l.next b g e))
    (hs : b.Sound) (hi : I b l) (hallows : b.Allows es) (hP : ∀ e ∈ es, P e)
    (hr : (Ledger.along g l b es).refusals = l.refusals) :
    I (b.performs es) (Ledger.along g l b es) := by
  induction es generalizing b l with
  | nil => exact hi
  | cons e es ih =>
    rw [List.forall_mem_cons] at hP
    -- refusals are never taken back, so none of the postings is one
    have hle : l.refusals ≤ (l.next b g e).refusals := Ledger.refusals_le_along g l b [e]
    have hle' := Ledger.refusals_le_along g (l.next b g e) (e.perform b) es
    have hnext : (l.next b g e).refusals = l.refusals := by
      have : (Ledger.along g (l.next b g e) (e.perform b) es).refusals = l.refusals := hr
      omega
    exact ih (hs.perform hallows.1) (step hs hi hallows.1 hP.1 hnext) hallows.2 hP.2
      (hr.trans hnext.symm)

theorem Agree.performs (hs : b.Sound) (ha : b.Agree g l) (hallows : b.Allows es)
    (hg : .action (.retire g) ∉ es) (hr : (Ledger.along g l b es).refusals = l.refusals) :
    (b.performs es).Agree g (Ledger.along g l b es) :=
  hs.invariant (I := fun b l => b.Agree g l) (P := (· ≠ .action (.retire g)))
    (fun hs ha he hg hr => ha.perform hs he hg hr) ha hallows (fun _ he heq => hg (heq ▸ he)) hr

/-! ## Collectors that are not there yet -/

/-- No open pass over a collector that is not there swept anything. -/
def Founded (b : Books) : Prop :=
  ∀ g, b.heap.collectors.length ≤ g → sweptBy (b.unfinished g) = 0

theorem swept_eq_zero {w : Heap} {stats : PassStats} (hg : w.collectors.length ≤ g)
    (hp : a.pass? w g = some stats) : stats.swept = 0 := by
  have hcol : w.collector g = .withStep Collector.defaultStep := by
    rw [collector, List.getElem?_eq_none_iff.mpr hg]
    rfl
  have hswept : (w.runPass g).1.1.swept = 0 := by
    have hsum := Registry.length_retain_add_size ((w.beginPass g).collector g).registry
      ((w.beginPass g).markFrom ((w.beginPass g).collector g).registry).marked
    have hempty : ((w.beginPass g).collector g).registry.size = 0 := by
      rw [registry_beginPass, hcol]
      rfl
    rw [hempty] at hsum
    exact Nat.eq_zero_of_add_eq_zero_right hsum
  cases a with
  | cleanup g' =>
    obtain ⟨rfl, hpass⟩ : g' = g ∧ (w.beginCleanup g).1.map (·.1) = some stats := by
      simpa [Action.pass?] using hp
    rw [beginCleanup, hcol, if_neg (by decide)] at hpass
    obtain rfl := Option.some.inj hpass
    exact hswept
  | register g' x =>
    obtain ⟨rfl, hpass⟩ : g' = g ∧ (w.duePass g).1.map (·.1) = some stats := by
      simpa [Action.pass?] using hp
    rw [duePass_of_not_due (by rw [PassDue, hcol]; decide)] at hpass
    cases hpass
  | _ => cases hp

theorem sweptBy_le_of_sublist {l l' : List PassStats} (h : l.Sublist l') :
    sweptBy l ≤ sweptBy l' := by
  induction h with
  | slnil => exact Nat.le_refl _
  | cons stats _ ih => exact Nat.le_trans ih (Nat.le_add_left _ stats.swept)
  | cons_cons stats _ ih => exact Nat.add_le_add_left ih stats.swept

theorem length_perform_le (b : Books) (e : Posting) :
    b.heap.collectors.length ≤ (e.perform b).heap.collectors.length := by
  cases e with
  | action a => exact Heap.length_perform_le b.heap a
  | countPass q => exact Nat.le_of_eq (countPass_frame b.heap q).2.2.symm
  | countSwept q =>
    simp only [Posting.perform, countSwept]
    split <;> simp [modifyCollector, emit]

/-- After a posting no passes are open but those that were, and the one that it ran. -/
theorem unfinished_perform (hs : b.Sound) (he : e.Enabled b) (g : CollectorId) :
    ((e.perform b).unfinished g).Sublist ((Ledger.next b g {} e).passes ++ b.unfinished g) := by
  cases e with
  | action a =>
    obtain ⟨q, rfl⟩ | ⟨q, rfl⟩ | ⟨hr, hc⟩ := a.release_or_close
    · obtain ⟨f, hqueues, -, hafter⟩ := queues_releaseNext b.heap q
      show (passesOf g (b.heap.releaseNext q).queues).Sublist (b.unfinished g)
      rw [hqueues, passesOf_map hafter]
      exact List.Sublist.refl _
    · show (passesOf g (b.heap.closeQueue q).queues).Sublist (b.unfinished g)
      rw [(queues_closeQueue b.heap q).1]
      exact List.filter_sublist.filterMap _
    · obtain ⟨new, hnew, hpass, -⟩ := opens_perform (w := b.heap) hr hc
      show (passesOf g (a.perform b.heap).queues).Sublist
        ((a.pass? b.heap g).toList ++ [] ++ b.unfinished g)
      rw [hnew.queues, passesOf_toList, hpass, List.append_nil]
      refine List.Sublist.append_right ?_ _
      split
      · exact List.nil_sublist _
      · exact List.Sublist.refl _
  | countPass q =>
    show (passesOf g (b.heap.countPass q).queues).Sublist (b.unfinished g)
    rw [(countPass_frame b.heap q).1]
    exact List.Sublist.refl _
  | countSwept q =>
    obtain ⟨p, hp, rfl, hends⟩ := hs.counted q he
    show (passesOf g (b.heap.countSwept p.id).queues).Sublist (b.unfinished g)
    rw [(countSwept_frame (hs.numbered.queue?_eq hp) hends).1]
    exact List.filter_sublist.filterMap _

/-- Where nobody takes the lock of `g`, no pass over it is opened. -/
theorem unfinished_performs (hs : b.Sound) (hu : b.unfinished g = []) (ha : b.Allows es)
    (hl : ∀ a, .action a ∈ es → a.lock? ≠ some g) : (b.performs es).unfinished g = [] := by
  induction es generalizing b with
  | nil => exact hu
  | cons e es ih =>
    refine ih (hs.perform ha.1) ?_ ha.2 fun a hm => hl a (List.mem_cons_of_mem e hm)
    have hnone : (Ledger.next b g {} e).passes = [] := by
      cases e with
      | action a => simp [Ledger.next, Action.pass?_of_lock? b.heap (hl a List.mem_cons_self)]
      | countPass q | countSwept q => rfl
    have hsub := unfinished_perform hs ha.1 g
    rw [hnone, hu] at hsub
    exact List.sublist_nil.mp hsub

theorem Founded.perform (hs : b.Sound) (hf : b.Founded) (he : e.Enabled b) :
    (e.perform b).Founded := by
  intro g hg
  have hlength : b.heap.collectors.length ≤ g := Nat.le_trans (length_perform_le b e) hg
  have hle := sweptBy_le_of_sublist (unfinished_perform hs he g)
  rw [sweptBy_append, hf g hlength] at hle
  refine Nat.le_zero.mp (Nat.le_trans hle (Nat.le_of_eq ?_))
  cases e with
  | action a =>
    cases hp : a.pass? b.heap g with
    | none => simp [Ledger.next, hp, sweptBy]
    | some stats => simp [Ledger.next, hp, sweptBy, swept_eq_zero hlength hp]
  | countPass q | countSwept q => rfl

theorem uncounted_sublist (b : Books) (g : CollectorId) :
    (b.uncounted g).Sublist (b.unfinished g) := List.filter_sublist.filterMap _

/-- The ledger of a collector that is just made. Its number may be the number of passes that are
still open, and those will be counted in it. -/
def opening (b : Books) (g : CollectorId) : Ledger := { passes := b.uncounted g }

theorem agree_opening (hf : b.Founded) (step : Nat) :
    Agree (Posting.perform b (.action (.addCollector step))) b.heap.collectors.length
      (opening (Posting.perform b (.action (.addCollector step))) b.heap.collectors.length) := by
  have hcol : (Posting.perform b (.action (.addCollector step))).heap.collector
      b.heap.collectors.length = .withStep step := by
    simp [Posting.perform, Action.perform, addCollector, collector]
  have hswept : sweptBy (b.unfinished b.heap.collectors.length) = 0 := hf _ (Nat.le_refl _)
  have huncounted : sweptBy (b.uncounted b.heap.collectors.length) = 0 :=
    Nat.le_zero.mp (hswept ▸ sweptBy_le_of_sublist (uncounted_sublist b _))
  refine ⟨by simp [Posting.perform, Action.perform, addCollector], ?_, ?_, ?_⟩ <;> rw [hcol]
  · exact (Nat.zero_add _).trans huncounted
  · exact Nat.zero_add _
  · exact ((Nat.zero_add _).trans hswept).trans huncounted.symm

theorem performs_append (b : Books) (es es' : List Posting) :
    b.performs (es ++ es') = (b.performs es).performs es' := by
  induction es generalizing b with
  | nil => rfl
  | cons e es ih => exact ih (e.perform b)

theorem allows_append (b : Books) (es es' : List Posting) :
    b.Allows (es ++ es') ↔ b.Allows es ∧ (b.performs es).Allows es' := by
  induction es generalizing b with
  | nil => simp [Allows, performs]
  | cons e es ih => simp [Allows, performs, ih, and_assoc]

theorem Sound.performs (hs : b.Sound) (hf : b.Founded) (ha : b.Allows es) :
    (b.performs es).Sound ∧ (b.performs es).Founded := by
  induction es generalizing b with
  | nil => exact ⟨hs, hf⟩
  | cons e es ih => exact ih (hs.perform ha.1) (hf.perform hs ha.1) ha.2

theorem sound_initial (n : Nat) : Sound ⟨initial n, []⟩ :=
  ⟨numbered_initial n, List.nodup_nil, by simp⟩

theorem founded_initial (n : Nat) : Founded ⟨initial n, []⟩ := fun _ _ => rfl

end Books

end SharedHeap
