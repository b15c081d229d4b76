import SharedHeap.Proofs.Marking
import SharedHeap.Registry

/-! # The loop of a marking

A marking runs as long as something is gray. In each turn it looks up the slot of the handle on top of
the stack, so it would have to pass over a handle that has none; there never is one. What holds before
each turn makes the loop end, after no more turns than there are registered handles, and `mark`, which
counts its scans beforehand, is what it ends with. -/

namespace SharedHeap.Marker

variable {r : Registry} {links : Handle → List Handle} {roots : List Handle} {m m' : Marker} {n : Nat}

/-! ## The marking of a registry -/

theorem mem_handles_of_contains (h : Handle) (hh : r.contains h = true) : h ∈ r.handles :=
  (r.mem_handles h).mpr hh

theorem length_unscanned_le (r : Registry) (m : Marker) :
    (unscanned r.handles m).length ≤ r.size := by
  rw [← r.length_handles]
  exact List.length_filter_le ..

theorem stack_mark (r : Registry) (links : Handle → List Handle) (roots : List Handle) :
    (mark r.contains r.size links roots).stack = [] :=
  stack_scans (.start roots) mem_handles_of_contains (length_unscanned_le r _)

theorem color_mark_ne_gray (r : Registry) (links : Handle → List Handle) (roots : List Handle)
    (h : Handle) : (mark r.contains r.size links roots).color h ≠ .gray :=
  ((Consistent.start roots).scans r.size).color_ne_gray (stack_mark r links roots) h

theorem marked_mark_iff (r : Registry) (links : Handle → List Handle) (roots : List Handle)
    (h : Handle) :
    (mark r.contains r.size links roots).marked h = true ↔
      Reached r.contains (· ∈ roots) (fun a b => b ∈ links a) h :=
  marked_mark mem_handles_of_contains (Nat.le_of_eq r.length_handles) h

theorem markedCount_mark (r : Registry) (links : Handle → List Handle) (roots : List Handle) :
    (mark r.contains r.size links roots).markedCount =
      (r.handles.filter (mark r.contains r.size links roots).marked).length :=
  markedCount_eq ((Consistent.start roots).scans r.size) mem_handles_of_contains r.nodup_handles

/-- The order in which roots and links are met makes no difference to what is marked. -/
theorem marked_mark_congr (r : Registry) {links links' : Handle → List Handle}
    {roots roots' : List Handle} (hroots : ∀ h, h ∈ roots' ↔ h ∈ roots)
    (hlinks : ∀ a b, b ∈ links' a ↔ b ∈ links a) :
    (mark r.contains r.size links' roots').marked = (mark r.contains r.size links roots).marked := by
  funext h
  rw [Bool.eq_iff_iff, marked_mark_iff, marked_mark_iff]
  simp only [hroots, hlinks]

/-! ## One turn -/

/-- One turn of the loop, if something is gray. The handle on top of the stack becomes black before its
links are shaded, and is passed over if it has no slot. -/
def turn? (r : Registry) (links : Handle → List Handle) (m : Marker) : Option Marker :=
  match m.stack with
  | [] => none
  | h :: rest =>
    let m := { m with colors := m.colors.insert h .black, stack := rest }
    match r.slot? h with
    | some x => some ((links x.handle).foldl (shade r.contains) m)
    | none => some m

/-- The loop gets from one marking to another in so many turns. -/
inductive Loop (r : Registry) (links : Handle → List Handle) : Marker → Nat → Marker → Prop where
  | rest (m : Marker) : Loop r links m 0 m
  | turn {m m₁ m' : Marker} {n : Nat} : m.turn? r links = some m₁ → Loop r links m₁ n m' →
      Loop r links m (n + 1) m'

/-- What holds before each turn: the stack agrees with the colours, and the coloured handles are those
that the roots reach by the links of the black ones. -/
structure Tricolor (r : Registry) (links : Handle → List Handle) (roots : List Handle)
    (m : Marker) : Prop extends Consistent r.contains m where
  follows : Follows r.contains (· ∈ roots) (fun a b => m.color a = .black ∧ b ∈ links a) m

theorem Tricolor.start (r : Registry) (links : Handle → List Handle) (roots : List Handle) :
    Tricolor r links roots (start r.contains roots) :=
  ⟨.start roots, .start_links roots⟩

theorem Tricolor.scan (hm : Tricolor r links roots m) :
    Tricolor r links roots (m.scan r.contains links) :=
  ⟨hm.toConsistent.scan, hm.follows.scan_links hm.toConsistent⟩

theorem turn?_eq_none_iff : m.turn? r links = none ↔ m.stack = [] := by
  unfold turn?
  split
  · simp [*]
  · split <;> simp [*]

/-- A handle on the stack has a slot. -/
theorem Consistent.isSome_slot? (hm : Consistent r.contains m) {h : Handle} (hh : h ∈ m.stack) :
    (r.slot? h).isSome = true := by
  rw [Registry.isSome_slot?]
  exact hm.registered_of_ne h (by rw [(hm.mem_stack h).mp hh]; decide)

/-- A turn is a scan, since the handle on top of the stack has a slot. -/
theorem Consistent.turn?_eq (hm : Consistent r.contains m) (hs : m.stack ≠ []) :
    m.turn? r links = some (m.scan r.contains links) := by
  obtain ⟨h, rest, hs⟩ := List.exists_cons_of_ne_nil hs
  obtain ⟨x, hx⟩ := Option.isSome_iff_exists.mp (hm.isSome_slot? (h := h) (by simp [hs]))
  obtain rfl := Registry.handle_of_slot? hx
  simp only [turn?, Marker.scan, hs, hx]

theorem Consistent.turn?_eq_some (hm : Consistent r.contains m) (ht : m.turn? r links = some m') :
    m.stack ≠ [] ∧ m' = m.scan r.contains links := by
  have hs : m.stack ≠ [] := fun hs => by simp [turn?_eq_none_iff.mpr hs] at ht
  rw [hm.turn?_eq hs] at ht
  exact ⟨hs, (Option.some.inj ht).symm⟩

theorem Tricolor.turn (hm : Tricolor r links roots m) (ht : m.turn? r links = some m') :
    Tricolor r links roots m' := by
  obtain ⟨-, rfl⟩ := hm.toConsistent.turn?_eq_some ht
  exact hm.scan

/-- Each turn leaves fewer registered handles that are not black. -/
theorem Consistent.length_unscanned_turn_lt (hm : Consistent r.contains m)
    (ht : m.turn? r links = some m') :
    (unscanned r.handles m').length < (unscanned r.handles m).length := by
  obtain ⟨hs, rfl⟩ := hm.turn?_eq_some ht
  exact length_unscanned_scan_lt links hm mem_handles_of_contains hs

/-! ## Many turns -/

theorem Tricolor.loop (hm : Tricolor r links roots m) (hl : Loop r links m n m') :
    Tricolor r links roots m' := by
  induction hl with
  | rest => exact hm
  | turn ht _ ih => exact ih (hm.turn ht)

theorem Consistent.add_length_unscanned_le (hm : Consistent r.contains m)
    (hl : Loop r links m n m') :
    n + (unscanned r.handles m').length ≤ (unscanned r.handles m).length := by
  induction hl with
  | rest => omega
  | turn ht _ ih =>
    have hlt := hm.length_unscanned_turn_lt ht
    obtain ⟨-, rfl⟩ := hm.turn?_eq_some ht
    have := ih hm.scan
    omega

/-- Scans are turns, until nothing is gray. -/
theorem Consistent.exists_loop_scans (links : Handle → List Handle) (hm : Consistent r.contains m)
    (k : Nat) : ∃ n, Loop r links m n (m.scans r.contains links k) := by
  induction k generalizing m with
  | zero => exact ⟨0, .rest m⟩
  | succ k ih =>
    by_cases hs : m.stack = []
    · exact ⟨0, by rw [scans_nil hs]; exact .rest m⟩
    · obtain ⟨n, hl⟩ := ih hm.scan
      exact ⟨n + 1, .turn (hm.turn?_eq hs) hl⟩

/-! ## The whole loop -/

/-- **The loop of a marking.** For every registry, all links and all roots. Before each turn, and after
the last one: the stack has no duplicates and holds exactly the gray handles; a handle that has a colour
is registered and reached from a root; no registered link of a black handle is white; each handle that
waits has a slot, so none is passed over; a turn leaves fewer registered handles that are not black;
and there were at most as many turns as there are registered handles. The loop does end, with what
`mark` computes. Then nothing is gray, and which handles are marked, and how many, is the same for
roots and links in any other order. -/
theorem loop_ends_with_mark (r : Registry) (links : Handle → List Handle) (roots : List Handle) :
    let first := start r.contains roots
    let last := mark r.contains r.size links roots
    (∀ n m, Loop r links first n m →
      m.stack.Nodup ∧ (∀ h, h ∈ m.stack ↔ m.color h = .gray) ∧
      (∀ h, m.color h ≠ .white →
        r.contains h = true ∧ Reached r.contains (· ∈ roots) (fun a b => b ∈ links a) h) ∧
      (∀ a b, m.color a = .black → b ∈ links a → r.contains b = true → m.color b ≠ .white) ∧
      (∀ h ∈ m.stack, (r.slot? h).isSome = true) ∧
      (∀ m', m.turn? r links = some m' →
        (unscanned r.handles m').length < (unscanned r.handles m).length) ∧
      n ≤ r.size) ∧
    (∃ n, Loop r links first n last ∧ last.turn? r links = none) ∧
    (∀ h, last.color h ≠ .gray) ∧
    ∀ links' roots', (∀ h, h ∈ roots' ↔ h ∈ roots) → (∀ a b, b ∈ links' a ↔ b ∈ links a) →
      (∀ h, (mark r.contains r.size links' roots').marked h = last.marked h) ∧
        (mark r.contains r.size links' roots').markedCount = last.markedCount := by
  intro first last
  refine ⟨fun n m hl => ?_, ?_, color_mark_ne_gray r links roots, fun links' roots' hroots hlinks => ?_⟩
  · have hfirst : Tricolor r links roots first := .start r links roots
    have hm := hfirst.loop hl
    have hn := hfirst.add_length_unscanned_le hl
    have hsize := length_unscanned_le r first
    exact ⟨hm.nodup, hm.mem_stack,
      fun h hh => ⟨hm.registered_of_ne h hh, (hm.follows.sound h hh).mono fun _ _ _ he => he.2⟩,
      fun a b ha hb => hm.follows.closed a b ⟨ha, hb⟩, fun h hh => hm.isSome_slot? hh,
      fun m' ht => hm.length_unscanned_turn_lt ht, by omega⟩
  · have hfirst : Consistent r.contains first := .start roots
    obtain ⟨n, hl⟩ := hfirst.exists_loop_scans links r.size
    exact ⟨n, hl, turn?_eq_none_iff.mpr (stack_mark r links roots)⟩
  · have hmarked := marked_mark_congr r hroots hlinks
    refine ⟨congrFun hmarked, ?_⟩
    rw [markedCount_mark, markedCount_mark, hmarked]

/-- Two rings: the first object of one is the root, links to itself as well and to a handle that is not
registered; nothing reaches the other ring. After one turn the root is black and its neighbour waits.
Roots named once and links in reverse order mark the same two objects. -/
theorem loop_ends_with_mark_of_rings :
    let slots : List Holder :=
      [⟨.fresh 0, .whole⟩, ⟨.fresh 1, .base⟩, ⟨.fresh 2, .whole⟩, ⟨.fresh 3, .whole⟩]
    let r : Registry := slots.foldl (fun r x => (r.insert x).2) .empty
    let table : List (Handle × List Handle) := [(.fresh 0, [.fresh 0, .fresh 1, .fresh 8]),
      (.fresh 1, [.fresh 0]), (.fresh 2, [.fresh 3]), (.fresh 3, [.fresh 2])]
    let links : Handle → List Handle := fun h => (table.lookup h).getD []
    let roots : List Handle := [.fresh 0, .fresh 8, .fresh 0]
    let roots' : List Handle := [.fresh 8, .fresh 0]
    let first := start r.contains roots
    let m := first.scan r.contains links
    let m' := m.scan r.contains links
    Loop r links first 1 m ∧ m.turn? r links = some m' ∧ m.color (.fresh 0) = .black ∧
      .fresh 1 ∈ links (.fresh 0) ∧ r.contains (.fresh 1) = true ∧ .fresh 1 ∈ m.stack ∧
      (∀ h, h ∈ roots' ↔ h ∈ roots) ∧ (∀ a b, b ∈ (links a).reverse ↔ b ∈ links a) ∧
      m.color (.fresh 1) ≠ .white ∧ (r.slot? (.fresh 1)).isSome = true ∧
      (unscanned r.handles m').length < (unscanned r.handles m).length ∧ 1 ≤ r.size ∧
      (mark r.contains r.size (fun a => (links a).reverse) roots').marked (.fresh 1) = true ∧
      (mark r.contains r.size (fun a => (links a).reverse) roots').markedCount = 2 := by
  intro slots r table links roots roots' first m m'
  have hfirst : Consistent r.contains first := .start roots
  have hm : Consistent r.contains m := hfirst.scan
  have hl : Loop r links first 1 m := .turn (hfirst.turn?_eq (by decide +kernel)) (.rest m)
  have ht : m.turn? r links = some m' := hm.turn?_eq (by decide +kernel)
  have hblack : m.color (.fresh 0) = .black := by decide +kernel
  have hlink : .fresh 1 ∈ links (.fresh 0) := by decide +kernel
  have hreg : r.contains (.fresh 1) = true := by decide +kernel
  have hwaits : .fresh 1 ∈ m.stack := by decide +kernel
  have hroots : ∀ h, h ∈ roots' ↔ h ∈ roots := by
    intro h
    simp only [roots, roots', List.mem_cons, List.not_mem_nil, or_false]
    exact ⟨Or.inr, fun hh => hh.elim Or.inr id⟩
  have hlinks : ∀ a b, b ∈ (links a).reverse ↔ b ∈ links a := fun _ _ => List.mem_reverse
  obtain ⟨hloop, -, -, horder⟩ := loop_ends_with_mark r links roots
  obtain ⟨-, -, -, hcovered, hslot, hless, hturns⟩ := hloop 1 m hl
  obtain ⟨hmarked, hcount⟩ := horder (fun a => (links a).reverse) roots' hroots hlinks
  refine ⟨hl, ht, hblack, hlink, hreg, hwaits, hroots, hlinks,
    hcovered _ _ hblack hlink hreg, hslot _ hwaits, hless m' ht, hturns, ?_, ?_⟩
  · rw [hmarked]; decide +kernel
  · rw [hcount]; decide +kernel

end SharedHeap.Marker
