import SharedHeap.Proofs.Departure
import SharedHeap.Proofs.TableCalls

/-! # Entries of registered tables

An entry that refers to an object has its link, and a pass that keeps the table follows that link. So
an object that was registered when its entry was set stays registered as long as the entry is there and
the table is registered. -/

namespace SharedHeap

open Heap

/-- The operation puts something else under the key `k` of `t`, or nothing. -/
def Operation.Overwrites (t : Handle) (k : Key) : Operation → Prop
  | set t' k' _ | remove t' k' => t' = t ∧ k' = k
  | _ => False

instance (t : Handle) (k : Key) : (o : Operation) → Decidable (o.Overwrites t k)
  | .set t' k' _ | .remove t' k' => inferInstanceAs (Decidable (t' = t ∧ k' = k))
  | .action _ => .isFalse id

namespace Heap

variable {w : Heap} {a : Action} {o : Operation} {os : List Operation} {g : CollectorId}
  {t h : Handle} {k : Key}

/-! ## What a registered object links to -/

/-- As long as an object stays registered, so does what it links to. -/
theorem registered_of_linked (he : a.Enabled w) (ha : a ≠ .retire g) (ht : w.Registered g t)
    (hh : w.Registered g h) (hl : h ∈ w.linked t) (ht' : (a.perform w).Registered g t) :
    (a.perform w).Registered g h := by
  by_cases hr : a.Restructures g
  · cases a with
    | register g' x =>
      obtain rfl : g' = g := hr
      obtain ⟨c, hc, -⟩ := registered_iff_getElem?.mp ht
      refine (registered_register hc x h).mpr (.inr ⟨hh, fun hd => ?_⟩)
      refine .linked ?_ hl hh
      rcases (registered_register hc x t).mp ht' with rfl | ⟨-, hlive⟩
      -- whoever registers an object once more has it
      · have he : 2 ≤ w.held.count x := he
        exact .held ht (.inl (heldCount_pos_of_count (Nat.lt_of_lt_of_le Nat.two_pos he)))
      · exact hlive hd
    | cleanup g' =>
      obtain rfl : g' = g := hr
      obtain ⟨-, hlive⟩ := (registered_beginCleanup w g' t).mp ht'
      exact (registered_beginCleanup w g' h).mpr ⟨hh, fun hs => .linked (hlive hs) hl hh⟩
    | retire g' =>
      obtain rfl : g' = g := hr
      exact absurd rfl ha
    | _ => exact hr.elim
  · exact (registered_congr (registry_perform hr) h).mpr hh

/-! ## What an operation does to a table -/

theorem objects_beginCleanup (w : Heap) (g : CollectorId) :
    (w.beginCleanup g).2.objects = w.objects := by
  unfold beginCleanup
  split <;> rfl

theorem objects_closeQueue (w : Heap) (q : QueueId) : (w.closeQueue q).objects = w.objects := by
  unfold closeQueue
  split
  · rfl
  · split <;> rfl

/-- Only what accesses an object changes it, unless its handle is given out. -/
theorem object_perform (ht : ∀ x, a ≠ .touch t x)
    (hn : (∃ kind, a = .allocate kind) → t ≠ .fresh w.allocated) :
    (a.perform w).object t = w.object t := by
  have hobjects : ∀ w' : Heap, w'.objects = w.objects → w'.object t = w.object t := by
    intro w' hw
    rw [object, hw, object]
  cases a with
  | allocate kind => exact object_setObject_of_ne w (hn ⟨kind, rfl⟩) _
  | touch t' x =>
    refine object_setObject_of_ne w (fun he => ?_) _
    subst he
    exact ht x rfl
  | register g x => exact hobjects _ (register_frame w g x).2.2.2
  | cleanup g => exact hobjects _ (objects_beginCleanup w g)
  | close q => exact hobjects _ (objects_closeQueue w q)
  | get g kind k => simp only [Action.perform]; cases w.lookup g kind k <;> rfl
  | getObject g k => simp only [Action.perform]; cases w.lookupBase g k <;> rfl
  | registryErase r k => simp only [Action.perform, registryErase]; split <;> rfl
  | _ => rfl

theorem object_setEntry (w : Heap) (t' t : Handle) (k : Key) (v : Value) :
    (w.setEntry t' k v).2.object t =
      if t' = t then ((w.object t).set k v).2 else w.object t := by
  split
  · rename_i he
    subst he
    exact object_setObject w t' _
  · rename_i he
    exact object_setObject_of_ne w (fun h => he h.symm) _

theorem object_removeEntry (w : Heap) (t' t : Handle) (k : Key) :
    (w.removeEntry t' k).2.object t =
      if t' = t then ((w.object t).remove k).2 else w.object t := by
  split
  · rename_i he
    subst he
    exact object_setObject w t' _
  · rename_i he
    exact object_setObject_of_ne w (fun h => he h.symm) _

/-- With no access but whole calls, the links of a table are those of its entries. -/
theorem balanced_perform (ht : ∀ x, o ≠ .action (.touch t x))
    (hb : (w.object t).Balanced fun _ => 0) : ((o.perform w).object t).Balanced fun _ => 0 := by
  cases o with
  | action a =>
    by_cases hn : (∃ kind, a = .allocate kind) ∧ t = .fresh w.allocated
    · obtain ⟨⟨kind, rfl⟩, rfl⟩ := hn
      have hnew : ((w.allocate kind).2.object (.fresh w.allocated)) = { kind } :=
        object_setObject w _ _
      show ((w.allocate kind).2.object (.fresh w.allocated)).Balanced fun _ => 0
      rw [hnew]
      exact Object.balanced_new kind
    · have hobject : (a.perform w).object t = w.object t :=
        object_perform (fun x he => ht x (congrArg _ he)) fun hk he => hn ⟨hk, he⟩
      show ((a.perform w).object t).Balanced fun _ => 0
      rw [hobject]
      exact hb
  | set t' k v =>
    show ((w.setEntry t' k v).2.object t).Balanced fun _ => 0
    rw [object_setEntry]
    split
    · exact hb.set k v
    · exact hb
  | remove t' k =>
    show ((w.removeEntry t' k).2.object t).Balanced fun _ => 0
    rw [object_removeEntry]
    split
    · exact hb.remove k
    · exact hb

theorem balanced_operates (ht : ∀ x, .action (.touch t x) ∉ os)
    (hb : (w.object t).Balanced fun _ => 0) : ((w.operates os).object t).Balanced fun _ => 0 := by
  induction os generalizing w with
  | nil => exact hb
  | cons o rest ih =>
    refine ih (fun x hx => ht x (List.mem_cons_of_mem _ hx)) (balanced_perform (fun x he => ?_) hb)
    exact ht x (he ▸ List.mem_cons_self)

/-! ## Sequential runs -/

theorem Known.of_operation (he : o.Enabled w) (hk : w.Known) : (o.perform w).Known := by
  cases o with
  | action a => exact hk.of_perform he.1
  | set t k v => exact hk
  | remove t k => exact hk

theorem known_of_sequential {n : Nat} (hs : (initial n).Sequential os) :
    ((initial n).operates os).Known := by
  rw [← performs_actionsOf]
  exact known_of_legal hs.legal

theorem allocated_le_operates (w : Heap) (os : List Operation) :
    w.allocated ≤ (w.operates os).allocated := by
  rw [← performs_actionsOf]
  exact allocated_le_performs w _

/-- The entry `k` of `t` refers to `h`, and both are registered; or nobody can get at `t` any more. -/
def Refers (w : Heap) (g : CollectorId) (t : Handle) (k : Key) (h : Handle) : Prop :=
  (w.Registered g t ∧ w.Registered g h ∧ (w.object t).get? k = some (.obj h)) ∨ w.Spent t

theorem mem_linked_of_balanced (hb : (w.object t).Balanced fun _ => 0) (hn : h ≠ .null)
    (hk : (w.object t).get? k = some (.obj h)) : h ∈ w.linked t := by
  have hl := hb.hasLink hn hk
  rw [linked, Object.linked, Bag.mem_members]
  exact hl

theorem Refers.of_perform (hr : w.Refers g t k h) (he : o.Enabled w) (hk : w.Known)
    (hb : (o.perform w).allocated < UInt64.size) (hbal : (w.object t).Balanced fun _ => 0)
    (hn : h ≠ .null) (ht : ∀ x, o ≠ .action (.touch t x)) (hg : o ≠ .action (.retire g))
    (ho : ¬ o.Overwrites t k) : (o.perform w).Refers g t k h := by
  rcases hr with ⟨hrt, hrh, hentry⟩ | hs
  · cases o with
    | action a =>
      have ha : a ≠ .retire g := fun he => hg (congrArg _ he)
      by_cases ht' : (a.perform w).Registered g t
      · refine .inl ⟨ht', ?_, ?_⟩
        · exact registered_of_linked he.1 ha hrt hrh (mem_linked_of_balanced hbal hn hentry) ht'
        · have hobject : (a.perform w).object t = w.object t := by
            refine object_perform (fun x he => ht x (congrArg _ he)) ?_
            rintro ⟨kind, rfl⟩ hfresh
            obtain ⟨m, hm, rfl⟩ := hk t (.inl (.inr (.inl ⟨g, hrt⟩)))
            have hb : w.allocated + 1 < UInt64.size := hb
            have := Handle.fresh_injective (by omega) hb hfresh
            omega
          show ((a.perform w).object t).get? k = _
          rw [hobject]
          exact hentry
      · rcases departure hrt ht' with rfl | ⟨hp, hheld⟩
        · exact absurd rfl ha
        · exact .inr (spent_of_departure hk hrt hp hheld ht')
    | set t' k' v =>
      refine .inl ⟨hrt, hrh, ?_⟩
      show ((w.setEntry t' k' v).2.object t).get? k = _
      rw [object_setEntry]
      split
      · rename_i htt
        rw [Object.get?_set_of_ne _ fun hkk => ho ⟨htt, hkk⟩]
        exact hentry
      · exact hentry
    | remove t' k' =>
      refine .inl ⟨hrt, hrh, ?_⟩
      show ((w.removeEntry t' k').2.object t).get? k = _
      rw [object_removeEntry]
      split
      · rename_i htt
        rw [Object.get?_remove_of_ne _ fun hkk => ho ⟨htt, hkk⟩]
        exact hentry
      · exact hentry
  · cases o with
    | action a => exact .inr (hs.of_perform he.1 hb)
    | set t' k' v => exact .inr hs
    | remove t' k' => exact .inr hs

theorem Refers.of_operates (hr : w.Refers g t k h) (hs : w.Sequential os) (hk : w.Known)
    (hb : (w.operates os).allocated < UInt64.size) (hbal : (w.object t).Balanced fun _ => 0)
    (hn : h ≠ .null) (ht : ∀ x, .action (.touch t x) ∉ os) (hg : .action (.retire g) ∉ os)
    (ho : ∀ o ∈ os, ¬ o.Overwrites t k) : (w.operates os).Refers g t k h := by
  induction os generalizing w with
  | nil => exact hr
  | cons o rest ih =>
    have hto : ∀ x, o ≠ .action (.touch t x) := fun x he => ht x (he ▸ List.mem_cons_self)
    have hgo : o ≠ .action (.retire g) := fun he => hg (he ▸ List.mem_cons_self)
    have hbo := Nat.lt_of_le_of_lt (allocated_le_operates (o.perform w) rest) hb
    have hstep := hr.of_perform hs.1 hk hbo hbal hn hto hgo (ho o List.mem_cons_self)
    exact ih hstep hs.2 (hk.of_operation hs.1) hb (balanced_perform hto hbal)
      (fun x hx => ht x (List.mem_cons_of_mem _ hx)) (fun hx => hg (List.mem_cons_of_mem _ hx))
      fun o hx => ho o (List.mem_cons_of_mem _ hx)

theorem isSome_lookupBase (w : Heap) (g : CollectorId) (h : Handle) :
    (w.lookupBase g h).isSome = true ↔ w.Registered g h := by
  rw [lookupBase, Option.isSome_map, slot?, Registry.isSome_slot?]
  rfl

/-- **A table entry never dangles.** What a program does to its heap, in all that runs within its
steps, is a sequential run, and its later steps prolong that run. Now take any sequential run from an
empty heap, in which the handles do not wrap around and nothing but whole calls accesses the table `t`.
Runs in which a `Drop` clones its own dying base are left out: such a run can register a swept table
again, which did not stay registered. If an entry of `t` is set to an object `h` while a collector has
both registered, then in every later state in which nothing was put under its key or taken from there,
and the collector was not given up and still has `t` registered, it has `h` registered as well and finds
it. -/
theorem entry_never_dangles :
    (∀ depth steps later name spec, let s := (Program.runSteps depth steps (.start name spec)).2
      ∃ os ps, (initial 1).Sequential (os ++ ps) ∧ s.heap = (initial 1).operates os ∧
        (Program.runSteps depth later s).2.heap = (initial 1).operates (os ++ ps)) ∧
    ∀ (n : Nat) (before later : List Operation) (t : Handle) (k : Key) (h : Handle),
      let w := (initial n).operates before
      let w' := (initial n).operates (before ++ .set t k (.obj h) :: later)
      (initial n).Sequential (before ++ .set t k (.obj h) :: later) →
      w'.allocated < UInt64.size →
      (∀ x, .action (.touch t x) ∉ before ++ .set t k (.obj h) :: later) →
      ∀ g, w.Registered g t → w.Registered g h →
        (∀ o ∈ later, ¬ o.Overwrites t k) → .action (.retire g) ∉ later → w'.Registered g t →
        w'.Registered g h ∧ (w'.lookupBase g h).isSome = true := by
  refine ⟨Program.runSteps_sequential, ?_⟩
  intro n before later t k h w w' hs hb ht g hrt hrh ho hg hrt'
  have hw' : w' = ((w.setEntry t k (.obj h)).2).operates later := operates_append _ before _
  rw [sequential_append] at hs
  obtain ⟨hbefore, -, hlater⟩ := hs
  have hk : w.Known := known_of_sequential hbefore
  -- a registered handle was given out, so it is not the null one
  have hn : h ≠ .null := by
    obtain ⟨m, hm, rfl⟩ := hk h (.inl (.inr (.inl ⟨g, hrh⟩)))
    have hle : w.allocated ≤ w'.allocated := by
      rw [hw']
      exact allocated_le_operates (w.setEntry t k (.obj (.fresh m))).2 later
    exact Handle.fresh_ne_null m (by omega)
  have hbal : (w.object t).Balanced fun _ => 0 :=
    balanced_operates (fun x hx => ht x (List.mem_append_left _ hx)) (Object.balanced_new .object)
  have hset : (w.setEntry t k (.obj h)).2.Refers g t k h := by
    refine .inl ⟨hrt, hrh, ?_⟩
    rw [object_setEntry, if_pos rfl]
    exact Object.get?_set _ k _
  have hrefers : w'.Refers g t k h := by
    rw [hw'] at hb ⊢
    refine hset.of_operates hlater hk hb (balanced_perform (o := .set t k (.obj h)) ?_ hbal) hn ?_ hg ho
    · intro x he; cases he
    · exact fun x hx => ht x (List.mem_append_right _ (List.mem_cons_of_mem _ hx))
  have hreg : w'.Registered g h := by
    rcases hrefers with ⟨-, hreg, -⟩ | hspent
    · exact hreg
    · exact absurd hrt' (hspent.not_resolved g .table).1
  exact ⟨hreg, (isSome_lookupBase w' g h).mpr hreg⟩

/-- A table has a child under two keys. One of the entries is removed, the child is dropped, and two
passes run: the child is still there. -/
theorem entry_never_dangles_of_second_key :
    let table : Holder := ⟨.fresh 0, .whole⟩
    let child : Holder := ⟨.fresh 1, .whole⟩
    let before : List Operation := [.action (.addCollector 2), .action (.allocate .table),
      .action (.clone table), .action (.register 0 table), .action (.allocate .node),
      .action (.clone child), .action (.register 0 child), .action (.close 0)]
    let later : List Operation := [.set (.fresh 0) (.int 2) (.obj (.fresh 1)),
      .action (.drop child), .remove (.fresh 0) (.int 2), .action (.cleanup 0), .action (.close 1),
      .action (.allocate .object), .action (.clone ⟨.fresh 2, .whole⟩),
      .action (.register 0 ⟨.fresh 2, .whole⟩)]
    let w' := (initial 1).operates (before ++ .set (.fresh 0) (.int 1) (.obj (.fresh 1)) :: later)
    (initial 1).Sequential (before ++ .set (.fresh 0) (.int 1) (.obj (.fresh 1)) :: later) ∧
      w'.heldCount (.fresh 1) = 0 ∧ (w'.collector 0).objectsSwept = 0 ∧
      (w'.lookupBase 0 (.fresh 1)).isSome = true := by
  intro table child before later w'
  have hs : (initial 1).Sequential
      (before ++ .set (.fresh 0) (.int 1) (.obj (.fresh 1)) :: later) := by decide +kernel
  have hb : w'.allocated < UInt64.size := by decide +kernel
  have ht : ∀ x, Operation.action (.touch (.fresh 0) x) ∉
      before ++ .set (.fresh 0) (.int 1) (.obj (.fresh 1)) :: later := by
    intro x
    simp [before, later]
  have hrt : ((initial 1).operates before).Registered 0 (.fresh 0) := by
    rw [Registered]; decide +kernel
  have hrh : ((initial 1).operates before).Registered 0 (.fresh 1) := by
    rw [Registered]; decide +kernel
  have hrt' : w'.Registered 0 (.fresh 0) := by
    rw [Registered]; decide +kernel
  have hkept := entry_never_dangles.2 1 before later (.fresh 0) (.int 1) (.fresh 1) hs hb ht 0 hrt hrh
    (by decide +kernel) (by simp [later]) hrt'
  exact ⟨hs, by decide +kernel, by decide +kernel, hkept.2⟩

end Heap

end SharedHeap
