import SharedHeap.Proofs.Commands

/-! # Leaving a registry

A handle leaves the registry of a collector only in a pass of that collector, and only if its slot
was the only holder of its object. From then on nobody can get at the object: its last holder waits
to be released, and what waits is never handed out. -/

namespace SharedHeap

open Heap

/-- The action may change which handles are registered in collector `g`. -/
def Action.Restructures (g : CollectorId) : Action → Prop
  | register g' _ | cleanup g' | retire g' => g' = g
  | _ => False

theorem Action.not_restructures {a : Action} {g : CollectorId} (ha : a.lock? ≠ some g) :
    ¬ a.Restructures g := by
  intro hr
  cases a with
  | register g' x => exact ha (congrArg some hr)
  | cleanup g' => exact ha (congrArg some hr)
  | retire g' => exact ha (congrArg some hr)
  | _ => exact hr

/-- Other actions run no pass over `g` and register nothing there. -/
theorem Action.idle_of_not_restructures {a : Action} {g : CollectorId} (ha : ¬ a.Restructures g)
    (w : Heap) : a.pass? w g = none ∧ a.registers w g = false := by
  cases a with
  | register g' x => exact ⟨if_neg ha, by simp [Action.registers, show g' ≠ g from ha]⟩
  | cleanup g' => exact ⟨if_neg ha, rfl⟩
  | _ => exact ⟨rfl, rfl⟩

namespace Heap

/-- Somebody can get at a holder of `h`: the application has one, or can look one up. -/
def Obtainable (w : Heap) (h : Handle) : Prop :=
  0 < w.heldCount h ∨ (∃ g, w.Registered g h) ∨ ∃ r ∈ w.registries, r.contains h = true

/-- A slot of `h` waits to be released. -/
def Awaited (w : Heap) (h : Handle) : Prop := ∃ q ∈ w.queues, ∃ x ∈ q.waiting, x.handle = h

variable {w : Heap} {a : Action} {g : CollectorId} {h : Handle} {x : Holder}

theorem heldCount_letGo_le (w : Heap) (x : Holder) (h : Handle) :
    (w.letGo x).heldCount h ≤ w.heldCount h := by
  simp only [heldCount, letGo, Bag.count_remove]
  split <;> split <;> omega

theorem obtainable_of_cloneable (hx : w.Cloneable x) : w.Obtainable x.handle := by
  obtain ⟨h, v⟩ := x
  cases v with
  | whole =>
    rcases hx with hx | ⟨r, hr, hx⟩
    · exact .inl (heldCount_pos_of_count hx)
    · exact .inr (.inr ⟨r, hr, by rw [← Registry.isSome_slot?, hx]; rfl⟩)
  | base =>
    rcases hx with hx | hx
    · exact .inl hx
    · exact .inr (.inr hx)

theorem registered_of_slot? {k : Handle} (hx : w.slot? g k = some x) : w.Registered g x.handle := by
  rw [Registry.handle_of_slot? hx, Registered, ← Registry.isSome_slot?, ← slot?, hx]
  rfl

theorem registered_of_lookup {kind : Kind} {k : Handle} (hx : w.lookup g kind k = some x) :
    w.Registered g x.handle :=
  registered_of_slot? (Option.filter_eq_some_iff.mp hx).1

theorem registered_of_lookupBase {k : Handle} (hx : w.lookupBase g k = some x) :
    w.Registered g x.handle := by
  obtain ⟨y, hy, rfl⟩ := Option.map_eq_some_iff.mp hx
  have hr : w.Registered g y.handle := registered_of_slot? hy
  exact hr

/-! ## What an action does to registries -/

theorem undisturbed_addCollector (w : Heap) (n : Nat) (g : CollectorId) :
    (w.collector g).Undisturbed ((w.addCollector (.withStep n)).2.collector g) := by
  rcases Nat.lt_trichotomy g w.collectors.length with hg | rfl | hg
  · rw [collector, collector, addCollector, List.getElem?_append_left hg]
    exact .refl _
  · -- what is looked up where there is no collector is a fresh one, too
    have hold : w.collector w.collectors.length = .withStep Collector.defaultStep := by
      simp [collector]
    have hnew : (w.addCollector (.withStep n)).2.collector w.collectors.length = .withStep n := by
      simp [collector, addCollector]
    rw [hold, hnew]
    exact ⟨rfl, rfl, id⟩
  · have hold : w.collectors[g]? = none := List.getElem?_eq_none_iff.mpr (Nat.le_of_lt hg)
    have hnew : (w.addCollector (.withStep n)).2.collectors[g]? = none :=
      List.getElem?_eq_none_iff.mpr (by simp only [addCollector, List.length_append]; exact hg)
    rw [collector, collector, hold, hnew]
    exact .refl _

theorem collector_beginCleanup_of_ne (w : Heap) {g g' : CollectorId} (hg : g' ≠ g) :
    (w.beginCleanup g).2.collector g' = w.collector g' := by
  unfold beginCleanup
  split
  · rfl
  · exact collector_runPass_of_ne w hg

/-- Most actions leave the registry and the counts of a collector alone. -/
theorem undisturbed_perform (ha : ¬ a.Restructures g) :
    (w.collector g).Undisturbed ((a.perform w).collector g) := by
  cases a with
  | register g' x =>
    have hne : g ≠ g' := fun he => ha he.symm
    rw [Action.perform, collector_register_of_ne w x hne]
    exact .refl _
  | cleanup g' =>
    have hne : g ≠ g' := fun he => ha he.symm
    rw [Action.perform, collector_beginCleanup_of_ne w hne]
    exact .refl _
  | retire g' =>
    have hne : g' ≠ g := ha
    have hcol : ((w.retire g').2.collector g) = w.collector g :=
      collector_modifyCollector_of_ne w hne _
    rw [Action.perform, hcol]
    exact .refl _
  | stop g' =>
    refine undisturbed_modifyCollector (f := fun c => { c with state := .stopped }) ?_ w g' g
    exact fun _ => ⟨rfl, rfl, fun _ => CollectorState.noConfusion⟩
  | resume g' =>
    refine undisturbed_modifyCollector (f := fun c => { c with state := .idle }) ?_ w g' g
    exact fun _ => ⟨rfl, rfl, fun _ => CollectorState.noConfusion⟩
  | setStep g' n =>
    refine undisturbed_modifyCollector (f := fun c => c.setStep n) ?_ w g' g
    exact fun _ => ⟨rfl, rfl, id⟩
  | get g' kind k => simp only [Action.perform]; cases w.lookup g' kind k <;> exact .refl _
  | getObject g' k => simp only [Action.perform]; cases w.lookupBase g' k <;> exact .refl _
  | close q => exact undisturbed_closeQueue w q g
  | addCollector n => exact undisturbed_addCollector w n g
  | registryErase r k => simp only [Action.perform, registryErase]; split <;> exact .refl _
  | _ => exact .refl _

theorem registry_perform (ha : ¬ a.Restructures g) :
    ((a.perform w).collector g).registry = (w.collector g).registry :=
  (undisturbed_perform ha).registry

theorem registered_beginCleanup (w : Heap) (g : CollectorId) (h : Handle) :
    (w.beginCleanup g).2.Registered g h ↔
      w.Registered g h ∧ ((w.collector g).state ≠ .stopped → w.Live g h) := by
  by_cases hs : (w.collector g).state = .stopped
  · rw [beginCleanup, if_pos hs]
    exact ⟨fun hr => ⟨hr, fun hn => absurd hs hn⟩, fun hr => hr.1⟩
  · rw [beginCleanup, if_neg hs]
    cases hc : w.collectors[g]? with
    | none =>
      have hg : w.collectors.length ≤ g := List.getElem?_eq_none_iff.mp hc
      have hnone : ∀ w' : Heap, w'.collectors.length = w.collectors.length → ¬ w'.Registered g h :=
        fun w' hl hr => absurd (hl ▸ hr.lt_length) (Nat.not_lt.mpr hg)
      refine iff_of_false (hnone _ ?_) fun hr => hnone w rfl hr.1
      simp [openQueue, runPass, endPass, beginPass, modifyCollector, emit, emitMarked]
    | some c =>
      refine (registered_runPass hc h).trans ?_
      exact ⟨fun hl => ⟨hl.registered, fun _ => hl⟩, fun hr => hr.2 hs⟩

theorem not_registered_retire (w : Heap) (g : CollectorId) (h : Handle) :
    ¬ (w.retire g).2.Registered g h := by
  intro hr
  have hg : g < w.collectors.length := by
    simpa [retire, openQueue, modifyCollector] using hr.lt_length
  have hcol : (w.retire g).2.collector g = { w.collector g with registry := .empty } :=
    collector_modifyCollector_self hg _
  rw [Registered, hcol] at hr
  simp [Registry.contains, Registry.empty] at hr

/-- An action registers nothing but what its caller has. -/
theorem Registered.of_perform (he : a.Enabled w) (hr : (a.perform w).Registered g h) :
    w.Registered g h ∨ 0 < w.heldCount h := by
  by_cases ha : a.Restructures g
  · cases a with
    | register g' x =>
      obtain rfl : g' = g := ha
      have hg : g' < w.collectors.length := length_register w g' x ▸ hr.lt_length
      have hc := List.getElem?_eq_getElem hg
      have he : 2 ≤ w.held.count x := he
      rcases (registered_register hc x h).mp hr with rfl | ⟨hr, -⟩
      · exact .inr (heldCount_pos_of_count (Nat.lt_of_lt_of_le Nat.two_pos he))
      · exact .inl hr
    | cleanup g' =>
      obtain rfl : g' = g := ha
      exact .inl ((registered_beginCleanup w g' h).mp hr).1
    | retire g' =>
      obtain rfl : g' = g := ha
      exact absurd hr (not_registered_retire w g' h)
    | _ => exact ha.elim
  · exact .inl ((registered_congr (registry_perform ha) h).mp hr)

/-! ## What an action does to holders -/

/-- What the application holds after an action it could get at before, unless the object is new. -/
theorem obtainable_of_heldCount (he : a.Enabled w) (hh : 0 < (a.perform w).heldCount h) :
    w.Obtainable h ∨ (∃ kind, a = .allocate kind) ∧ h = .fresh w.allocated := by
  have hold : ∀ x : Holder, 0 < (w.hold x).heldCount h → h = x.handle ∨ 0 < w.heldCount h := by
    intro x hx
    rw [heldCount_hold] at hx
    by_cases hk : x.handle = h
    · exact .inl hk.symm
    · exact .inr (by simpa [hk] using hx)
  have letGo : ∀ x : Holder, 0 < (w.letGo x).heldCount h → w.Obtainable h := fun x hx =>
    .inl (Nat.lt_of_lt_of_le hx (heldCount_letGo_le w x h))
  cases a with
  | allocate kind =>
    rcases hold ⟨.fresh w.allocated, .whole⟩ hh with rfl | hh
    · exact .inr ⟨⟨kind, rfl⟩, rfl⟩
    · exact .inl (.inl hh)
  | clone x =>
    rcases hold x hh with rfl | hh
    · exact .inl (obtainable_of_cloneable he)
    · exact .inl (.inl hh)
  | drop x => exact .inl (letGo x hh)
  | register g x =>
    refine .inl (letGo x ?_)
    rwa [heldCount, Action.perform, (register_frame w g x).1] at hh
  | get g kind k =>
    cases hx : w.lookup g kind k with
    | none => exact .inl (.inl (by simpa [Action.perform, hx] using hh))
    | some x =>
      rcases hold x (by simpa [Action.perform, hx] using hh) with rfl | hh
      · exact .inl (.inr (.inl ⟨g, registered_of_lookup hx⟩))
      · exact .inl (.inl hh)
  | getObject g k =>
    cases hx : w.lookupBase g k with
    | none => exact .inl (.inl (by simpa [Action.perform, hx] using hh))
    | some x =>
      rcases hold x (by simpa [Action.perform, hx] using hh) with rfl | hh
      · exact .inl (.inr (.inl ⟨g, registered_of_lookupBase hx⟩))
      · exact .inl (.inl hh)
  | registryInsert r x => exact .inl (letGo x hh)
  | registryErase r k =>
    simp only [Action.perform, registryErase] at hh
    split at hh <;> exact .inl (.inl hh)
  | cleanup g =>
    exact .inl (.inl (by rwa [heldCount, Action.perform, (beginCleanup_frame w g).1] at hh))
  | close q =>
    exact .inl (.inl (by rwa [heldCount, Action.perform, (closeQueue_frame w q).1] at hh))
  | _ => exact .inl (.inl hh)

theorem contains_of_registry {r : RegistryId} (hr : (w.registry r).contains h = true) :
    ∃ r ∈ w.registries, r.contains h = true := by
  unfold registry at hr
  cases hreg : w.registries[r]? with
  | none => simp [hreg, Registry.contains, Registry.empty] at hr
  | some reg => exact ⟨reg, List.mem_of_getElem? hreg, by simpa [hreg] using hr⟩

theorem contains_of_setRegistry {r : RegistryId} {reg : Registry}
    (hr : ∃ r' ∈ (w.setRegistry r reg).registries, r'.contains h = true) :
    reg.contains h = true ∨ ∃ r' ∈ w.registries, r'.contains h = true := by
  obtain ⟨r', hm, hh⟩ := hr
  rcases List.mem_or_eq_of_mem_set hm with hm | rfl
  · exact .inr ⟨r', hm, hh⟩
  · exact .inl hh

/-- An action puts nothing into a bare registry but what its caller has. -/
theorem contains_of_perform (he : a.Enabled w)
    (hr : ∃ r ∈ (a.perform w).registries, r.contains h = true) :
    0 < w.heldCount h ∨ ∃ r ∈ w.registries, r.contains h = true := by
  cases a with
  | registryInsert r x =>
    rcases contains_of_setRegistry hr with hh | hr
    · have hh : ((w.registry r).insert x).2.contains h = true := hh
      rw [Registry.contains_insert, Bool.or_eq_true, beq_iff_eq] at hh
      rcases hh with rfl | hh
      · exact .inl (heldCount_pos_of_count he)
      · exact .inr (contains_of_registry hh)
    · exact .inr hr
  | registryErase r k =>
    simp only [Action.perform, registryErase] at hr
    split at hr
    · exact .inr hr
    · rename_i x reg heq
      rcases contains_of_setRegistry hr with hh | hr
      · obtain rfl : ((w.registry r).erase k).2 = reg := by rw [heq]
        rw [Registry.contains_erase, Bool.and_eq_true] at hh
        exact .inr (contains_of_registry hh.2)
      · exact .inr hr
  | registryRetain r keep =>
    rcases contains_of_setRegistry hr with hh | hr
    · have hh : ((w.registry r).retain keep).2.contains h = true := hh
      rw [Registry.contains_retain, Bool.and_eq_true] at hh
      exact .inr (contains_of_registry hh.1)
    · exact .inr hr
  | register g x => exact .inr ((register_frame w g x).2.1 ▸ hr)
  | cleanup g =>
    exact .inr (by rwa [Action.perform, (beginCleanup_frame w g).2.1] at hr)
  | get g kind k =>
    simp only [Action.perform] at hr
    cases hx : w.lookup g kind k <;> rw [hx] at hr <;> exact .inr hr
  | getObject g k =>
    simp only [Action.perform] at hr
    cases hx : w.lookupBase g k <;> rw [hx] at hr <;> exact .inr hr
  | close q =>
    exact .inr (by rwa [Action.perform, (closeQueue_frame w q).2.1] at hr)
  | _ => exact .inr hr

/-- What is obtainable after an action was so before, unless the action made it. -/
theorem Obtainable.of_perform (he : a.Enabled w) (ho : (a.perform w).Obtainable h) :
    w.Obtainable h ∨ (∃ kind, a = .allocate kind) ∧ h = .fresh w.allocated := by
  rcases ho with hh | ⟨g, hr⟩ | hr
  · exact obtainable_of_heldCount he hh
  · rcases hr.of_perform he with hr | hh
    · exact .inl (.inr (.inl ⟨g, hr⟩))
    · exact .inl (.inl hh)
  · rcases contains_of_perform he hr with hh | hr
    · exact .inl (.inl hh)
    · exact .inl (.inr (.inr hr))

/-! ## What an action does to queues -/

theorem slot?_of_mem_swept (hx : x ∈ (w.runPass g).1.2) : w.slot? g x.handle = some x := by
  rw [slot?, ← registry_beginPass w g g, ← Registry.mem_holders]
  exact (List.mem_filter.mp hx).1

/-- What a due pass takes out was registered, also if there is no such collector. -/
theorem registered_of_mem_dueSwept (hx : x ∈ w.dueSwept g) : w.Registered g x.handle := by
  unfold dueSwept at hx
  by_cases hd : w.PassDue g
  · rw [duePass_of_due hd] at hx
    exact registered_of_slot? (w := w.emit _) (slot?_of_mem_swept hx)
  · rw [duePass_of_not_due hd] at hx
    simp at hx

/-- What waits in a queue that an action opens was obtainable. -/
theorem obtainable_of_opened {p : ReleaseQueue} (he : a.Enabled w) (hr : ∀ q, a ≠ .release q)
    (hc : ∀ q, a ≠ .close q) (hp : p ∈ (a.perform w).queues) :
    p ∈ w.queues ∨ ∀ x ∈ p.waiting, w.Obtainable x.handle := by
  have hopen : ∀ (v : Heap) (xs : List Holder) (after : Afterwards), v.queues = w.queues →
      (∀ x ∈ xs, w.Obtainable x.handle) → p ∈ (v.openQueue xs after).2.queues →
      p ∈ w.queues ∨ ∀ x ∈ p.waiting, w.Obtainable x.handle := by
    intro v xs after hv hxs hp
    rcases List.mem_cons.mp hp with rfl | hp
    · exact .inr hxs
    · exact .inl (hv ▸ hp)
  cases a with
  | register g x =>
    have hq : (w.duePass g).2.queues = w.queues := (duePass_frame w g).2.2.2.1
    have hswept : ∀ y ∈ w.dueSwept g, w.Obtainable y.handle := fun y hy =>
      .inr (.inl ⟨g, registered_of_mem_dueSwept hy⟩)
    rw [Action.perform, register_eq] at hp
    split at hp
    · rename_i y hy
      refine hopen _ _ _ hq (fun z hz => ?_) hp
      rcases List.mem_cons.mp hz with rfl | hz
      · rw [Registry.handle_of_slot? hy]
        exact .inl (heldCount_pos_of_count (Nat.lt_of_lt_of_le Nat.two_pos he))
      · exact hswept z hz
    · have hsw : ((w.duePass g).1.map (·.2)).getD [] = w.dueSwept g := rfl
      cases hpass : (w.duePass g).1 with
      | none =>
        rw [hpass] at hp
        exact .inl (hq ▸ hp)
      | some pass =>
        rw [hpass] at hp hsw
        exact hopen _ _ _ hq (fun z hz => hswept z (hsw ▸ hz)) hp
  | cleanup g =>
    simp only [Action.perform, beginCleanup] at hp
    split at hp
    · exact .inl hp
    · refine hopen (w.runPass g).2 _ _ rfl (fun x hx => ?_) hp
      exact .inr (.inl ⟨g, registered_of_slot? (slot?_of_mem_swept hx)⟩)
  | retire g =>
    refine hopen (w.modifyCollector g _) _ _ rfl (fun x hx => ?_) hp
    exact .inr (.inl ⟨g, registered_of_slot? ((Registry.mem_holders _ x).mp hx)⟩)
  | registryErase r k =>
    simp only [Action.perform, registryErase] at hp
    split at hp
    · exact .inl hp
    · rename_i y reg heq
      have hslot : (w.registry r).slot? k = some y := congrArg Prod.fst heq
      refine hopen (w.setRegistry r reg) _ _ rfl (fun z hz => ?_) hp
      obtain rfl := List.mem_singleton.mp hz
      refine .inr (.inr (contains_of_registry (r := r) ?_))
      rw [Registry.handle_of_slot? hslot, ← Registry.isSome_slot?, hslot]
      rfl
  | registryRetain r keep =>
    refine hopen (w.setRegistry r _) _ _ rfl (fun x hx => ?_) hp
    have hslot := (Registry.mem_holders _ x).mp (List.mem_filter.mp hx).1
    refine .inr (.inr (contains_of_registry (r := r) ?_))
    rw [← Registry.isSome_slot?, hslot]
    rfl
  | get g kind k =>
    simp only [Action.perform] at hp
    cases hx : w.lookup g kind k <;> rw [hx] at hp <;> exact .inl hp
  | getObject g k =>
    simp only [Action.perform] at hp
    cases hx : w.lookupBase g k <;> rw [hx] at hp <;> exact .inl hp
  | release q => exact absurd rfl (hr q)
  | close q => exact absurd rfl (hc q)
  | _ => exact .inl hp

/-- What waits in a queue after an action waited there before, or was obtainable. -/
theorem waits_of_perform {p : ReleaseQueue} (he : a.Enabled w) (hp : p ∈ (a.perform w).queues)
    (hx : x ∈ p.waiting) :
    (∃ p' ∈ w.queues, p'.id = p.id ∧ x ∈ p'.waiting) ∨ w.Obtainable x.handle := by
  obtain ⟨q, rfl⟩ | ⟨q, rfl⟩ | ⟨hr, hc⟩ := a.release_or_close
  · obtain ⟨p', hp', rfl⟩ := List.mem_map.mp hp
    cases hid : p'.id == q with
    | true =>
      rw [hid, if_pos rfl] at hx
      exact .inl ⟨p', hp', by simp, List.mem_of_mem_tail hx⟩
    | false =>
      rw [hid, if_neg Bool.false_ne_true] at hx
      exact .inl ⟨p', hp', by simp, hx⟩
  · rw [Action.perform, (queues_closeQueue w q).1] at hp
    exact .inl ⟨p, List.mem_of_mem_filter hp, rfl, hx⟩
  · rcases obtainable_of_opened he hr hc hp with hp | ho
    · exact .inl ⟨p, hp, rfl, hx⟩
    · exact .inr (ho x hx)

/-- What waits after an action did so before, or was obtainable. -/
theorem Awaited.of_perform (he : a.Enabled w) (ha : (a.perform w).Awaited h) :
    w.Awaited h ∨ w.Obtainable h := by
  obtain ⟨p, hp, x, hx, rfl⟩ := ha
  exact (waits_of_perform he hp hx).imp_left fun ⟨p', hp', _, hx⟩ => ⟨p', hp', x, hx, rfl⟩

/-! ## Handles that were given out -/

/-- `h` was given out, and nobody can get at a holder of it any more. -/
def Spent (w : Heap) (h : Handle) : Prop := ¬ w.Obtainable h ∧ ∃ n < w.allocated, h = .fresh n

/-- Whatever has a holder was given out. -/
def Known (w : Heap) : Prop :=
  ∀ h, w.Obtainable h ∨ w.Awaited h → ∃ n < w.allocated, h = .fresh n

theorem Known.of_perform (he : a.Enabled w) (hk : w.Known) : (a.perform w).Known := by
  have hgrow : ∀ h : Handle, (∃ n < w.allocated, h = .fresh n) →
      ∃ n < (a.perform w).allocated, h = .fresh n := by
    rintro h ⟨n, hn, rfl⟩
    exact ⟨n, Nat.lt_of_lt_of_le hn (allocated_le_performs w [a]), rfl⟩
  rintro h (ho | ha)
  · rcases ho.of_perform he with ho | ⟨⟨kind, rfl⟩, rfl⟩
    · exact hgrow h (hk h (.inl ho))
    · exact ⟨w.allocated, Nat.lt_succ_self _, rfl⟩
  · exact hgrow h (hk h (ha.of_perform he).symm)

theorem known_initial (n : Nat) : (initial n).Known := by
  rintro h ((hh | ⟨g, hr⟩ | ⟨r, hr, hh⟩) | ⟨q, hq, -⟩)
  · simp [initial, heldCount] at hh
  · exact absurd hr.lt_length (Nat.not_lt_zero g)
  · obtain rfl := List.eq_of_mem_replicate hr
    simp [Registry.contains, Registry.empty] at hh
  · simp [initial] at hq

theorem Spent.of_perform (he : a.Enabled w) (hb : (a.perform w).allocated < UInt64.size)
    (hs : w.Spent h) : (a.perform w).Spent h := by
  obtain ⟨hn, n, hlt, rfl⟩ := hs
  refine ⟨fun ho => ?_, n, Nat.lt_of_lt_of_le hlt (allocated_le_performs w [a]), rfl⟩
  rcases ho.of_perform he with ho | ⟨⟨kind, rfl⟩, hfresh⟩
  · exact hn ho
  · have hb : w.allocated + 1 < UInt64.size := hb
    have := Handle.fresh_injective (by omega) hb hfresh
    omega

theorem Spent.of_performs {as : List Action} (hl : w.Legal as)
    (hb : (w.performs as).allocated < UInt64.size) (hs : w.Spent h) : (w.performs as).Spent h := by
  induction as generalizing w with
  | nil => exact hs
  | cons a as ih =>
    have hle := allocated_le_performs (a.perform w) as
    exact ih hl.2 hb (hs.of_perform hl.1 (Nat.lt_of_le_of_lt hle hb))

/-! ## Leaving -/

/-- A handle leaves a registry with the whole collector, or in a pass that finds its slot to be the
only holder. -/
theorem departure (hr : w.Registered g h) (hn : ¬ (a.perform w).Registered g h) :
    a = .retire g ∨ a.PassesOver w g ∧ ¬ w.HeldElsewhere g h := by
  by_cases ha : a.Restructures g
  · cases a with
    | register g' x =>
      obtain rfl : g' = g := ha
      obtain ⟨c, hc, -⟩ := registered_iff_getElem?.mp hr
      have hn : ¬ (w.register g' x).2.Registered g' h := hn
      simp only [registered_register hc, not_or, not_and, Classical.not_imp] at hn
      obtain ⟨hd, hl⟩ := hn.2 hr
      exact .inr ⟨⟨rfl, hd⟩, fun hh => hl (.held hr hh)⟩
    | cleanup g' =>
      obtain rfl : g' = g := ha
      have hn : ¬ (w.beginCleanup g').2.Registered g' h := hn
      simp only [registered_beginCleanup, not_and, Classical.not_imp] at hn
      obtain ⟨hs, hl⟩ := hn hr
      exact .inr ⟨⟨rfl, hs⟩, fun hh => hl (.held hr hh)⟩
    | retire g' =>
      obtain rfl : g' = g := ha
      exact .inl rfl
    | _ => exact ha.elim
  · exact absurd ((registered_congr (registry_perform ha) h).mpr hr) hn

theorem holderCount_eq_one (hr : w.Registered g h) (hh : ¬ w.HeldElsewhere g h) :
    w.holderCount h = 1 := by
  have hroot : ¬ 1 < w.holderCount h := fun hlt => hh ((isRoot_iff hr).mp (decide_eq_true hlt))
  have hpos : 0 < w.slotCount h := slotCount_pos_of_registered hr
  unfold holderCount at hroot ⊢
  omega

/-- What a pass takes out is spent. -/
theorem spent_of_departure (hk : w.Known) (hr : w.Registered g h) (hp : a.PassesOver w g)
    (hh : ¬ w.HeldElsewhere g h) (hn : ¬ (a.perform w).Registered g h) : (a.perform w).Spent h := by
  obtain ⟨m, hm, rfl⟩ := hk h (.inl (.inr (.inl ⟨g, hr⟩)))
  refine ⟨?_, m, Nat.lt_of_lt_of_le hm (allocated_le_performs w [a]), rfl⟩
  have hframe : (a.perform w).heldCount (.fresh m) ≤ w.heldCount (.fresh m) ∧
      (a.perform w).registries = w.registries ∧ ∀ g', g' ≠ g → ¬ a.Restructures g' := by
    cases a with
    | register g' x =>
      obtain ⟨hheld, hreg, -, -⟩ := register_frame w g' x
      refine ⟨?_, hreg, fun k hk he => hk (he.symm.trans hp.1)⟩
      rw [heldCount, Action.perform, hheld]
      exact heldCount_letGo_le w x (.fresh m)
    | cleanup g' =>
      obtain ⟨hheld, hreg, -⟩ := beginCleanup_frame w g'
      refine ⟨?_, hreg, fun k hk he => hk (he.symm.trans hp.1)⟩
      rw [heldCount, Action.perform, hheld]
      exact Nat.le_refl _
    | _ => exact hp.elim
  obtain ⟨hheld, hbare, hother⟩ := hframe
  -- whoever could get at it afterwards could before, and then it was held elsewhere
  rintro (ho | ⟨g', ho⟩ | ho)
  · exact hh (.inl (Nat.lt_of_lt_of_le ho hheld))
  · by_cases hg : g' = g
    · subst hg; exact hn ho
    · exact hh (.inr (.inl ⟨g', hg,
        (registered_congr (registry_perform (hother g' hg)) _).mp ho⟩))
  · rw [hbare] at ho
    exact hh (.inr (.inr (.inl ho)))

/-! ## Over a whole run -/

theorem known_of_legal {n : Nat} {as : List Action} (hl : (initial n).Legal as) :
    ((initial n).performs as).Known :=
  hl.invariant (fun _ _ he hk => hk.of_perform he) (known_initial n)

/-- What is held elsewhere all the time stays registered, unless its collector is given up. -/
theorem registered_performs {as : List Action} (hg : .retire g ∉ as) (hr : w.Registered g h)
    (hh : ∀ p, p <+: as → (w.performs p).HeldElsewhere g h) : (w.performs as).Registered g h := by
  induction as generalizing w with
  | nil => exact hr
  | cons a as ih =>
    rw [List.mem_cons, not_or] at hg
    refine ih hg.2 ?_ fun p hp => hh (a :: p) (List.cons_prefix_cons.mpr ⟨rfl, hp⟩)
    by_contra hn
    rcases departure hr hn with rfl | ⟨-, hn⟩
    · exact hg.1 rfl
    · exact hn (hh [] (List.nil_prefix))

theorem Spent.not_resolved (hs : w.Spent h) (g : CollectorId) (kind : Kind) :
    ¬ w.Registered g h ∧ w.lookup g kind h = none ∧ w.lookupBase g h = none := by
  have hn : ¬ w.Registered g h := fun hr => hs.1 (.inr (.inl ⟨g, hr⟩))
  have hslot : w.slot? g h = none := by
    rw [slot?, Registry.slot?_eq_none_iff]
    simpa [Registered] using hn
  exact ⟨hn, by rw [lookup, hslot]; rfl, by rw [lookupBase, hslot]; rfl⟩

/-- What leaves the registry of a collector that is not given up is never resolved again. -/
theorem swept_of_legal {n : Nat} {before after : List Action}
    (hl : (initial n).Legal (before ++ a :: after))
    (hb : ((initial n).performs (before ++ a :: after)).allocated < UInt64.size)
    (hr : ((initial n).performs before).Registered g h)
    (hn : ¬ ((initial n).performs (before ++ [a])).Registered g h) :
    a = .retire g ∨
      a.PassesOver ((initial n).performs before) g ∧
      ((initial n).performs before).holderCount h = 1 ∧
      ∀ later, later <+: after → ∀ g' kind, let w := (initial n).performs (before ++ a :: later)
        ¬ w.Registered g' h ∧ w.lookup g' kind h = none ∧ w.lookupBase g' h = none := by
  rw [legal_append] at hl
  obtain ⟨hl, he, hlater⟩ := hl
  have hk := known_of_legal hl
  rw [performs_append] at hn hb
  rcases departure hr hn with rfl | ⟨hp, hh⟩
  · exact .inl rfl
  · refine .inr ⟨hp, holderCount_eq_one hr hh, ?_⟩
    rintro later ⟨rest, rfl⟩ g' kind
    have hs := spent_of_departure hk hr hp hh hn
    rw [legal_append] at hlater
    have hb : ((a.perform ((initial n).performs before)).performs later).allocated
        < UInt64.size := by
      refine Nat.lt_of_le_of_lt ?_ hb
      rw [performs, performs_append]
      exact allocated_le_performs _ rest
    rw [performs_append]
    exact (hs.of_performs hlater.1 hb).not_resolved g' kind

/-- **What is swept is dead, and what is held stays registered.** What a program does to its heap,
in all that runs within its steps, is a legal run, and its later steps prolong that run. Now take any
legal run from an empty heap in which the handles do not wrap around; in such a run no `Drop` clones its
own dying base, which would bring the object back. If a handle leaves the registry of a collector, then
in a pass over that collector, which finds one holder of its object, the slot; and from then on it is
registered in no collector and no collector resolves it. The only other way out of a registry is that
its collector is given up. So an object stays registered as long as it is held elsewhere. -/
theorem departure_is_final :
    (∀ depth steps later name spec, let s := (Program.runSteps depth steps (.start name spec)).2
      ∃ as bs, (initial 1).Legal (as ++ bs) ∧ s.heap = (initial 1).performs as ∧
        (Program.runSteps depth later s).2.heap = (initial 1).performs (as ++ bs)) ∧
    ∀ (n : Nat) (as : List Action), (initial n).Legal as →
      ((initial n).performs as).allocated < UInt64.size → ∀ (g : CollectorId) (h : Handle),
      (∀ before a after, as = before ++ a :: after →
        ((initial n).performs before).Registered g h →
        ¬ ((initial n).performs (before ++ [a])).Registered g h →
        a = .retire g ∨
          a.PassesOver ((initial n).performs before) g ∧
          ((initial n).performs before).holderCount h = 1 ∧
          ∀ later, later <+: after → ∀ g' kind,
            let w := (initial n).performs (before ++ a :: later)
            ¬ w.Registered g' h ∧ w.lookup g' kind h = none ∧ w.lookupBase g' h = none) ∧
      (∀ before during after, as = before ++ during ++ after → .retire g ∉ during →
        ((initial n).performs before).Registered g h →
        (∀ p, p <+: during → ((initial n).performs (before ++ p)).HeldElsewhere g h) →
        ((initial n).performs (before ++ during)).Registered g h) := by
  refine ⟨Program.runSteps_legal, fun n as hl hb g h => ⟨?_, ?_⟩⟩
  · rintro before a after rfl hr hn
    exact swept_of_legal hl hb hr hn
  · rintro before during after rfl hg hr hh
    rw [performs_append]
    exact registered_performs hg hr fun p hp => by rw [← performs_append]; exact hh p hp

/-- A registered object is dropped, a cleanup takes it out and releases it, and another collector
that is made later does not know it. -/
theorem departure_is_final_of_dropped :
    let x : Holder := ⟨.fresh 0, .whole⟩
    let before : List Action := [.addCollector 3, .allocate .node, .clone x, .register 0 x, .drop x]
    let after : List Action := [.release 0, .close 0, .addCollector 1]
    let w := (initial 1).performs (before ++ .cleanup 0 :: after)
    (initial 1).Legal (before ++ .cleanup 0 :: after) ∧
      ((initial 1).performs before).Registered 0 (.fresh 0) ∧
      ((initial 1).performs before).holderCount (.fresh 0) = 1 ∧
      ∀ g, ¬ w.Registered g (.fresh 0) := by
  intro x before after w
  have hl : (initial 1).Legal (before ++ .cleanup 0 :: after) := by decide +kernel
  have hb : w.allocated < UInt64.size := by decide +kernel
  have hr : ((initial 1).performs before).Registered 0 (.fresh 0) := by
    rw [Registered]; decide +kernel
  have hn : ¬ ((initial 1).performs (before ++ [.cleanup 0])).Registered 0 (.fresh 0) := by
    rw [Registered]; decide +kernel
  obtain ⟨hleave, -⟩ := departure_is_final.2 1 _ hl hb 0 (.fresh 0)
  rcases hleave before _ after rfl hr hn with he | ⟨-, hc, hd⟩
  · cases he
  · exact ⟨hl, hr, hc, fun g => (hd after (List.prefix_refl _) g .node).1⟩

end Heap

end SharedHeap
