import SharedHeap.Proofs.Occurrences
import SharedHeap.Proofs.Turns
import SharedHeap.Table

/-! # Calls on a shared table

Threads that set and remove entries of one table come between the steps of each other's calls. What
holds at every moment is an account of the links: one for each entry that refers to an object, one for
each set that is still to put its entry, and one for each call that displaced an entry and is still to
forget its link. -/

namespace SharedHeap

/-! ## The links and the entries of a table -/

namespace Object

/-- The links to each object are those of the entries, and `extra` of them besides. -/
def Balanced (o : Object) (extra : Handle → Nat) : Prop :=
  ∀ h, h ≠ .null → o.links.count h = occurrences o.entries (.obj h) + extra h

/-- One link more to what `v` refers to, if it refers to an object. -/
def withLink (extra : Handle → Nat) (v : Option Value) (h : Handle) : Nat :=
  extra h + if v = some (.obj h) then 1 else 0

variable {o : Object} {extra : Handle → Nat}

theorem Balanced.congr {extra' : Handle → Nat} (hb : o.Balanced extra)
    (he : ∀ h, extra h = extra' h) : o.Balanced extra' := by
  intro h hn
  rw [hb h hn, he]

theorem balanced_new (kind : Kind) : ({ kind } : Object).Balanced fun _ => 0 := by
  intro h _
  have hempty : occurrences (∅ : Entries) (.obj h) = 0 := occurrences_empty _
  show (Bag.empty : Links).count h = occurrences (∅ : Entries) (.obj h) + 0
  rw [hempty, Bag.count_empty]

theorem count_recordValue (o : Object) (v : Value) {h : Handle} (hn : h ≠ .null) :
    (o.recordValue v).links.count h = o.links.count h + if v = .obj h then 1 else 0 := by
  cases v with
  | obj k =>
    show (o.link k).links.count h = _
    unfold link
    split
    · rename_i hk
      obtain rfl := (Handle.isNull_iff k).mp hk
      have hne : Value.obj .null ≠ .obj h := fun he => hn (Value.obj.inj he).symm
      rw [if_neg hne]
      rfl
    · show (o.links.add k).count h = _
      rw [Bag.count_add]
      by_cases he : k = h <;> simp [he]
  | _ => rfl

theorem count_forgetValue (o : Object) (previous : Option Value) (h : Handle) :
    (o.forgetValue previous).links.count h =
      o.links.count h - if previous = some (.obj h) then 1 else 0 := by
  rcases previous with _ | v
  · rfl
  · cases v with
    | obj k =>
      show (o.links.remove k).count h = _
      rw [Bag.count_remove]
      by_cases he : k = h <;> simp [he]
    | _ => rfl

theorem Balanced.recordValue (hb : o.Balanced extra) (v : Value) :
    (o.recordValue v).Balanced (withLink extra (some v)) := by
  intro h hn
  rw [count_recordValue o v hn, hb h hn, entries_recordValue, withLink, Nat.add_assoc]
  simp

theorem Balanced.putEntry {v : Value} (hb : o.Balanced (withLink extra (some v))) (k : Key) :
    (o.putEntry k v).2.Balanced (withLink extra (o.putEntry k v).1) := by
  intro h hn
  have hins := occurrences_insert o.entries k v (.obj h)
  show o.links.count h = occurrences (o.entries.insert k v) (.obj h) +
    (extra h + if o.entries[k]? = some (.obj h) then 1 else 0)
  rw [hb h hn]
  simp only [withLink, Option.some.injEq]
  omega

theorem Balanced.takeEntry (hb : o.Balanced extra) (k : Key) :
    (o.takeEntry k).2.Balanced (withLink extra (o.takeEntry k).1) := by
  intro h hn
  have herase := occurrences_erase o.entries k (.obj h)
  show o.links.count h = occurrences (o.entries.erase k) (.obj h) +
    (extra h + if o.entries[k]? = some (.obj h) then 1 else 0)
  rw [hb h hn]
  omega

theorem Balanced.forgetValue {previous : Option Value}
    (hb : o.Balanced (withLink extra previous)) : (o.forgetValue previous).Balanced extra := by
  intro h hn
  rw [count_forgetValue, hb h hn, entries_forgetValue, withLink]
  omega

theorem Balanced.set (hb : o.Balanced fun _ => 0) (k : Key) (v : Value) :
    (o.set k v).2.Balanced fun _ => 0 :=
  ((hb.recordValue v).putEntry k).forgetValue

theorem Balanced.remove (hb : o.Balanced fun _ => 0) (k : Key) :
    (o.remove k).2.Balanced fun _ => 0 :=
  (hb.takeEntry k).forgetValue

/-- A visible entry that refers to an object has its link. -/
theorem Balanced.hasLink (hb : o.Balanced extra) {k : Key} {h : Handle} (hn : h ≠ .null)
    (hk : o.get? k = some (.obj h)) : o.hasLink h = true := by
  have hpos : 0 < occurrences o.entries (.obj h) := occurrences_pos hk
  have hcount := hb h hn
  exact Bag.contains_of_count_pos (by omega)

/-! ## The null handle -/

theorem recordValue_null (o : Object) : o.recordValue (.obj .null) = o := rfl

theorem forgetValue_null (hn : o.hasLink .null = false) :
    o.forgetValue (some (.obj .null)) = o := by
  show { o with links := o.links.remove .null } = o
  rw [Bag.remove_of_not_contains hn]

theorem tight_recordValue (ht : o.links.Tight) (v : Value) : (o.recordValue v).links.Tight := by
  unfold recordValue link
  split
  · split
    · exact ht
    · exact Bag.tight_add ht _
  · exact ht

theorem tight_forgetValue (ht : o.links.Tight) (previous : Option Value) :
    (o.forgetValue previous).links.Tight := by
  unfold forgetValue
  split
  · exact Bag.tight_remove ht _
  · exact ht

/-- There is no link to the null handle, and none with count zero. -/
def Tidy (o : Object) : Prop := o.links.Tight ∧ o.links.count .null = 0

theorem Tidy.recordValue (hs : o.Tidy) (v : Value) : (o.recordValue v).Tidy := by
  refine ⟨tight_recordValue hs.1 v, ?_⟩
  unfold Object.recordValue link
  split
  · rename_i k hk
    split
    · exact hs.2
    · rename_i hn
      have hne : k ≠ .null := fun he => hn ((Handle.isNull_iff k).mpr he)
      show (o.links.add k).count .null = 0
      rw [Bag.count_add, if_neg hne, hs.2]
  · exact hs.2

theorem Tidy.forgetValue (hs : o.Tidy) (previous : Option Value) :
    (o.forgetValue previous).Tidy := by
  refine ⟨tight_forgetValue hs.1 previous, ?_⟩
  rw [count_forgetValue, hs.2, Nat.zero_sub]

theorem Tidy.hasLink_null (hs : o.Tidy) : o.hasLink .null = false := by
  rw [← Bool.not_eq_true, hasLink, Bag.contains_iff_count_pos hs.1, hs.2]
  exact Nat.lt_irrefl 0

end Object

/-! ## Threads -/

inductive TableCall where
  | set (k : Key) (v : Value)
  | remove (k : Key)

/-- How far a call in progress has come. -/
inductive Progress where
  /-- The link of the value is recorded, and the entry is still to be put. -/
  | recorded (k : Key) (v : Value)
  /-- The entry was put or taken out, and the link of what it displaced is still to be forgotten. -/
  | displaced (previous : Option Value)

/-- A thread that makes calls on a table one after another. -/
structure Caller where
  calls : List TableCall
  progress : Option Progress := none

namespace Caller

/-- One step of a call. -/
def step (o : Object) (c : Caller) : Object × Caller :=
  match c.progress, c.calls with
  | none, [] => (o, c)
  | none, .set k v :: rest => (o.recordValue v, ⟨rest, some (.recorded k v)⟩)
  | none, .remove k :: rest => ((o.takeEntry k).2, ⟨rest, some (.displaced (o.takeEntry k).1)⟩)
  | some (.recorded k v), calls =>
    ((o.putEntry k v).2, ⟨calls, some (.displaced (o.putEntry k v).1)⟩)
  | some (.displaced previous), calls => (o.forgetValue previous, ⟨calls, none⟩)

/-- The call in progress has recorded a link to `h` and is still to put the entry. -/
def hasRecorded (h : Handle) (c : Caller) : Bool :=
  match c.progress with
  | some (.recorded _ v) => v = .obj h
  | _ => false

/-- The call in progress has displaced an entry that refers to `h` and is still to forget its link. -/
def hasDisplaced (h : Handle) (c : Caller) : Bool :=
  match c.progress with
  | some (.displaced previous) => previous = some (.obj h)
  | _ => false

/-- The value whose link the call in progress accounts for. -/
def inHand (c : Caller) : Option Value :=
  match c.progress with
  | none => none
  | some (.recorded _ v) => some v
  | some (.displaced previous) => previous

variable {o : Object} {extra : Handle → Nat}

theorem tidy_step (ht : o.Tidy) (c : Caller) : (c.step o).1.Tidy := by
  obtain ⟨calls, progress⟩ := c
  rcases progress with _ | ⟨k, v⟩ | previous
  · rcases calls with _ | ⟨k, v⟩ | k
    · exact ht
    · exact ht.recordValue v
    · exact ht
  · exact ht
  · exact ht.forgetValue previous

/-- A step of one call hands over what it accounts for. -/
theorem balanced_step {c : Caller} (hb : o.Balanced (Object.withLink extra c.inHand)) :
    (c.step o).1.Balanced (Object.withLink extra (c.step o).2.inHand) := by
  have hnone : ∀ h, Object.withLink extra none h = extra h := fun h => by simp [Object.withLink]
  obtain ⟨calls, progress⟩ := c
  rcases progress with _ | ⟨k, v⟩ | previous
  · rcases calls with _ | ⟨k, v⟩ | k
    · exact hb
    · exact (hb.congr hnone).recordValue v
    · exact (hb.congr hnone).takeEntry k
  · exact hb.putEntry k
  · exact hb.forgetValue.congr fun h => (hnone h).symm

/-- The calls in progress that account for a link to `h`. -/
def inFlight (callers : List Caller) (h : Handle) : Nat :=
  callers.countP fun c => c.inHand = some (.obj h)

theorem inFlight_eq (callers : List Caller) (h : Handle) :
    inFlight callers h =
      callers.countP (·.hasRecorded h) + callers.countP (·.hasDisplaced h) := by
  have hone : ∀ c : Caller, (if c.inHand = some (.obj h) then 1 else 0) =
      (if c.hasRecorded h then 1 else 0) + if c.hasDisplaced h then 1 else 0 := by
    rintro ⟨calls, _ | ⟨k, v⟩ | previous⟩
    · simp [inHand, hasRecorded, hasDisplaced]
    · simp [inHand, hasRecorded, hasDisplaced]
    · by_cases he : previous = some (.obj h) <;> simp [inHand, hasRecorded, hasDisplaced, he]
  induction callers with
  | nil => rfl
  | cons c rest ih =>
    have hone := hone c
    simp only [inFlight, List.countP_cons, decide_eq_true_eq] at ih ⊢
    omega

theorem inFlight_eq_zero {callers : List Caller} (hidle : ∀ c ∈ callers, c.progress = none)
    (h : Handle) : inFlight callers h = 0 := by
  rw [inFlight, List.countP_eq_zero]
  intro c hc
  simp [inHand, hidle c hc]

theorem inFlight_append_cons (l₁ l₂ : List Caller) (c : Caller) (h : Handle) :
    inFlight (l₁ ++ c :: l₂) h = Object.withLink (inFlight (l₁ ++ l₂)) c.inHand h := by
  simp only [inFlight, List.countP_append, List.countP_cons, Object.withLink, decide_eq_true_eq]
  omega

/-- A new table, and a thread for each list of calls. -/
def start (calls : List (List TableCall)) : Turns Object Caller :=
  ⟨{ kind := .table }, calls.map fun cs => { calls := cs }⟩

theorem balanced_play (calls : List (List TableCall)) (schedule : List Nat) :
    let s := (start calls).play step schedule
    s.shared.Tidy ∧ s.shared.Balanced (inFlight s.threads) := by
  refine Turns.play_invariant (I := fun (o : Object) callers => o.Tidy ∧ o.Balanced (inFlight callers))
    (fun o l₁ c l₂ ⟨ht, hb⟩ => ⟨tidy_step ht c, ?_⟩)
    ⟨⟨Bag.tight_empty, rfl⟩, (Object.balanced_new .table).congr fun h => ?_⟩ schedule
  · refine Object.Balanced.congr (balanced_step (hb.congr (inFlight_append_cons l₁ l₂ c))) fun h => ?_
    exact (inFlight_append_cons l₁ l₂ _ h).symm
  · refine (inFlight_eq_zero (fun c hc => ?_) h).symm
    obtain ⟨cs, -, rfl⟩ := List.mem_map.mp hc
    rfl

/-- **The links of a shared table cover its entries.** Whatever calls threads make on a table, and
whoever takes a step when: for every object the links to it are as many as the entries that refer to
it, the sets that have recorded a link to it and are still to put their entry, and the calls that have
displaced an entry that referred to it and are still to forget its link. So a visible entry that refers
to an object has its link, a call that is to forget a link finds it, and with no call in progress the
links are those of the entries. The null handle is no object: its values neither add a link nor take
one away. A call that nobody comes between is the operation on the table. -/
theorem links_cover_entries (calls : List (List TableCall)) (schedule : List Nat) :
    let s := (start calls).play step schedule
    (∀ h, h ≠ .null → s.shared.links.count h = occurrences s.shared.entries (.obj h) +
      s.threads.countP (·.hasRecorded h) + s.threads.countP (·.hasDisplaced h)) ∧
    (∀ k h, h ≠ .null → s.shared.get? k = some (.obj h) → s.shared.hasLink h = true) ∧
    (∀ c ∈ s.threads, ∀ h, h ≠ .null → c.progress = some (.displaced (some (.obj h))) →
      s.shared.hasLink h = true ∧
        (c.step s.shared).1.links.count h + 1 = s.shared.links.count h) ∧
    ((∀ c ∈ s.threads, c.progress = none) → ∀ h, s.shared.links.count h =
      if h = .null then 0 else occurrences s.shared.entries (.obj h)) ∧
    (s.shared.hasLink .null = false ∧ s.shared.recordValue (.obj .null) = s.shared ∧
      s.shared.forgetValue (some (.obj .null)) = s.shared) ∧
    ∀ (o : Object) (rest : List TableCall) (k : Key) (v : Value),
      Turns.play step ⟨o, [⟨.set k v :: rest, none⟩]⟩ [0, 0, 0] =
        ⟨(o.set k v).2, [⟨rest, none⟩]⟩ ∧
      Turns.play step ⟨o, [⟨.remove k :: rest, none⟩]⟩ [0, 0] =
        ⟨(o.remove k).2, [⟨rest, none⟩]⟩ := by
  intro s
  obtain ⟨ht, hb⟩ : s.shared.Tidy ∧ s.shared.Balanced (inFlight s.threads) :=
    balanced_play calls schedule
  refine ⟨fun h hn => ?_, fun k h hn hk => hb.hasLink hn hk, fun c hc h hn hp => ?_,
    fun hidle h => ?_, ⟨ht.hasLink_null, s.shared.recordValue_null,
      Object.forgetValue_null ht.hasLink_null⟩, fun o rest k v => ⟨rfl, rfl⟩⟩
  · rw [hb h hn, inFlight_eq, Nat.add_assoc]
  · have hpos : 0 < inFlight s.threads h :=
      List.countP_pos_iff.mpr ⟨c, hc, by simp [inHand, hp]⟩
    have hcount := hb h hn
    have hstep : (c.step s.shared).1 = s.shared.forgetValue (some (.obj h)) := by
      simp [step, hp]
    refine ⟨Bag.contains_of_count_pos (by omega), ?_⟩
    rw [hstep, Object.count_forgetValue, if_pos rfl]
    omega
  · split
    · rename_i he
      rw [he, ht.2]
    · rename_i hn
      rw [hb h hn, inFlight_eq_zero hidle, Nat.add_zero]

/-- Two threads set the same key to the same object. The first one's entry is put and displaced by the
second one's, and nobody has forgotten a link yet: two links, one visible entry, one call that
displaced an entry. -/
theorem links_cover_entries_of_race :
    let h : Handle := .fresh 4
    let calls : List (List TableCall) := [[.set (.int 1) (.obj h)], [.set (.int 1) (.obj h)]]
    let s := (start calls).play step [0, 1, 0, 1]
    h ≠ .null ∧ s.shared.links.count h = 2 ∧ occurrences s.shared.entries (.obj h) = 1 ∧
      s.threads.countP (·.hasRecorded h) = 0 ∧ s.threads.countP (·.hasDisplaced h) = 1 ∧
      s.shared.get? (.int 1) = some (.obj h) ∧ s.shared.hasLink h = true := by
  intro h calls s
  have hn : h ≠ .null := by decide
  have hentries : occurrences s.shared.entries (.obj h) = 1 := by decide +kernel
  have hrecorded : s.threads.countP (·.hasRecorded h) = 0 := by decide +kernel
  have hdisplaced : s.threads.countP (·.hasDisplaced h) = 1 := by decide +kernel
  have hk : s.shared.get? (.int 1) = some (.obj h) := by decide +kernel
  obtain ⟨hcount, hlink, -⟩ := links_cover_entries calls [0, 1, 0, 1]
  refine ⟨hn, ?_, hentries, hrecorded, hdisplaced, hk, hlink _ h hn hk⟩
  have hcount : s.shared.links.count h = _ := hcount h hn
  rw [hcount, hentries, hrecorded, hdisplaced]

end Caller

end SharedHeap
