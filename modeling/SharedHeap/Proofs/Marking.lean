import SharedHeap.Marking
import Mathlib.Data.List.Perm.Subperm

/-! # What a marking reaches

A scan is one step of the marking. It keeps the stack and the colours in agreement (`Consistent`),
and the coloured handles are always those that the links followed so far reach from the roots
(`Follows`). The links are an argument of each scan, so none of this needs them to stay the same from
one scan to the next; only `marked_mark`, about a marking that nothing interrupts, does. -/

namespace SharedHeap.Marker

variable {registered : Handle → Bool} {links : Handle → List Handle} {m : Marker}

/-! ## Colours after a step -/

@[simp] theorem color_empty (h : Handle) : ({} : Marker).color h = .white := by
  simp [color]

theorem color_insert (m : Marker) (k : Handle) (c : Color) (stack : List Handle) (h : Handle) :
    ({ m with colors := m.colors.insert k c, stack } : Marker).color h =
      if h = k then c else m.color h := by
  by_cases hk : h = k
  · subst hk; simp [color]
  · have hk' : k ≠ h := fun he => hk he.symm
    simp [color, Std.ExtTreeMap.getElem?_insert, hk, hk']

theorem color_shade (m : Marker) (k h : Handle) :
    (shade registered m k).color h =
      if h = k ∧ m.color h = .white ∧ registered h = true then .gray else m.color h := by
  unfold shade
  split
  · rename_i hw
    split
    · rename_i hr
      rw [color_insert]
      by_cases hk : h = k
      · subst hk; simp [hw, hr]
      · simp [hk]
    · rename_i hr
      by_cases hk : h = k
      · subst hk; simp [hr]; rfl
      · simp [hk]; rfl
  · rename_i hw
    have hw : ¬ m.color k = .white := hw
    by_cases hk : h = k
    · subst hk; simp [hw]
    · simp [hk]

/-- Shading a list turns exactly its white registered members gray. -/
theorem color_shades (l : List Handle) (m : Marker) (h : Handle) :
    (l.foldl (shade registered) m).color h =
      if h ∈ l ∧ m.color h = .white ∧ registered h = true then .gray else m.color h := by
  induction l generalizing m with
  | nil => simp
  | cons k rest ih =>
    rw [List.foldl_cons, ih, color_shade]
    by_cases hk : h = k
    · subst hk
      by_cases hw : m.color h = .white ∧ registered h = true
      · simp [hw]
      · simp [hw]
    · simp [hk]

theorem scan_nil (hs : m.stack = []) : m.scan registered links = m := by
  simp [scan, hs]

theorem scans_nil (hs : m.stack = []) (n : Nat) : m.scans registered links n = m := by
  induction n with
  | zero => rfl
  | succ n ih => rw [scans, scan_nil hs, ih]

/-- A scan blackens the top of the stack and turns the white registered handles it links to gray. -/
theorem color_scan {h : Handle} {rest : List Handle} (hs : m.stack = h :: rest) (k : Handle) :
    (m.scan registered links).color k =
      if k = h then .black
      else if k ∈ links h ∧ m.color k = .white ∧ registered k = true then .gray
      else m.color k := by
  unfold scan
  rw [hs]
  simp only
  rw [color_shades, color_insert]
  by_cases hk : k = h
  · simp [hk]
  · simp [hk]

theorem color_scan_eq_black_iff {h : Handle} {rest : List Handle} (hs : m.stack = h :: rest)
    (k : Handle) :
    (m.scan registered links).color k = .black ↔ k = h ∨ m.color k = .black := by
  rw [color_scan hs]
  split
  · simp [*]
  · split <;> simp_all

theorem color_scan_eq_black {k : Handle} (hk : m.color k = .black) :
    (m.scan registered links).color k = .black := by
  cases hs : m.stack with
  | nil => rwa [scan_nil hs]
  | cons h rest => exact (color_scan_eq_black_iff hs k).mpr (.inr hk)

theorem color_scan_ne_white {k : Handle} (hk : m.color k ≠ .white) :
    (m.scan registered links).color k ≠ .white := by
  cases hs : m.stack with
  | nil => rwa [scan_nil hs]
  | cons h rest =>
    rw [color_scan hs]
    split
    · decide
    · rwa [if_neg fun hh => hk hh.2.1]

/-! ## The stack agrees with the colours -/

/-- The stack holds the gray handles, each once, and only registered handles have a colour. -/
structure Consistent (registered : Handle → Bool) (m : Marker) : Prop where
  nodup : m.stack.Nodup
  mem_stack : ∀ h, h ∈ m.stack ↔ m.color h = .gray
  registered_of_ne : ∀ h, m.color h ≠ .white → registered h = true

theorem Consistent.empty : Consistent registered {} where
  nodup := List.nodup_nil
  mem_stack := by simp
  registered_of_ne := by simp

theorem Consistent.shade (hm : Consistent registered m) (k : Handle) :
    Consistent registered (shade registered m k) := by
  have hc := @color_shade registered m k
  by_cases hk : m.color k = .white ∧ registered k = true
  · have hs : (Marker.shade registered m k).stack = k :: m.stack := by
      simp [Marker.shade, hk]
    refine ⟨?_, ?_, ?_⟩
    · rw [hs]
      exact List.nodup_cons.mpr ⟨by rw [hm.mem_stack, hk.1]; decide, hm.nodup⟩
    · intro h
      rw [hs, hc, List.mem_cons, hm.mem_stack]
      by_cases he : h = k
      · subst he; simp [hk]
      · simp [he]
    · intro h hn
      rw [hc] at hn
      split at hn
      · rename_i hh; exact hh.2.2
      · exact hm.registered_of_ne h hn
  · have hs : (Marker.shade registered m k).stack = m.stack := by
      unfold Marker.shade
      split <;> [skip; rfl]
      split <;> [skip; rfl]
      exact absurd ⟨‹_›, ‹_›⟩ hk
    have hc' : ∀ h, (Marker.shade registered m k).color h = m.color h := by
      intro h
      rw [hc, if_neg]
      rintro ⟨rfl, hh⟩
      exact hk hh
    exact ⟨by rw [hs]; exact hm.nodup, fun h => by rw [hs, hc', hm.mem_stack],
      fun h hn => hm.registered_of_ne h (by rwa [hc'] at hn)⟩

theorem Consistent.shades (hm : Consistent registered m) (l : List Handle) :
    Consistent registered (l.foldl (Marker.shade registered) m) := by
  induction l generalizing m with
  | nil => exact hm
  | cons k rest ih => exact ih (hm.shade k)

theorem Consistent.start (roots : List Handle) : Consistent registered (start registered roots) :=
  Consistent.empty.shades roots

/-- The top of the stack may leave it and become black. -/
theorem Consistent.blacken (hm : Consistent registered m) {h : Handle} {rest : List Handle}
    (hs : m.stack = h :: rest) :
    Consistent registered { m with colors := m.colors.insert h .black, stack := rest } := by
  have hn := hm.nodup
  rw [hs, List.nodup_cons] at hn
  have hg : m.color h = .gray := (hm.mem_stack h).mp (by simp [hs])
  refine ⟨hn.2, ?_, ?_⟩
  · intro k
    rw [color_insert]
    by_cases hk : k = h
    · subst hk; simp [hn.1]
    · have := hm.mem_stack k
      simpa [hs, hk] using this
  · intro k hk
    rw [color_insert] at hk
    by_cases he : k = h
    · subst he; exact hm.registered_of_ne k (by rw [hg]; decide)
    · exact hm.registered_of_ne k (by simpa [he] using hk)

theorem Consistent.scan (hm : Consistent registered m) :
    Consistent registered (m.scan registered links) := by
  cases hs : m.stack with
  | nil => rw [scan_nil hs]; exact hm
  | cons h rest =>
    have := (hm.blacken hs).shades (links h)
    unfold Marker.scan
    rw [hs]
    exact this

theorem Consistent.scans (hm : Consistent registered m) (n : Nat) :
    Consistent registered (m.scans registered links n) := by
  induction n generalizing m with
  | zero => exact hm
  | succ n ih => exact ih hm.scan

theorem Consistent.color_ne_gray (hm : Consistent registered m) (hs : m.stack = []) (h : Handle) :
    m.color h ≠ .gray := by
  intro hg
  have hin := (hm.mem_stack h).mpr hg
  rw [hs] at hin
  exact List.not_mem_nil hin

/-! ## The stack empties -/

/-- The handles of a list that are still to be scanned. -/
def unscanned (hs : List Handle) (m : Marker) : List Handle := hs.filter fun h => m.color h != .black

theorem mem_unscanned {hs : List Handle} {h : Handle} :
    h ∈ unscanned hs m ↔ h ∈ hs ∧ m.color h ≠ .black := by
  simp [unscanned]

/-- A scan with something on the stack leaves fewer registered handles to be scanned. -/
theorem length_unscanned_scan_lt (links : Handle → List Handle) {hs : List Handle}
    (hm : Consistent registered m) (hall : ∀ h, registered h = true → h ∈ hs)
    (hne : m.stack ≠ []) :
    (unscanned hs (m.scan registered links)).length < (unscanned hs m).length := by
  obtain ⟨h, rest, hs'⟩ := List.exists_cons_of_ne_nil hne
  have hg : m.color h = .gray := (hm.mem_stack h).mp (by simp [hs'])
  have hin : h ∈ unscanned hs m :=
    mem_unscanned.mpr ⟨hall h (hm.registered_of_ne h (by rw [hg]; decide)), by rw [hg]; decide⟩
  have hsub : (unscanned hs (m.scan registered links)).Sublist ((unscanned hs m).filter (· != h)) := by
    unfold unscanned
    rw [List.filter_filter]
    apply List.monotone_filter_right
    intro k hk
    simp only [bne_iff_ne, ne_eq, Bool.and_eq_true] at hk ⊢
    rw [color_scan_eq_black_iff hs'] at hk
    exact ⟨fun he => hk (.inl he), fun hb => hk (.inr hb)⟩
  calc (unscanned hs (m.scan registered links)).length
      ≤ ((unscanned hs m).filter (· != h)).length := hsub.length_le
    _ < (unscanned hs m).length := by
      apply List.length_filter_lt_length_iff_exists.mpr
      exact ⟨h, hin, by simp⟩

/-- As many scans as there are handles to be scanned empty the stack. -/
theorem stack_scans {hs : List Handle} (hm : Consistent registered m)
    (hall : ∀ h, registered h = true → h ∈ hs) {n : Nat} (hn : (unscanned hs m).length ≤ n) :
    (m.scans registered links n).stack = [] := by
  induction n generalizing m with
  | zero =>
    by_contra hne
    have := length_unscanned_scan_lt links hm hall hne
    omega
  | succ n ih =>
    by_cases hne : m.stack = []
    · rw [scans_nil hne, hne]
    · have := length_unscanned_scan_lt links hm hall hne
      exact ih hm.scan (by omega)

/-! ## Reachability -/

/-- What roots reach by steps between registered handles. -/
inductive Reached (registered : Handle → Bool) (root : Handle → Prop)
    (edge : Handle → Handle → Prop) : Handle → Prop where
  | root {h} : root h → registered h = true → Reached registered root edge h
  | step {a b} : Reached registered root edge a → edge a b → registered b = true →
      Reached registered root edge b

variable {root : Handle → Prop} {edge edge' : Handle → Handle → Prop}

theorem Reached.mono {h : Handle} (hr : Reached registered root edge h)
    (he : ∀ a b, Reached registered root edge a → edge a b → edge' a b) :
    Reached registered root edge' h := by
  induction hr with
  | root hh hr => exact .root hh hr
  | step ha hab hr ih => exact .step ih (he _ _ ha hab) hr

/-- The coloured handles are those that the roots reach by the edges followed so far. -/
structure Follows (registered : Handle → Bool) (root : Handle → Prop)
    (edge : Handle → Handle → Prop) (m : Marker) : Prop where
  sound : ∀ h, m.color h ≠ .white → Reached registered root edge h
  rooted : ∀ h, root h → registered h = true → m.color h ≠ .white
  closed : ∀ a b, edge a b → registered b = true → m.color b ≠ .white

theorem Follows.color_ne_white_iff (hf : Follows registered root edge m) (h : Handle) :
    m.color h ≠ .white ↔ Reached registered root edge h := by
  refine ⟨hf.sound h, fun hr => ?_⟩
  cases hr with
  | root hh hr => exact hf.rooted h hh hr
  | step _ hab hr => exact hf.closed _ h hab hr

theorem Follows.start (roots : List Handle) :
    Follows registered (· ∈ roots) (fun _ _ => False) (start registered roots) := by
  have hc : ∀ h, (Marker.start registered roots).color h ≠ .white ↔
      h ∈ roots ∧ registered h = true := by
    intro h
    rw [Marker.start, color_shades]
    by_cases hh : h ∈ roots ∧ registered h = true
    · simp [hh]
    · rw [if_neg (by simpa using fun h₁ => by simpa [h₁] using hh)]
      simp [hh]
  refine ⟨fun h hh => ?_, fun h hh hr => (hc h).mpr ⟨hh, hr⟩, fun _ _ he => he.elim⟩
  obtain ⟨hm, hr⟩ := (hc h).mp hh
  exact .root hm hr

/-- A scan follows the links of the handle on top of the stack. -/
theorem Follows.scan (hf : Follows registered root edge m) (links : Handle → List Handle)
    (hm : Consistent registered m) {h : Handle} {rest : List Handle} (hs : m.stack = h :: rest) :
    Follows registered root (fun a b => edge a b ∨ (a = h ∧ b ∈ links h))
      (m.scan registered links) := by
  have hne : m.color h ≠ .white := by
    rw [(hm.mem_stack h).mp (by simp [hs])]; decide
  have hgrow : ∀ k, m.color k ≠ .white → (m.scan registered links).color k ≠ .white :=
    fun _ hk => color_scan_ne_white hk
  have hold : ∀ k, m.color k ≠ .white →
      Reached registered root (fun a b => edge a b ∨ (a = h ∧ b ∈ links h)) k :=
    fun k hk => (hf.sound k hk).mono fun _ _ _ he => .inl he
  refine ⟨fun k hk => ?_, fun k hk hr => hgrow k (hf.rooted k hk hr), fun a b hab hr => ?_⟩
  · by_cases hw : m.color k = .white
    · rw [color_scan hs] at hk
      split at hk
      · subst k; exact absurd hw hne
      · split at hk
        · rename_i hc; exact .step (hold h hne) (.inr ⟨rfl, hc.1⟩) hc.2.2
        · exact absurd hw hk
    · exact hold k hw
  · rcases hab with he | ⟨rfl, hb⟩
    · exact hgrow b (hf.closed a b he hr)
    · by_cases hw : m.color b = .white
      · rw [color_scan hs]
        split
        · decide
        · rw [if_pos ⟨hb, hw, hr⟩]; decide
      · exact hgrow b hw

/-- With links that stay the same, the links followed are those of the black handles. -/
theorem Follows.scan_links (hm : Consistent registered m)
    (hf : Follows registered root (fun a b => m.color a = .black ∧ b ∈ links a) m) :
    Follows registered root
      (fun a b => (m.scan registered links).color a = .black ∧ b ∈ links a)
      (m.scan registered links) := by
  cases hs : m.stack with
  | nil => rw [scan_nil hs]; exact hf
  | cons h rest =>
    have := hf.scan links hm hs
    convert this using 3 with a b
    rw [color_scan_eq_black_iff hs]
    grind

theorem Follows.scans (hm : Consistent registered m)
    (hf : Follows registered root (fun a b => m.color a = .black ∧ b ∈ links a) m) (n : Nat) :
    Follows registered root
      (fun a b => (m.scans registered links n).color a = .black ∧ b ∈ links a)
      (m.scans registered links n) := by
  induction n generalizing m with
  | zero => exact hf
  | succ n ih => exact ih hm.scan (hf.scan_links hm)

theorem color_start (roots : List Handle) (h : Handle) :
    (start registered roots).color h ≠ .black := by
  rw [start, color_shades]
  split <;> simp

/-- At the start no handle is black, and no link was followed. -/
theorem Follows.start_links (roots : List Handle) :
    Follows registered (· ∈ roots)
      (fun a b => (Marker.start registered roots).color a = .black ∧ b ∈ links a)
      (Marker.start registered roots) := by
  convert @Follows.start registered roots using 2
  simp [color_start]

/-! ## Links that change between scans -/

/-- Links lead from `a` to a handle by way of registered handles that were not reached, and neither were
these two. -/
inductive Leads (registered : Handle → Bool) (links : Handle → List Handle) (m : Marker)
    (a : Handle) : Handle → Prop where
  | here : registered a = true → m.color a = .white → Leads registered links m a a
  | step {b h} : Leads registered links m a b → h ∈ links b → registered h = true →
      m.color h = .white → Leads registered links m a h

theorem Leads.color_eq_white {a h : Handle} (hl : Leads registered links m a h) :
    m.color h = .white := by
  cases hl with
  | here _ hw => exact hw
  | step _ _ _ hw => exact hw

/-- No scanned handle links to a registered one that was not reached, unless that is in `gained`. -/
def Covered (registered : Handle → Bool) (links : Handle → List Handle) (gained : Handle → Prop)
    (m : Marker) : Prop :=
  ∀ a b, m.color a = .black → b ∈ links a → registered b = true → m.color b = .white → gained b

/-- The gray handles, and what they reach through white ones: it will be scanned if no link goes. -/
inductive Ahead (registered : Handle → Bool) (links : Handle → List Handle) (m : Marker) :
    Handle → Prop where
  | gray {h} : m.color h = .gray → Ahead registered links m h
  | white {a b} : Ahead registered links m a → b ∈ links a → registered b = true →
      m.color b = .white → Ahead registered links m b

variable {gained : Handle → Prop}

theorem Covered.start (roots : List Handle) :
    Covered registered links gained (start registered roots) :=
  fun a _ ha => absurd ha (color_start roots a)

theorem Covered.scan (hc : Covered registered links gained m) :
    Covered registered links gained (m.scan registered links) := by
  cases hs : m.stack with
  | nil => rwa [scan_nil hs]
  | cons h rest =>
    intro a b ha hab hr hw
    have hw' : m.color b = .white := by
      by_contra hn
      exact color_scan_ne_white hn hw
    rcases (color_scan_eq_black_iff hs a).mp ha with rfl | ha
    · -- what the scanned handle links to is reached now
      rw [color_scan hs] at hw
      split at hw
      · cases hw
      · rw [if_pos ⟨hab, hw', hr⟩] at hw
        cases hw
    · exact hc a b ha hab hr hw'

/-- Once nothing is gray, what coloured roots reach is black, or scanned handles gained a link from
which it is reached. -/
theorem Covered.black_or_leads (hc : Covered registered links gained m)
    (hm : Consistent registered m) (hs : m.stack = [])
    (hroot : ∀ h, root h → registered h = true → m.color h ≠ .white) {h : Handle}
    (hr : Reached registered root (fun a b => b ∈ links a) h) :
    m.color h = .black ∨ ∃ b, gained b ∧ Leads registered links m b h := by
  have hblack : ∀ k, m.color k ≠ .white → m.color k = .black := by
    intro k hk
    cases hcolor : m.color k with
    | white => exact absurd hcolor hk
    | gray => exact absurd hcolor (hm.color_ne_gray hs k)
    | black => rfl
  induction hr with
  | root hh hr => exact .inl (hblack _ (hroot _ hh hr))
  | @step a b _ hab hr ih =>
    by_cases hw : m.color b = .white
    · rcases ih with ha | ⟨c, hg, hl⟩
      · exact .inr ⟨b, hc a b ha hab hr hw, .here hr hw⟩
      · exact .inr ⟨c, hg, hl.step hab hr hw⟩
    · exact .inl (hblack b hw)

theorem Ahead.color_ne_black {h : Handle} (ha : Ahead registered links m h) : m.color h ≠ .black := by
  cases ha with
  | gray hg => rw [hg]; decide
  | white _ _ _ hw => rw [hw]; decide

theorem Ahead.registered_eq {h : Handle} (hm : Consistent registered m)
    (ha : Ahead registered links m h) : registered h = true := by
  cases ha with
  | gray hg => exact hm.registered_of_ne h (by rw [hg]; decide)
  | white _ _ hr _ => exact hr

/-- When nothing is gray, nothing is ahead. -/
theorem Ahead.false_of_nil {h : Handle} (hm : Consistent registered m) (hs : m.stack = [])
    (ha : Ahead registered links m h) : False := by
  induction ha with
  | gray hg => exact hm.color_ne_gray hs _ hg
  | white _ _ _ _ ih => exact ih

/-- Before the first scan, everything that coloured roots reach is ahead. -/
theorem Ahead.of_reached (hnone : ∀ h, m.color h ≠ .black)
    (hroot : ∀ h, root h → registered h = true → m.color h ≠ .white) {h : Handle}
    (hr : Reached registered root (fun a b => b ∈ links a) h) : Ahead registered links m h := by
  have hgray : ∀ k, m.color k ≠ .white → Ahead registered links m k := by
    intro k hk
    refine .gray ?_
    cases hcolor : m.color k with
    | white => exact absurd hcolor hk
    | gray => rfl
    | black => exact absurd hcolor (hnone k)
  induction hr with
  | root hh hr => exact hgray _ (hroot _ hh hr)
  | @step a b _ hab hr ih =>
    by_cases hw : m.color b = .white
    · exact .white ih hab hr hw
    · exact hgray b hw

/-- When links change, what was ahead still is, unless a handle to be scanned lost a link from which it
was reached. -/
theorem Ahead.or_lost {links' : Handle → List Handle} (hm : Consistent registered m) {h : Handle}
    (ha : Ahead registered links m h) :
    Ahead registered links' m h ∨ ∃ a b, registered a = true ∧ m.color a ≠ .black ∧ b ∈ links a ∧
      b ∉ links' a ∧ Leads registered links m b h := by
  induction ha with
  | gray hg => exact .inl (.gray hg)
  | @white a b ha hab hr hw ih =>
    rcases ih with ih | ⟨c, d, hc, hn, hcd, hlost, hl⟩
    · by_cases hkept : b ∈ links' a
      · exact .inl (.white ih hkept hr hw)
      · exact .inr ⟨a, b, ha.registered_eq hm, ha.color_ne_black, hab, hkept, .here hr hw⟩
    · exact .inr ⟨c, d, hc, hn, hcd, hlost, hl.step hab hr hw⟩

/-- A scan blackens the top of the stack; what else was ahead still is. -/
theorem Ahead.scan {h : Handle} (ha : Ahead registered links m h) :
    (m.scan registered links).color h = .black ∨
      Ahead registered links (m.scan registered links) h := by
  cases hs : m.stack with
  | nil => rw [scan_nil hs]; exact .inr ha
  | cons k rest =>
    -- along the path, a handle that is no longer white is gray, unless it is the one scanned
    induction ha with
    | @gray h hg =>
      by_cases hk : h = k
      · exact .inl ((color_scan_eq_black_iff hs h).mpr (.inl hk))
      · refine .inr (.gray ?_)
        rw [color_scan hs, if_neg hk, if_neg fun hh => by simp [hg] at hh, hg]
    | @white a b ha hab hr hw ih =>
      by_cases hk : b = k
      · exact .inl ((color_scan_eq_black_iff hs b).mpr (.inl hk))
      · by_cases hin : b ∈ links k
        · refine .inr (.gray ?_)
          rw [color_scan hs, if_neg hk, if_pos ⟨hin, hw, hr⟩]
        · have hw' : (m.scan registered links).color b = .white := by
            rw [color_scan hs, if_neg hk, if_neg fun hh => hin hh.1, hw]
          rcases ih with hb | ih
          · rcases (color_scan_eq_black_iff hs a).mp hb with rfl | hb
            · exact absurd hab hin
            · exact absurd hb ha.color_ne_black
          · exact .inr (.white ih hab hr hw')

/-! ## The whole marking -/

variable {size : Nat} {roots hs : List Handle}

/-- Nothing is gray once a marking is over. -/
theorem color_mark (hall : ∀ h, registered h = true → h ∈ hs) (hsize : hs.length ≤ size)
    (h : Handle) :
    (mark registered size links roots).color h = .white ∨
      (mark registered size links roots).color h = .black := by
  have hm : Consistent registered (start registered roots) := .start roots
  have hnil : (mark registered size links roots).stack = [] :=
    stack_scans hm hall (Nat.le_trans (List.length_filter_le ..) hsize)
  have hg : h ∈ (mark registered size links roots).stack ↔
      (mark registered size links roots).color h = .gray := (hm.scans size).mem_stack h
  rw [hnil] at hg
  cases hc : (mark registered size links roots).color h with
  | white => exact .inl rfl
  | gray => simp [hc] at hg
  | black => exact .inr rfl

/-- A marking marks exactly what the registered roots reach by links between registered handles. -/
theorem marked_mark (hall : ∀ h, registered h = true → h ∈ hs) (hsize : hs.length ≤ size)
    (h : Handle) :
    (mark registered size links roots).marked h = true ↔
      Reached registered (· ∈ roots) (fun a b => b ∈ links a) h := by
  have hf : Follows registered (· ∈ roots)
      (fun a b => (mark registered size links roots).color a = .black ∧ b ∈ links a)
      (mark registered size links roots) := (Follows.start_links roots).scans (.start roots) size
  have hblack : ∀ k, (mark registered size links roots).color k ≠ .white →
      (mark registered size links roots).color k = .black := fun k hk =>
    (color_mark hall hsize k).resolve_left hk
  simp only [marked, beq_iff_eq]
  constructor
  · intro hb
    exact (hf.sound h (by rw [hb]; decide)).mono fun _ _ _ he => he.2
  · intro hr
    refine hblack h ?_
    induction hr with
    | root hh hr => exact hf.rooted _ hh hr
    | step _ hab hr ih => exact hf.closed _ _ ⟨hblack _ ih, hab⟩ hr

/-- The number of marked handles counts the marked members of a list of the registered ones. -/
theorem markedCount_eq (hm : Consistent registered m) (hall : ∀ h, registered h = true → h ∈ hs)
    (hnd : hs.Nodup) : m.markedCount = (hs.filter m.marked).length := by
  have hkeys : (m.colors.toList.filter fun p => p.2 == .black).map (·.1) |>.Nodup := by
    have hsub : ((m.colors.toList.filter fun p => p.2 == .black).map (·.1)).Sublist m.colors.keys := by
      rw [← Std.ExtTreeMap.map_fst_toList_eq_keys]
      exact (List.filter_sublist).map _
    exact m.colors.nodup_keys.sublist hsub
  have hperm : ((m.colors.toList.filter fun p => p.2 == .black).map (·.1)).Perm
      (hs.filter m.marked) := by
    refine (List.perm_ext_iff_of_nodup hkeys (hnd.filter _)).mpr fun h => ?_
    have hcolor : (h, Color.black) ∈ m.colors.toList ↔ m.color h = .black := by
      rw [Std.ExtTreeMap.mem_toList_iff_getElem?_eq_some, color]
      cases m.colors[h]? with
      | none => simp
      | some c => simp
    constructor
    · intro hh
      obtain ⟨⟨k, c⟩, hp, rfl⟩ := List.mem_map.mp hh
      obtain ⟨hp, hc⟩ := List.mem_filter.mp hp
      obtain rfl : c = .black := by simpa using hc
      have hb := hcolor.mp hp
      exact List.mem_filter.mpr
        ⟨hall k (hm.registered_of_ne k (by rw [hb]; decide)), by simp [marked, hb]⟩
    · intro hh
      have hb := (List.mem_filter.mp hh).2
      exact List.mem_map.mpr ⟨(h, .black),
        List.mem_filter.mpr ⟨hcolor.mpr (by simpa [marked] using hb), by simp⟩, rfl⟩
  rw [← hperm.length_eq, List.length_map, markedCount, List.countP_eq_length_filter]

/-! ## Ignored links -/

theorem dangling_shade (hm : Consistent registered m) (k : Handle) :
    (shade registered m k).dangling = if registered k then m.dangling else k :: m.dangling := by
  unfold shade
  split
  · split <;> rfl
  · rename_i hw
    rw [if_pos (hm.registered_of_ne k hw)]

/-- To shade a list is to ignore its unregistered members, each of them once. -/
theorem dangling_shades (hm : Consistent registered m) (l : List Handle) :
    (l.foldl (shade registered) m).dangling =
      (l.filter fun k => !registered k).reverse ++ m.dangling := by
  induction l generalizing m with
  | nil => rfl
  | cons k rest ih =>
    rw [List.foldl_cons, ih (hm.shade k), dangling_shade hm]
    cases hr : registered k <;> simp [hr]

/-- The handles in the list, the latest first, are those that were scanned, and what was ignored are
their links to unregistered handles. -/
structure Ignores (registered : Handle → Bool) (links : Handle → List Handle) (m : Marker)
    (order : List Handle) : Prop where
  nodup : order.Nodup
  mem_order : ∀ h, h ∈ order ↔ m.color h = .black
  dangling : m.dangling = order.flatMap fun h => ((links h).filter fun k => !registered k).reverse

theorem Ignores.start (hroots : ∀ h ∈ roots, registered h = true) :
    Ignores registered links (start registered roots) [] := by
  have hnone : (roots.filter fun k => !registered k) = [] :=
    List.filter_eq_nil_iff.mpr fun h hh => by simp [hroots h hh]
  refine ⟨List.nodup_nil, fun h => by simp [color_start], ?_⟩
  rw [Marker.start, dangling_shades .empty, hnone]
  rfl

theorem Ignores.scan {order : List Handle} (hi : Ignores registered links m order)
    (hm : Consistent registered m) :
    ∃ order', Ignores registered links (m.scan registered links) order' := by
  cases hs : m.stack with
  | nil => exact ⟨order, by rwa [scan_nil hs]⟩
  | cons h rest =>
    have hg : m.color h = .gray := (hm.mem_stack h).mp (by simp [hs])
    refine ⟨h :: order, ?_, fun k => ?_, ?_⟩
    · exact List.nodup_cons.mpr ⟨by rw [hi.mem_order, hg]; decide, hi.nodup⟩
    · rw [color_scan_eq_black_iff hs, List.mem_cons, hi.mem_order]
    · rw [List.flatMap_cons, ← hi.dangling]
      unfold Marker.scan
      rw [hs]
      exact dangling_shades (hm.blacken hs) (links h)

theorem Ignores.scans {order : List Handle} (hi : Ignores registered links m order)
    (hm : Consistent registered m) (n : Nat) :
    ∃ order', Ignores registered links (m.scans registered links n) order' := by
  induction n generalizing m order with
  | zero => exact ⟨order, hi⟩
  | succ n ih =>
    obtain ⟨order', hi'⟩ := hi.scan hm
    exact ih hi' hm.scan

/-- A marking from registered roots ignores each link of a marked handle to an unregistered one, once
for each handle that it is a link of. -/
theorem dangling_mark (hroots : ∀ h ∈ roots, registered h = true) :
    ∃ order, Ignores registered links (mark registered size links roots) order :=
  (Ignores.start hroots).scans (.start roots) size

end SharedHeap.Marker
