import SharedHeap.Text.CodePoints

/-!
Blank characters, and texts without the blanks around them.
-/

namespace SharedHeap.Text

/-- Characters with the property White_Space. -/
def blanks : CodePoints where
  changes := #[0x9, 0xe, 0x20, 0x21, 0x85, 0x86, 0xa0, 0xa1, 0x1680, 0x1681, 0x2000, 0x200b, 0x2028,
    0x202a, 0x202f, 0x2030, 0x205f, 0x2060, 0x3000, 0x3001]

def isBlank (c : Char) : Bool := blanks.contains c

/-- The ranges of code points with the property White_Space. -/
def WhiteSpace (c : Char) : Prop :=
  ∃ range ∈ [(0x9, 0xd), (0x20, 0x20), (0x85, 0x85), (0xa0, 0xa0), (0x1680, 0x1680),
      (0x2000, 0x200a), (0x2028, 0x2029), (0x202f, 0x202f), (0x205f, 0x205f), (0x3000, 0x3000)],
    range.1 ≤ c.toNat ∧ c.toNat ≤ range.2

theorem isBlank_iff {c : Char} : isBlank c = true ↔ WhiteSpace c := by
  simp (disch := decide) only [isBlank, blanks, CodePoints.contains,
    CodePoints.containsNat_cons_cons, CodePoints.containsNat_nil, WhiteSpace, Nat.lt_succ_iff,
    Bool.false_eq_true, List.mem_cons, List.not_mem_nil, exists_eq_or_imp, false_and, exists_false]

/-- The text without blanks at its two ends. -/
def trim (cs : List Char) : List Char :=
  ((cs.dropWhile isBlank).reverse.dropWhile isBlank).reverse

/-- Only blanks are taken off. -/
theorem exists_eq_append_trim (cs : List Char) :
    ∃ before after, cs = before ++ trim cs ++ after ∧
      (∀ c ∈ before, isBlank c = true) ∧ ∀ c ∈ after, isBlank c = true := by
  let rest := cs.dropWhile isBlank
  refine ⟨cs.takeWhile isBlank, (rest.reverse.takeWhile isBlank).reverse, ?_,
    fun c hc => List.all_eq_true.mp List.all_takeWhile c hc,
    fun c hc => List.all_eq_true.mp List.all_takeWhile c (List.mem_reverse.mp hc)⟩
  have hrest : trim cs ++ (rest.reverse.takeWhile isBlank).reverse = rest := by
    rw [trim, ← List.reverse_append, List.takeWhile_append_dropWhile, List.reverse_reverse]
  rw [List.append_assoc, hrest, List.takeWhile_append_dropWhile]

theorem dropWhile_append_isBlank {before cs : List Char} (hb : ∀ c ∈ before, isBlank c = true)
    (hc : ∀ c ∈ cs.head?, isBlank c = false) : (before ++ cs).dropWhile isBlank = cs := by
  rw [List.dropWhile_append_of_pos hb]
  cases cs with
  | nil => rfl
  | cons c cs => exact List.dropWhile_cons_of_neg (by simp [hc c rfl])

/-- All blanks are taken off. -/
theorem trim_append {before cs after : List Char} (hb : ∀ c ∈ before, isBlank c = true)
    (ha : ∀ c ∈ after, isBlank c = true) (hne : cs ≠ []) (hc : ∀ c ∈ cs, isBlank c = false) :
    trim (before ++ cs ++ after) = cs := by
  have hfirst : (before ++ cs ++ after).dropWhile isBlank = cs ++ after := by
    rw [List.append_assoc]
    obtain ⟨first, rest, rfl⟩ := List.exists_cons_of_ne_nil hne
    refine dropWhile_append_isBlank hb fun c h => hc c ?_
    obtain rfl := Option.some.inj h
    exact List.mem_cons_self
  have hlast : (cs ++ after).reverse.dropWhile isBlank = cs.reverse := by
    rw [List.reverse_append]
    refine dropWhile_append_isBlank (fun c h => ha c (List.mem_reverse.mp h)) fun c h => ?_
    exact hc c (List.mem_reverse.mp (List.mem_of_head? h))
  rw [trim, hfirst, hlast, List.reverse_reverse]

end SharedHeap.Text
