/-!
Lower case, as far as a comparison with an ASCII word can tell. Outside ASCII only the Kelvin sign
has an ASCII lower case, and the capital I with a dot above becomes an `i` with a combining dot;
every other character there has a lower case outside ASCII, so leaving it alone decides every such
comparison in the same way.
-/

namespace SharedHeap.Text

def lowerChar (c : Char) : List Char :=
  if c = '\u212a' then ['k']
  else if c = '\u0130' then ['i', '\u0307']
  else [c.toLower]

/-- The lower case of a text, as far as ASCII goes. An ASCII character has an ASCII one, and so has the
Kelvin sign. That of any other character may depend on where it stands, and is not all ASCII. -/
inductive LowerCase : List Char → List Char → Prop where
  | nil : LowerCase [] []
  | ascii {c : Char} {cs low : List Char} (hc : c.toNat < 128) (h : LowerCase cs low) :
      LowerCase (c :: cs) (c.toLower :: low)
  | kelvin {cs low : List Char} (h : LowerCase cs low) : LowerCase ('\u212a' :: cs) ('k' :: low)
  | other {c : Char} {cs l low : List Char} (hc : 128 ≤ c.toNat) (hl : ∃ d ∈ l, 128 ≤ d.toNat)
      (h : LowerCase cs low) : LowerCase (c :: cs) (l ++ low)

theorem toLower_of_le {c : Char} (h : 128 ≤ c.toNat) : c.toLower = c := by
  refine dif_neg ?_
  rintro ⟨-, hz⟩
  have : c.toNat ≤ 'Z'.toNat := hz
  exact absurd (Nat.le_trans h this) (by decide)

/-- The characters looked at one by one give a lower case. -/
theorem lowerCase_flatMap (cs : List Char) : LowerCase cs (cs.flatMap lowerChar) := by
  induction cs with
  | nil => exact .nil
  | cons c cs ih =>
    rw [List.flatMap_cons]
    by_cases hk : c = '\u212a'
    · subst hk
      exact .kelvin ih
    by_cases hi : c = '\u0130'
    · subst hi
      exact .other (by decide) ⟨'\u0307', by decide, by decide⟩ ih
    have hc : lowerChar c = [c.toLower] := by rw [lowerChar, if_neg hk, if_neg hi]
    rw [hc]
    by_cases hlow : c.toNat < 128
    · exact .ascii hlow ih
    · have hle : 128 ≤ c.toNat := Nat.le_of_not_lt hlow
      refine .other hle ⟨c, ?_, hle⟩ ih
      rw [toLower_of_le hle]
      exact List.mem_cons_self

/-- Only texts in ASCII have an ASCII word without a `k` as their lower case. -/
theorem LowerCase.eq_iff {cs low word : List Char} (h : LowerCase cs low)
    (hword : ∀ c ∈ word, c.toNat < 128 ∧ c ≠ 'k') :
    low = word ↔ cs.map Char.toLower = word := by
  induction h generalizing word with
  | nil => rfl
  | ascii _ _ ih =>
    cases word with
    | nil => simp
    | cons d word =>
      have hrest := ih fun c hc => hword c (List.mem_cons_of_mem d hc)
      simp only [List.map_cons, List.cons.injEq, hrest]
  | kelvin =>
    refine iff_of_false ?_ ?_
    · rintro rfl
      exact (hword 'k' List.mem_cons_self).2 rfl
    · rintro rfl
      exact absurd (hword _ List.mem_cons_self).1 (by decide)
  | other hc hl =>
    obtain ⟨d, hd, hlarge⟩ := hl
    refine iff_of_false ?_ ?_
    · rintro rfl
      exact absurd (hword d (List.mem_append_left _ hd)).1 (Nat.not_lt.mpr hlarge)
    · rintro rfl
      rw [List.map_cons, toLower_of_le hc] at hword
      exact absurd (hword _ List.mem_cons_self).1 (Nat.not_lt.mpr hc)

/-- Whether `s` in lower case is the ASCII word `word`. -/
def lowersTo (s : String) (word : String) : Bool := s.toList.flatMap lowerChar == word.toList

theorem toList_toLower (s : String) : s.toLower.toList = s.toList.map Char.toLower :=
  String.toList_map

theorem lowersTo_iff {s word : String} (h : ∀ c ∈ word.toList, c.toNat < 128 ∧ c ≠ 'k') :
    lowersTo s word = true ↔ s.toLower = word := by
  rw [lowersTo, beq_iff_eq, (lowerCase_flatMap s.toList).eq_iff h, ← toList_toLower,
    String.toList_inj]

end SharedHeap.Text
