/-!
Texts divided by a character. Putting the pieces together again with that character between them
gives the text back, and no piece holds it.
-/

namespace SharedHeap.Text

/-- The pieces of a text between the occurrences of `separator`; always one more than those. -/
def pieces (separator : Char) : List Char → List (List Char)
  | [] => [[]]
  | c :: cs =>
    if c = separator then [] :: pieces separator cs
    else
      match pieces separator cs with
      | [] => [[c]]
      | piece :: rest => (c :: piece) :: rest

theorem pieces_ne_nil (separator : Char) (cs : List Char) : pieces separator cs ≠ [] := by
  cases cs with
  | nil => simp [pieces]
  | cons c cs =>
    rw [pieces]
    split
    · simp
    · split <;> simp

theorem length_pieces (separator : Char) (cs : List Char) :
    (pieces separator cs).length = cs.count separator + 1 := by
  induction cs with
  | nil => rfl
  | cons c cs ih =>
    by_cases h : c = separator
    · simp [pieces, h, ih]
    · have hne := pieces_ne_nil separator cs
      cases hp : pieces separator cs with
      | nil => exact absurd hp hne
      | cons piece rest => simp_all [pieces]

theorem intercalate_pieces (separator : Char) (cs : List Char) :
    [separator].intercalate (pieces separator cs) = cs := by
  induction cs with
  | nil => rfl
  | cons c cs ih =>
    have hne := pieces_ne_nil separator cs
    cases hp : pieces separator cs with
    | nil => exact absurd hp hne
    | cons piece rest =>
      rw [hp] at ih
      by_cases h : c = separator
      · subst h
        simpa [pieces, hp, List.intercalate, List.intersperse] using ih
      · cases rest <;> simp_all [pieces, List.intercalate, List.intersperse]

theorem separator_not_mem_pieces {separator : Char} {cs piece : List Char}
    (h : piece ∈ pieces separator cs) : separator ∉ piece := by
  induction cs generalizing piece with
  | nil => simp_all [pieces]
  | cons c cs ih =>
    rw [pieces] at h
    split at h
    · rcases List.mem_cons.mp h with rfl | h
      · simp
      · exact ih h
    · rename_i hc
      split at h
      · obtain rfl := List.mem_singleton.mp h
        simpa using Ne.symm hc
      · rename_i p rest hp
        rcases List.mem_cons.mp h with rfl | h
        · have hp := ih (hp ▸ List.mem_cons_self)
          simp [hp, Ne.symm hc]
        · exact ih (hp ▸ List.mem_cons_of_mem _ h)

theorem pieces_of_not_mem {separator : Char} {cs : List Char} (h : separator ∉ cs) :
    pieces separator cs = [cs] := by
  induction cs with
  | nil => rfl
  | cons c cs ih =>
    rw [List.mem_cons, not_or] at h
    rw [pieces, if_neg (Ne.symm h.1), ih h.2]

/-- An occurrence of the separator divides the pieces before it from those after it. -/
theorem pieces_append_cons (separator : Char) (as bs : List Char) :
    pieces separator (as ++ separator :: bs) = pieces separator as ++ pieces separator bs := by
  induction as with
  | nil => simp [pieces]
  | cons c as ih =>
    rw [List.cons_append, pieces, pieces, ih]
    split
    · rfl
    · obtain ⟨piece, rest, hp⟩ := List.exists_cons_of_ne_nil (pieces_ne_nil separator as)
      rw [hp]
      rfl

end SharedHeap.Text
