/-!
Places in a text that are given by the number of bytes before them in UTF-8. A text can be divided
at such a place unless it lies within a character.
-/

namespace SharedHeap.Text

/-- The number of bytes that the characters take. -/
def byteCount : List Char → Nat
  | [] => 0
  | c :: cs => c.utf8Size + byteCount cs

@[simp] theorem byteCount_append (cs ds : List Char) :
    byteCount (cs ++ ds) = byteCount cs + byteCount ds := by
  induction cs with
  | nil => rw [List.nil_append, byteCount, Nat.zero_add]
  | cons c cs ih => rw [List.cons_append, byteCount, byteCount, ih, Nat.add_assoc]

/-- The first `n` bytes of a text, and the rest. -/
def splitAtByte? : Nat → List Char → Option (List Char × List Char)
  | 0, cs => some ([], cs)
  | _ + 1, [] => none
  | n + 1, c :: cs =>
    if c.utf8Size ≤ n + 1 then
      (splitAtByte? (n + 1 - c.utf8Size) cs).map fun (front, rest) => (c :: front, rest)
    else none

theorem splitAtByte?_append (front rest : List Char) :
    splitAtByte? (byteCount front) (front ++ rest) = some (front, rest) := by
  induction front with
  | nil => cases rest <;> rfl
  | cons c front ih =>
    have hpos := c.utf8Size_pos
    obtain ⟨n, hn⟩ : ∃ n, byteCount (c :: front) = n + 1 :=
      ⟨c.utf8Size + byteCount front - 1, by simp only [byteCount]; omega⟩
    have hrest : n + 1 - c.utf8Size = byteCount front := by simp only [byteCount] at hn; omega
    have hle : c.utf8Size ≤ n + 1 := by simp only [byteCount] at hn; omega
    rw [hn, List.cons_append, splitAtByte?, if_pos hle, hrest, ih]
    rfl

theorem eq_append_of_splitAtByte? {n : Nat} {cs front rest : List Char}
    (h : splitAtByte? n cs = some (front, rest)) : cs = front ++ rest ∧ byteCount front = n := by
  fun_induction splitAtByte? n cs generalizing front rest with
  | case1 cs => simp_all [byteCount]
  | case2 => simp at h
  | case3 n c cs hle ih =>
    obtain ⟨⟨front', rest'⟩, hsplit, heq⟩ := Option.map_eq_some_iff.mp h
    obtain ⟨rfl, rfl⟩ := Prod.mk.inj heq
    obtain ⟨rfl, hcount⟩ := ih hsplit
    exact ⟨rfl, by simp only [byteCount, hcount]; omega⟩
  | case4 => simp at h

/-- What lies from byte `start` on. -/
def fromByte? (start : Nat) (cs : List Char) : Option (List Char) :=
  (splitAtByte? start cs).map (·.2)

/-- What lies from byte `start` up to byte `stop`. -/
def betweenBytes? (start stop : Nat) (cs : List Char) : Option (List Char) := do
  let rest ← fromByte? start cs
  let (front, _) ← splitAtByte? (stop - start) rest
  return front

theorem fromByte?_append (front rest : List Char) :
    fromByte? (byteCount front) (front ++ rest) = some rest := by
  rw [fromByte?, splitAtByte?_append]
  rfl

theorem betweenBytes?_zero_append (front rest : List Char) :
    betweenBytes? 0 (byteCount front) (front ++ rest) = some front := by
  have hzero : fromByte? 0 (front ++ rest) = some (front ++ rest) := fromByte?_append [] _
  simp [betweenBytes?, hzero, splitAtByte?_append]

end SharedHeap.Text
