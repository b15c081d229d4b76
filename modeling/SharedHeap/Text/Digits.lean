/-!
Numerals: the digits of a natural number in base ten and base sixteen, as answers print them.
-/

namespace SharedHeap.Text

/-- The decimal numeral of `n`, without leading zeros. -/
def decimal (n : Nat) : String := String.ofList (Nat.toDigits 10 n)

/-- The hexadecimal numeral of `n`, in lower case and without leading zeros. -/
def hexadecimal (n : Nat) : String := String.ofList (Nat.toDigits 16 n)

/-- The decimal numeral of an integer, with a sign only below zero. -/
def signedDecimal : Int → String
  | .ofNat n => decimal n
  | .negSucc n => "-" ++ decimal (n + 1)

def digitValue? (c : Char) : Option Nat :=
  if '0' ≤ c ∧ c ≤ '9' then some (c.toNat - '0'.toNat) else none

theorem digitValue?_eq_some_iff {c : Char} {d : Nat} :
    digitValue? c = some d ↔ c.isDigit = true ∧ c.toNat - '0'.toNat = d := by
  have hdigit : c.isDigit = true ↔ '0' ≤ c ∧ c ≤ '9' := by
    simp only [Char.isDigit, Bool.and_eq_true, decide_eq_true_eq]
    rfl
  simp only [digitValue?, Option.ite_none_right_eq_some, Option.some.injEq, hdigit]

theorem mapM_digitValue?_eq_some_iff {cs : List Char} {ds : List Nat} :
    cs.mapM digitValue? = some ds ↔
      (∀ c ∈ cs, c.isDigit = true) ∧ cs.map (·.toNat - '0'.toNat) = ds := by
  induction cs generalizing ds with
  | nil => simp
  | cons c cs ih =>
    simp only [List.mapM_cons, Option.bind_eq_bind, Option.bind_eq_some_iff, Option.pure_def,
      Option.some.injEq, digitValue?_eq_some_iff, ih, List.forall_mem_cons, List.map_cons]
    constructor
    · rintro ⟨_, ⟨hc, rfl⟩, _, ⟨hcs, rfl⟩, rfl⟩
      exact ⟨⟨hc, hcs⟩, rfl⟩
    · rintro ⟨⟨hc, hcs⟩, rfl⟩
      exact ⟨_, ⟨hc, rfl⟩, _, ⟨hcs, rfl⟩, rfl⟩

def hexDigitValue? (c : Char) : Option Nat :=
  if '0' ≤ c ∧ c ≤ '9' then some (c.toNat - '0'.toNat)
  else if 'a' ≤ c ∧ c ≤ 'f' then some (c.toNat - 'a'.toNat + 10)
  else if 'A' ≤ c ∧ c ≤ 'F' then some (c.toNat - 'A'.toNat + 10)
  else none

/-- The number written by a list of digits, most significant first. -/
def ofDigits (base : Nat) (ds : List Nat) : Nat := ds.foldl (fun n d => n * base + d) 0

/-- Reads a non-empty run of ASCII digits. -/
def readDecimal? (cs : List Char) : Option Nat :=
  match cs with
  | [] => none
  | _ => (cs.mapM digitValue?).map (ofDigits 10)

theorem readDecimal?_eq_some_iff {cs : List Char} {n : Nat} :
    readDecimal? cs = some n ↔
      cs ≠ [] ∧ (∀ c ∈ cs, c.isDigit = true) ∧ Nat.ofDigitChars 10 cs 0 = n := by
  have hvalue : ofDigits 10 (cs.map (·.toNat - '0'.toNat)) = Nat.ofDigitChars 10 cs 0 := by
    simp only [ofDigits, Nat.ofDigitChars, List.foldl_map, Nat.mul_comm]
  cases cs with
  | nil => simp [readDecimal?]
  | cons c cs =>
    simp only [readDecimal?, Option.map_eq_some_iff, mapM_digitValue?_eq_some_iff, ← hvalue]
    constructor
    · rintro ⟨_, ⟨hdigits, rfl⟩, rfl⟩
      exact ⟨List.cons_ne_nil c cs, hdigits, rfl⟩
    · rintro ⟨-, hdigits, rfl⟩
      exact ⟨_, ⟨hdigits, rfl⟩, rfl⟩

/-- Reads ASCII digits after at most one plus. -/
def readUnsigned? : List Char → Option Nat
  | '+' :: cs => readDecimal? cs
  | cs => readDecimal? cs

theorem readUnsigned?_eq_some_iff {cs : List Char} {n : Nat} :
    readUnsigned? cs = some n ↔
      ∃ sign digits, cs = sign ++ digits ∧ sign ∈ [[], ['+']] ∧ readDecimal? digits = some n := by
  constructor
  · intro h
    unfold readUnsigned? at h
    split at h
    · exact ⟨['+'], _, rfl, by simp, h⟩
    · exact ⟨[], cs, rfl, by simp, h⟩
  · rintro ⟨sign, digits, rfl, hsign, h⟩
    simp only [List.mem_cons, List.not_mem_nil, or_false] at hsign
    obtain rfl | rfl := hsign
    · obtain ⟨hne, hdigits, -⟩ := readDecimal?_eq_some_iff.mp h
      cases digits with
      | nil => exact absurd rfl hne
      | cons c cs =>
        have hc : c ≠ '+' := by
          rintro rfl
          cases hdigits '+' List.mem_cons_self
        rw [List.nil_append, readUnsigned?]
        · exact h
        · exact fun rest he => hc (List.cons.inj he).1
    · exact h

end SharedHeap.Text
