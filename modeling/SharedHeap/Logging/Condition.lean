import SharedHeap.Text.Pattern

/-!
Conditions on fields: a field must be there, and may have to have a value. A value is a number or a
pattern.
-/

namespace SharedHeap.Logging

structure FieldCondition where
  name : String
  value : Option String
  deriving DecidableEq

namespace FieldCondition

/-- Whether a text is the name of infinity or of what is no number. -/
def isNonfinite (cs : List Char) : Bool :=
  ["inf", "infinity", "nan"].any fun name => cs.map Char.toLower == name.toList

/-- Whether a text is a decimal number without a sign: digits, perhaps with a point before, between
or after them, and perhaps with an exponent. -/
def isFinite (cs : List Char) : Bool :=
  let (whole, r) := cs.span Char.isDigit
  let (fraction, r) := match r with
    | '.' :: r => r.span Char.isDigit
    | r => ([], r)
  (!whole.isEmpty || !fraction.isEmpty) &&
    match r with
    | [] => true
    | 'e' :: r | 'E' :: r => isExponent r
    | _ => false
where
  isExponent : List Char → Bool
    | '+' :: cs | '-' :: cs => isDigits cs
    | cs => isDigits cs
  isDigits (cs : List Char) : Bool := !cs.isEmpty && cs.all Char.isDigit

def isNumber : List Char → Bool
  | '+' :: cs | '-' :: cs => isFinite cs || isNonfinite cs
  | cs => isFinite cs || isNonfinite cs

/-- Reads a name, and a value after `=` if there is one. What follows another `=` counts for
nothing. -/
def read? (cs : List Char) : Option FieldCondition :=
  let (name, r) := cs.span (· != '=')
  match r with
  | [] => some ⟨String.ofList name, none⟩
  | _ :: r =>
    let value := r.takeWhile (· != '=')
    if isNumber value || Text.isPattern value then
      some ⟨String.ofList name, some (String.ofList value)⟩
    else none

end FieldCondition

end SharedHeap.Logging
