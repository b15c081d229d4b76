import SharedHeap.Toml.Lexeme
import SharedHeap.Toml.Value

/-!
Numbers, dates and times. Integers have 64 bits. A float must not round to positive infinity, which
is decided exactly. A date has days that its month has; a time follows it after `T` or a blank and
may end with an offset.
-/

namespace SharedHeap.Toml

open Text (Reader)

/-! ## Digits -/

/-- Further digits, with single underscores between them. -/
def moreDigits (isDigit : Char → Bool) : List Char → Option (List Char × List Char)
  | [] => some ([], [])
  | '_' :: c :: r => if isDigit c then do return push c (← moreDigits isDigit r) else none
  | c :: r =>
    if isDigit c then do return push c (← moreDigits isDigit r)
    else if c == '_' then none
    else some ([], c :: r)

/-- One digit or more. -/
def digits (isDigit : Char → Bool) : List Char → Option (List Char × List Char)
  | c :: r => if isDigit c then do return push c (← moreDigits isDigit r) else none
  | [] => none

/-- The digits before a point: zero alone, or no leading zero. -/
def wholeDigits : List Char → Option (List Char × List Char)
  | '0' :: r => some (['0'], r)
  | cs => digits Char.isDigit cs

/-- The number that decimal or hexadecimal digits write. -/
def digitsValue (base : Nat) (ds : List Char) : Nat :=
  Text.ofDigits base (ds.filterMap Text.hexDigitValue?)

/-! ## Integers and floats -/

/-- An integer that 64 bits can hold. -/
def integer? (n : Int) : Option Value :=
  if Int64.minValue.toInt ≤ n ∧ n ≤ Int64.maxValue.toInt then some (.integer n) else none

/-- Whether `m * 10 ^ e` rounds to infinity: whether it is at least halfway from the largest number
of the format to the next power of two. -/
def overflows (m : Nat) (e : Int) : Bool :=
  if m = 0 then false
  else
    let length := Int.ofNat (Nat.toDigits 10 m).length + e
    if length ≤ 308 then false
    else if 310 < length then true
    else
      let limit := Nat.pow 2 1024 - Nat.pow 2 970
      if 0 ≤ e then limit ≤ m * Nat.pow 10 e.toNat else limit * Nat.pow 10 (-e).toNat ≤ m

def exponent (cs : List Char) : Option (Int × List Char) :=
  let (negative, cs) := match cs with
    | '+' :: r => (false, r)
    | '-' :: r => (true, r)
    | r => (false, r)
  (digits Char.isDigit cs).map fun (ds, r) =>
    let n := Int.ofNat (digitsValue 10 ds)
    (if negative then -n else n, r)

def float? (negative : Bool) (m : Nat) (e : Int) : Option Value :=
  if !negative && overflows m e then none else some .float

/-- A decimal integer or a float, after its sign. -/
def decimalNumber (negative : Bool) : Reader Value := fun cs => do
  let (whole, r) ← wholeDigits cs
  match r with
  | '.' :: r =>
    let (fraction, r) ← digits Char.isDigit r
    let m := digitsValue 10 (whole ++ fraction)
    let places := Int.ofNat fraction.length
    match r with
    | 'e' :: r | 'E' :: r =>
      let (e, r) ← exponent r
      return (← float? negative m (e - places), r)
    | r => return (← float? negative m (-places), r)
  | 'e' :: r | 'E' :: r =>
    let (e, r) ← exponent r
    return (← float? negative (digitsValue 10 whole) e, r)
  | r =>
    let n := Int.ofNat (digitsValue 10 whole)
    return (← integer? (if negative then -n else n), r)

/-- The digits of an integer in another base, after its mark. -/
def basedInteger (base : Nat) (isDigit : Char → Bool) : Reader Value := fun cs => do
  let (ds, r) ← digits isDigit cs
  return (← integer? (Int.ofNat (digitsValue base ds)), r)

def signedNumber (negative : Bool) : Reader Value
  | 'i' :: 'n' :: 'f' :: r => some (.float, r)
  | 'n' :: 'a' :: 'n' :: r => some (.float, r)
  | cs => decimalNumber negative cs

def number : Reader Value
  | '+' :: r => signedNumber false r
  | '-' :: r => signedNumber true r
  | '0' :: 'x' :: r => basedInteger 16 (fun c => (Text.hexDigitValue? c).isSome) r
  | '0' :: 'o' :: r => basedInteger 8 (fun c => '0' ≤ c && c ≤ '7') r
  | '0' :: 'b' :: r => basedInteger 2 (fun c => c == '0' || c == '1') r
  | cs => signedNumber false cs

/-! ## Dates and times -/

/-- Two digits whose number is at most `most`. -/
def twoDigits (most : Nat) : Reader Nat
  | a :: b :: r => do
    let n := (← Text.digitValue? a) * 10 + (← Text.digitValue? b)
    if n ≤ most then some (n, r) else none
  | _ => none

def isLeap (year : Nat) : Bool := year % 4 == 0 && (year % 100 != 0 || year % 400 == 0)

def daysOfMonth (year month : Nat) : Nat :=
  match month with
  | 2 => if isLeap year then 29 else 28
  | 4 | 6 | 9 | 11 => 30
  | _ => 31

/-- What follows a date, after its year. -/
def afterDate? (year : Nat) (cs : List Char) : Option (List Char) := do
  let (month, r) ← twoDigits 12 cs
  match r with
  | '-' :: r =>
    let (day, r) ← twoDigits 31 r
    if 1 ≤ month ∧ 1 ≤ day ∧ day ≤ daysOfMonth year month then some r else none
  | _ => none

def afterTime? (cs : List Char) : Option (List Char) := do
  let (_, r) ← twoDigits 23 cs
  match r with
  | ':' :: r =>
    let (_, r) ← twoDigits 59 r
    match r with
    | ':' :: r =>
      let (_, r) ← twoDigits 60 r
      match r with
      | '.' :: c :: r' => return if c.isDigit then r'.dropWhile Char.isDigit else r
      | _ => return r
    | _ => none
  | _ => none

/-- What follows the offset of a time, if it has one. -/
def afterOffset? (cs : List Char) : Option (List Char) :=
  match cs with
  | 'Z' :: r | 'z' :: r => some r
  | '+' :: r | '-' :: r => do
    let (_, r) ← twoDigits 23 r
    match r with
    | ':' :: r => return (← twoDigits 59 r).2
    | _ => none
  | r => some r

/-- Two digits and a colon begin a time. -/
def startsTime : List Char → Bool
  | a :: b :: ':' :: _ => a.isDigit && b.isDigit
  | _ => false

/-- A date, a time, both, or a number. -/
def numberOrDate : Reader Value := fun cs =>
  match cs with
  | a :: b :: c :: d :: '-' :: r =>
    if [a, b, c, d].all Char.isDigit then do
      let r ← afterDate? (digitsValue 10 [a, b, c, d]) r
      match r with
      | t :: r' =>
        if (t == 'T' || t == 't' || t == ' ') && startsTime r' then
          return (.dateTime, ← afterOffset? (← afterTime? r'))
        else return (.dateTime, r)
      | [] => return (.dateTime, [])
    else number cs
  | _ => if startsTime cs then (afterTime? cs).map (.dateTime, ·) else number cs

end SharedHeap.Toml
