import SharedHeap.Json.Value
import SharedHeap.Text.Digits
import SharedHeap.Text.Reader

/-!
Reading JSON. Arrays and objects may be nested to a limit. A number with a point, an exponent or too
many digits is read as a float: its digits, as far as 64 bits can hold them, times or over a power
of ten; it must not be infinite.
-/

namespace SharedHeap.Json

open Text (Reader)

def skipBlanks (cs : List Char) : List Char :=
  cs.dropWhile fun c => c == ' ' || c == '\t' || c == '\n' || c == '\r'

/-! ## Numbers -/

/-- Puts digits behind the digits of a number while it fits into 64 bits; tells how many are left
out. -/
def appendDigits (n : Nat) : List Char → Nat × Nat
  | [] => (n, 0)
  | d :: ds =>
    let next := n * 10 + (d.toNat - '0'.toNat)
    if next < UInt64.size then appendDigits next ds else (n, ds.length + 1)

def tenTo (n : Nat) : Float := Float.ofScientific 1 false n

/-- `x * 10 ^ e`, unless it is infinite. Three divisions by `10 ^ 308` leave nothing of a number of
64 bits. -/
def scaled? : (divisions : Nat) → (x : Float) → (e : Int) → Option Float
  | divisions, x, e =>
    if e.natAbs ≤ 308 then
      if 0 ≤ e then
        let y := x * tenTo e.toNat
        if y.isInf then none else some y
      else some (x / tenTo (-e).toNat)
    else if x == 0 then some x
    else if 0 ≤ e then none
    else
      match divisions with
      | 0 => some 0
      | divisions + 1 => scaled? divisions (x / tenTo 308) (e + 308)

def exponent : Reader Int := fun cs =>
  let (negative, cs) := match cs with
    | '+' :: r => (false, r)
    | '-' :: r => (true, r)
    | r => (false, r)
  match cs.span Char.isDigit with
  | ([], _) => none
  | (ds, r) => do
    let n ← Text.readDecimal? ds
    return (if negative then -Int.ofNat n else Int.ofNat n, r)

/-- A float with the sign, the digits and the exponent. -/
def float? (negative : Bool) (n : Nat) (e : Int) : Option Value :=
  (scaled? 3 (UInt64.ofNat n).toFloat e).map fun x => .float (if negative then -x else x)

/-- An integer with the sign and the digits, if 64 bits can hold it; a float otherwise. -/
def whole (negative : Bool) (n : Nat) : Value :=
  if negative then
    if 0 < n ∧ 2 * n ≤ UInt64.size then .integer (-Int.ofNat n)
    else .float (-(UInt64.ofNat n).toFloat)
  else .integer n

def unsigned (negative : Bool) : Reader Value := fun cs => do
  let (ds, r) ← match cs with
    | '0' :: r => some (['0'], r)
    | r =>
      match r.span Char.isDigit with
      | ([], _) => none
      | (ds, r) => some (ds, r)
  let (n, left) := appendDigits 0 ds
  let (n, e, r, exact) ← match r with
    | '.' :: r =>
      match r.span Char.isDigit with
      | ([], _) => none
      | (fraction, r) =>
        let (n, unread) := appendDigits n fraction
        some (n, Int.ofNat left - Int.ofNat (fraction.length - unread), r, false)
    | r => some (n, Int.ofNat left, r, left == 0)
  match r with
  | 'e' :: r | 'E' :: r =>
    let (shift, r) ← exponent r
    return (← float? negative n (e + shift), r)
  | r => if exact then return (whole negative n, r) else return (← float? negative n e, r)

def number : Reader Value
  | '-' :: r => unsigned true r
  | cs => unsigned false cs

/-! ## Strings -/

/-- A part of a string: a character, or one of the units of 16 bits that a character is made of. -/
inductive Part where
  | char (c : Char)
  | unit (n : Nat)

/-- The unit that four hexadecimal digits write. -/
def unit? (ds : List Char) : Option Part := do
  return .unit (Text.ofDigits 16 (← ds.mapM Text.hexDigitValue?))

/-- The character that a backslash and `c` stand for. -/
def escaped? : Char → Option Char
  | '"' => some '"'
  | '\\' => some '\\'
  | '/' => some '/'
  | 'b' => some '\x08'
  | 'f' => some '\x0c'
  | 'n' => some '\n'
  | 'r' => some '\r'
  | 't' => some '\t'
  | _ => none

/-- The parts of a string, after its opening quote. -/
def parts : List Char → Option (List Part × List Char)
  | [] => none
  | '"' :: r => some ([], r)
  | '\\' :: 'u' :: a :: b :: c :: d :: r => do
    let part ← unit? [a, b, c, d]
    let (rest, r) ← parts r
    return (part :: rest, r)
  | '\\' :: c :: r => do
    let c ← escaped? c
    let (rest, r) ← parts r
    return (.char c :: rest, r)
  | c :: r =>
    if c < ' ' ∨ c = '\\' then none
    else do
      let (rest, r) ← parts r
      return (.char c :: rest, r)

/-- The characters of parts. Two units in a row make one character if they are the two halves of
one; a half alone makes none. -/
def joined? : List Part → Option (List Char)
  | [] => some []
  | .char c :: rest => do return c :: (← joined? rest)
  | .unit n :: .unit k :: rest =>
    if 0xd800 ≤ n ∧ n < 0xdc00 then
      if 0xdc00 ≤ k ∧ k < 0xe000 then do
        return Char.ofNat (0x10000 + (n - 0xd800) * 0x400 + (k - 0xdc00)) :: (← joined? rest)
      else none
    else if n.isValidChar then do return Char.ofNat n :: (← joined? (.unit k :: rest))
    else none
  | .unit n :: rest =>
    if n.isValidChar then do return Char.ofNat n :: (← joined? rest) else none

/-- A string, after its opening quote. -/
def stringBody : Reader String := fun cs => do
  let (ps, r) ← parts cs
  return (String.ofList (← joined? ps), r)

/-! ## Values -/

/-- The items of an array after its opening bracket or a comma, less than `n` characters long. -/
def items (value : Nat → Reader Value) : (n : Nat) → Reader (List Value)
  | 0, _ => none
  | n + 1, cs => do
    let (v, r) ← value n (skipBlanks cs)
    match skipBlanks r with
    | ',' :: r =>
      let (vs, r) ← items value n r
      return (v :: vs, r)
    | ']' :: r => return ([v], r)
    | _ => none

/-- The members of an object after its opening brace or a comma, less than `n` characters long. -/
def members (value : Nat → Reader Value) : (n : Nat) → Reader (List (String × Value))
  | 0, _ => none
  | n + 1, cs =>
    match skipBlanks cs with
    | '"' :: r => do
      let (name, r) ← stringBody r
      match skipBlanks r with
      | ':' :: r =>
        let (v, r) ← value n (skipBlanks r)
        match skipBlanks r with
        | ',' :: r =>
          let (ms, r) ← members value n r
          return ((name, v) :: ms, r)
        | '\x7d' :: r => return ([(name, v)], r)
        | _ => none
      | _ => none
    | _ => none

/-- A value that is neither an array nor an object. -/
def scalar : Reader Value
  | 'n' :: 'u' :: 'l' :: 'l' :: r => some (.null, r)
  | 't' :: 'r' :: 'u' :: 'e' :: r => some (.boolean true, r)
  | 'f' :: 'a' :: 'l' :: 's' :: 'e' :: r => some (.boolean false, r)
  | '"' :: r => (stringBody r).map fun (s, r) => (.string s, r)
  | cs => number cs

/-- A value less than `n` characters long, with arrays and objects nested at most `depth` deep. -/
def value : (depth : Nat) → (n : Nat) → Reader Value
  | 0, _, cs => scalar cs
  | depth + 1, n, cs =>
    match cs with
    | '[' :: r =>
      match skipBlanks r with
      | ']' :: r => some (.array [], r)
      | r => (items (value depth) n r).map fun (vs, r) => (.array vs, r)
    | '\x7b' :: r =>
      match skipBlanks r with
      | '\x7d' :: r => some (.object [], r)
      | r => (members (value depth) n r).map fun (ms, r) => (.object ms, r)
    | cs => scalar cs

/-- How deep arrays and objects may be nested. -/
def depthLimit : Nat := 127

def parse? (cs : List Char) : Option Value := do
  let (v, r) ← value depthLimit (cs.length + 1) (skipBlanks cs)
  if (skipBlanks r).isEmpty then some v else none

end SharedHeap.Json
