import SharedHeap.Json.Quoted
import SharedHeap.Json.Value

/-!
Writing JSON. A float is written with all of its decimals and always with a point, so that it reads
back as the same float.
-/

namespace SharedHeap.Json

/-- The decimals of `n` over a power of ten, without zeros at their end but for one. -/
def decimals (n places : Nat) : String :=
  let ds := Nat.toDigits 10 n
  let ds := List.replicate (places + 1 - ds.length) '0' ++ ds
  let front := ds.length - places
  let fraction := ((ds.drop front).reverse.dropWhile (· == '0')).reverse
  String.ofList (ds.take front) ++ "." ++ if fraction.isEmpty then "0" else String.ofList fraction

/-- The text of a finite float. Its bits are a sign, an exponent and a significand, which has one
more bit if the exponent is not zero. -/
def floatText (x : Float) : String :=
  let bits := x.toBits.toNat
  let significand := bits % Nat.pow 2 52
  let exponent := bits / Nat.pow 2 52 % Nat.pow 2 11
  let sign := if bits < Nat.pow 2 63 then "" else "-"
  let n := if exponent = 0 then significand else significand + Nat.pow 2 52
  let exponent := max exponent 1
  if 1075 ≤ exponent then sign ++ decimals (n * Nat.pow 2 (exponent - 1075)) 0
  else sign ++ decimals (n * Nat.pow 5 (1075 - exponent)) (1075 - exponent)

mutual

def Value.text : Value → String
  | .null => "null"
  | .boolean b => if b then "true" else "false"
  | .integer n => Text.signedDecimal n
  | .float x => floatText x
  | .string s => quoted s
  | .array items => "[" ++ ",".intercalate (itemTexts items) ++ "]"
  | .object members => "\x7b" ++ ",".intercalate (memberTexts members) ++ "\x7d"

def itemTexts : List Value → List String
  | [] => []
  | v :: vs => v.text :: itemTexts vs

def memberTexts : List (String × Value) → List String
  | [] => []
  | (name, v) :: ms => (quoted name ++ ":" ++ v.text) :: memberTexts ms

end

end SharedHeap.Json
