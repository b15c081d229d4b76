import SharedHeap.Text.Digits
import SharedHeap.Text.Reader

/-!
The smallest parts of a TOML document: blanks, comments, line ends, strings and keys.
-/

namespace SharedHeap.Toml

open Text (Reader)

def isBlank (c : Char) : Bool := c == ' ' || c == '\t'

/-- Characters that comments and literal strings may hold: all but controls, the tab excepted. -/
def isText (c : Char) : Bool := c == '\t' || (' ' ≤ c && c ≤ '~') || '\x80' ≤ c

def skipBlanks (cs : List Char) : List Char := cs.dropWhile isBlank

def skipComment : List Char → List Char
  | '#' :: r => r.dropWhile isText
  | cs => cs

/-- What follows a line feed, alone or after a carriage return. -/
def afterNewline? : List Char → Option (List Char)
  | '\n' :: r => some r
  | '\r' :: '\n' :: r => some r
  | _ => none

/-- What follows the rest of a line that holds nothing but a comment. -/
def afterLine? (cs : List Char) : Option (List Char) :=
  match skipComment (skipBlanks cs) with
  | [] => some []
  | r => afterNewline? r

/-- Skips blanks, line ends and comments. -/
def skipLayout (inComment : Bool) : List Char → List Char
  | [] => []
  | '\r' :: '\n' :: r => skipLayout false r
  | c :: r =>
    if inComment && isText c then skipLayout true r
    else if c == '\n' || isBlank c then skipLayout false r
    else if c == '#' then skipLayout true r
    else c :: r

/-! ## Strings -/

/-- Puts a character in front of what was read. -/
def push (c : Char) : List Char × List Char → List Char × List Char
  | (cs, r) => (c :: cs, r)

/-- The character whose code point the hexadecimal digits write. -/
def scalar? (ds : List Char) : Option Char := do
  let n := Text.ofDigits 16 (← ds.mapM Text.hexDigitValue?)
  if n.isValidChar then some (Char.ofNat n) else none

/-- The character that a backslash and `c` stand for. -/
def escaped? : Char → Option Char
  | 'b' => some '\x08'
  | 't' => some '\t'
  | 'n' => some '\n'
  | 'f' => some '\x0c'
  | 'r' => some '\r'
  | '"' => some '"'
  | '\\' => some '\\'
  | _ => none

/-- The rest of a string on one line, after its opening quote. -/
def basicBody : List Char → Option (List Char × List Char)
  | [] => none
  | '"' :: r => some ([], r)
  | '\\' :: 'u' :: a :: b :: c :: d :: r => do
    return push (← scalar? [a, b, c, d]) (← basicBody r)
  | '\\' :: 'U' :: a :: b :: c :: d :: e :: f :: g :: h :: r => do
    return push (← scalar? [a, b, c, d, e, f, g, h]) (← basicBody r)
  | '\\' :: c :: r => do return push (← escaped? c) (← basicBody r)
  | c :: r => if isText c && c != '\\' then do return push c (← basicBody r) else none

/-- The end of a string on several lines: three quotes, and up to two more that belong to it. -/
def closing (quote : Char) (r : List Char) : List Char × List Char :=
  let more := min 2 (r.takeWhile (· == quote)).length
  (List.replicate more quote, r.drop more)

/-- The rest of a string on several lines. After a backslash at the end of a line, blanks and line
ends are left out. -/
def multilineBody (skipping : Bool) : List Char → Option (List Char × List Char)
  | [] => none
  | '"' :: '"' :: '"' :: r => some (closing '"' r)
  | '\\' :: 'u' :: a :: b :: c :: d :: r => do
    return push (← scalar? [a, b, c, d]) (← multilineBody false r)
  | '\\' :: 'U' :: a :: b :: c :: d :: e :: f :: g :: h :: r => do
    return push (← scalar? [a, b, c, d, e, f, g, h]) (← multilineBody false r)
  | '\\' :: c :: r =>
    match escaped? c with
    | some x => do return push x (← multilineBody false r)
    | none =>
      if (afterNewline? (skipBlanks (c :: r))).isSome then multilineBody true (c :: r) else none
  | '\r' :: '\n' :: r =>
    if skipping then multilineBody true r else do return push '\n' (← multilineBody false r)
  | '\n' :: r =>
    if skipping then multilineBody true r else do return push '\n' (← multilineBody false r)
  | c :: r =>
    if skipping && isBlank c then multilineBody true r
    else if isText c && c != '\\' then do return push c (← multilineBody false r)
    else none

/-- The rest of a literal string on one line. -/
def literalBody (cs : List Char) : Option (List Char × List Char) :=
  match cs.span fun c => isText c && c != '\'' with
  | (s, '\'' :: r) => some (s, r)
  | _ => none

/-- The rest of a literal string on several lines. -/
def multilineLiteralBody : List Char → Option (List Char × List Char)
  | [] => none
  | '\'' :: '\'' :: '\'' :: r => some (closing '\'' r)
  | '\r' :: '\n' :: r => do return push '\n' (← multilineLiteralBody r)
  | c :: r =>
    if c == '\n' || isText c then do return push c (← multilineLiteralBody r) else none

/-- A line end right after the opening quotes is not part of the string. -/
def trimNewline (cs : List Char) : List Char := (afterNewline? cs).getD cs

def string : Reader String := fun cs =>
  let body := match cs with
    | '"' :: '"' :: '"' :: r => multilineBody false (trimNewline r)
    | '"' :: r => basicBody r
    | '\'' :: '\'' :: '\'' :: r => multilineLiteralBody (trimNewline r)
    | '\'' :: r => literalBody r
    | _ => none
  body.map fun (s, r) => (String.ofList s, r)

/-! ## Keys -/

def isBare (c : Char) : Bool := c.isAlphanum || c == '-' || c == '_'

/-- One part of a key, quoted or bare. -/
def keyPart : Reader String
  | '"' :: r => (basicBody r).map fun (s, r) => (String.ofList s, r)
  | '\'' :: r => (literalBody r).map fun (s, r) => (String.ofList s, r)
  | cs =>
    match cs.span isBare with
    | ([], _) => none
    | (s, r) => some (String.ofList s, r)

/-- A key of at most `n` parts, with dots between them and blanks around each. -/
def keyParts : (n : Nat) → Reader (List String)
  | 0, _ => none
  | n + 1, cs => do
    let (k, r) ← keyPart (skipBlanks cs)
    match skipBlanks r with
    | '.' :: r =>
      let (ks, r) ← keyParts n r
      return (k :: ks, r)
    | r => return ([k], r)

/-- The number of parts that a key may have, and of arrays and inline tables in one another. -/
def depthLimit : Nat := 79

/-- A key: the parts that lead to its table, and the last one. -/
def key : Reader (List String × String) := fun cs => do
  let (ks, r) ← keyParts depthLimit cs
  let k ← ks.getLast?
  return ((ks.dropLast, k), r)

end SharedHeap.Toml
