import SharedHeap.Text.Blank
import SharedHeap.Text.Pieces

/-!
Lines and words of a text.
-/

namespace SharedHeap.Text

def withoutReturn (line : List Char) : List Char :=
  if line.getLast? = some '\r' then line.dropLast else line

/-- The lines of a text. A line ends with a line feed, or with a carriage return and a line feed;
only what follows the last line feed may lack that, and counts unless it is empty. -/
def lines (cs : List Char) : List (List Char) :=
  let all := pieces '\n' cs
  let last := match all.getLast? with
    | none | some [] => []
    | some line => [line]
  all.dropLast.map withoutReturn ++ last

def words (cs : List Char) : List (List Char) :=
  let rec go : List Char → List Char × List (List Char)
    | [] => ([], [])
    | c :: cs =>
      let (word, rest) := go cs
      if isBlank c then ([], if word.isEmpty then rest else word :: rest)
      else (c :: word, rest)
  let (word, rest) := go cs
  if word.isEmpty then rest else word :: rest

end SharedHeap.Text
