/-!
Styles on a terminal. A style is set by a sequence of an escape character, a code and an `m`, and
ends with one more such sequence.
-/

namespace SharedHeap.Text

def styled (code text : String) : String := "\x1b[" ++ code ++ "m" ++ text ++ "\x1b[0m"

def dimmed (text : String) : String := styled "2" text

def italic (text : String) : String := styled "3" text

/-- A text without the sequences in it; one that does not end takes all the rest away. -/
def plain (inSequence : Bool) : List Char → List Char
  | [] => []
  | c :: cs =>
    if inSequence then plain (c != 'm') cs
    else if c == '\x1b' then plain true cs
    else c :: plain false cs

theorem plain_eq_self {cs : List Char} (h : '\x1b' ∉ cs) : plain false cs = cs := by
  induction cs with
  | nil => rfl
  | cons c cs ih =>
    simp only [List.mem_cons, not_or] at h
    simp [plain, Ne.symm h.1, ih h.2]

end SharedHeap.Text
