/-!
Readers of texts.
-/

namespace SharedHeap.Text

/-- Takes an `α` off the front of a text and returns the rest; fails if the front is not well
formed. -/
abbrev Reader (α : Type) := List Char → Option (α × List Char)

end SharedHeap.Text
