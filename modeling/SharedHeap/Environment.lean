/-!
The environment of a process: named values, which are bytes and need not be text.
-/

namespace SharedHeap

structure Environment where
  entries : List (String × ByteArray) := []

/-- The text of a variable. One whose bytes are not UTF-8 counts as unset. -/
def Environment.text? (env : Environment) (name : String) : Option String :=
  (env.entries.lookup name).bind String.fromUTF8?

end SharedHeap
