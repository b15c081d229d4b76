/-!
JSON values.
-/

namespace SharedHeap.Json

/-- A value. Numbers that are written as integers and fit into 64 bits are kept exact. -/
inductive Value where
  | null
  | boolean (b : Bool)
  | integer (n : Int)
  | float (x : Float)
  | string (s : String)
  | array (items : List Value)
  /-- Members in the order in which they are written. Of members with one name the last counts. -/
  | object (members : List (String × Value))
deriving Inhabited

def member (name : String) (members : List (String × Value)) : Value :=
  ((members.reverse.find? (·.1 == name)).map (·.2)).getD .null

end SharedHeap.Json
