import SharedHeap.Heap

/-!
What steps answer.
-/

namespace SharedHeap.Program

/-- Why a step ends early. -/
inductive Failure where
  /-- No holder, handle or collector has this name. -/
  | unknown (name : String)
  /-- A table was needed and the holder has this kind. -/
  | wrongKind (kind : Kind)
  /-- The object is registered already. -/
  | registeredTwice (h : Handle)

/-- The name of a kind in answers. -/
def kindName : Kind → String
  | .object => "object"
  | .node => "node"
  | .probe => "probe"
  | .table => "table"

def Failure.message : Failure → String
  | unknown name => name
  | wrongKind kind => kindName kind
  | registeredTwice h => "handle " ++ h.text ++ " registered twice"

structure Summary where
  size : Nat
  pending : Nat
  collectionsRun : Nat
  objectsSwept : Nat
  state : CollectorState

/-- The slots of a bare registry, each with the number of holders of its object. -/
abbrev Slots := List (Handle × Nat)

mutual

inductive Reply where
  | nothing
  | flag (b : Bool)
  | count (n : Nat)
  | text (s : String)
  | handles (hs : List Handle)
  | value (v : Option Value)
  | stats (s : PassStats)
  /-- A holder was made; counted before it was dropped or bound. -/
  | bound (h : Handle) (holders : Nat)
  | created (h : Handle) (holders : Nat) (inner : List Answer)
  | hosts (stats : PassStats) (answers : List (List Answer))
  | inner (answers : List Answer)
  | pending (n : Nat)
  | handle (h : Handle)
  | table (size : Nat) (keys : List Key)
  | slots (s : Slots)
  | slot (h : Handle) (holders : Nat) (links : List Handle)
  | erased (holders : Option Nat) (state : Slots)
  | retained (swept : List Handle) (state : Slots)
  | failed (f : Failure)

/-- A step's result, its collector afterwards, and the hooks that ran directly within it. -/
inductive Answer where
  | mk (reply : Reply) (summary : Option Summary) (drops : List DropReport)

inductive DropReport where
  | mk (probe : String) (summary : Option Summary) (inner : List Answer)

end

end SharedHeap.Program
