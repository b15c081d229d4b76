import SharedHeap.Handle

/-!
Marking. Every registered handle that a root reaches by links is marked, in three colours: white
handles were not reached yet, gray ones were reached and wait on a stack, black ones were reached
and their links were followed. Links to handles that are not registered are noted and ignored.

One step takes the top of the stack, and a handle is put there only once, so as many steps as there
are registered handles are enough to empty the stack.
-/

namespace SharedHeap

/-- How far the marking of a handle has come. -/
inductive Color where
  | white
  | gray
  | black
  deriving DecidableEq

/-- A marking in progress. Handles without a colour are white. -/
structure Marker where
  colors : Std.ExtTreeMap Handle Color := ∅
  /-- Gray handles, the next one to be scanned first. -/
  stack : List Handle := []
  /-- Links to unregistered handles met so far, the latest first. -/
  dangling : List Handle := []

namespace Marker

def color (m : Marker) (h : Handle) : Color := m.colors[h]?.getD .white

/-- Puts a white registered handle on the stack. -/
def shade (registered : Handle → Bool) (m : Marker) (h : Handle) : Marker :=
  match m.color h with
  | .white =>
    if registered h then { m with colors := m.colors.insert h .gray, stack := h :: m.stack }
    else { m with dangling := h :: m.dangling }
  | _ => m

/-- Blackens the top of the stack and shades what it links to, in the order of its links. -/
def scan (registered : Handle → Bool) (links : Handle → List Handle) (m : Marker) : Marker :=
  match m.stack with
  | [] => m
  | h :: rest =>
    (links h).foldl (shade registered) { m with colors := m.colors.insert h .black, stack := rest }

def scans (registered : Handle → Bool) (links : Handle → List Handle) : Nat → Marker → Marker
  | 0, m => m
  | n + 1, m => scans registered links n (m.scan registered links)

/-- The roots on the stack, the last one on top. -/
def start (registered : Handle → Bool) (roots : List Handle) : Marker :=
  roots.foldl (shade registered) {}

def marked (m : Marker) (h : Handle) : Bool := m.color h == .black

def markedCount (m : Marker) : Nat := m.colors.toList.countP fun p => p.2 == .black

end Marker

/-- Marks everything that `roots` reach among `size` registered handles. -/
def mark (registered : Handle → Bool) (size : Nat) (links : Handle → List Handle)
    (roots : List Handle) : Marker :=
  (Marker.start registered roots).scans registered links size

end SharedHeap
