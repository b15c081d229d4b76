import SharedHeap.Registry

/-!
The state of one collector: its registry, whether it collects, how many objects were registered
since the last pass and how many may be before the next one, and running totals.
-/

namespace SharedHeap

/-- What a collector is doing. A pass puts it into `running` and back. -/
inductive CollectorState where
  | idle
  | running
  | stopped
  deriving DecidableEq

namespace CollectorState

def name : CollectorState → String
  | idle => "Idle"
  | running => "Running"
  | stopped => "Stopped"

end CollectorState

structure PassStats where
  /-- Registered objects when the pass started. -/
  examined : Nat
  reachable : Nat
  swept : Nat
  deriving DecidableEq

def PassStats.none : PassStats := ⟨0, 0, 0⟩

/-- A collector. The lock is held only inside critical sections, and while one of them unwinds. -/
structure Collector where
  registry : Registry := .empty
  state : CollectorState := .idle
  /-- Registrations from one automatic pass to the next, at least one. -/
  step : Nat
  /-- Registrations since the last pass. -/
  pending : Nat := 0
  collectionsRun : Nat := 0
  objectsSwept : Nat := 0
  locked : Bool := false

namespace Collector

def defaultStep : Nat := 200

/-- Changes the step; zero counts as one. -/
def setStep (c : Collector) (n : Nat) : Collector := { c with step := max n 1 }

def withStep (n : Nat) : Collector := { step := max n 1 }

/-- One more registration would reach the step. -/
def isDue (c : Collector) : Bool := c.step ≤ c.pending + 1

end Collector

end SharedHeap
