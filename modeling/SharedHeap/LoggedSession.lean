import SharedHeap.Logging.Environment
import SharedHeap.Logging.Logger
import SharedHeap.Program.Run

/-!
Sessions that log: the events of the heap go to a logger, which the application starts.
-/

namespace SharedHeap

open Logging (Logger Settings)

def Logging.directivesVariable : String := "RUST_LOG"

/-- A session with a logger, where `φ` are the filters. -/
structure LoggedSession (φ : Type) where
  environment : Environment := {}
  logger : Logger φ := {}
  session : Program.Session := {}

namespace LoggedSession

inductive Call where
  | start (settings : Settings)
  | startFromEnvironment
  | installForeign
  /-- Makes a collector, makes and drops objects, and runs a pass. -/
  | pass (step count : Nat)
  /-- Times an operation that does nothing. -/
  | track (name : String)
  | sharedSize

inductive Outcome where
  | started (s : Logging.Start)
  | installed (b : Bool)
  | stats (s : PassStats)
  | nothing
  | size (n : Nat)

variable {φ : Type} (tools : Logging.Facilities φ)

/-- Gives the events of the heap to the receiver. -/
def flushEvents (p : LoggedSession φ) : LoggedSession φ where
  environment := p.environment
  logger := p.session.heap.events.reverse.foldl (Logger.record tools) p.logger
  session := p.session.update fun w => { w with events := [] }

def start (p : LoggedSession φ) (settings : Settings) : Outcome × LoggedSession φ :=
  let (r, logger) :=
    p.logger.start tools (p.environment.text? Logging.directivesVariable) settings
  (.started r, { p with logger })

/-- Steps that hold no further steps. -/
def flat : Program.Runner := fun _ s => ([], s)

def call (p : LoggedSession φ) : Call → Outcome × LoggedSession φ
  | .start settings => p.start tools settings
  | .startFromEnvironment => p.start tools (.ofEnvironment p.environment)
  | .installForeign =>
    let (b, logger) := p.logger.install tools .foreign
    (.installed b, { p with logger })
  | .pass step count =>
    let (g, heap) := p.session.heap.addCollector (.withStep step)
    let s := { p.session with heap }.createMany flat "" g .object none count
    let (stats, session) := s.cleanup flat g
    (.stats stats, { p with session }.flushEvents tools)
  | .track name =>
    (.nothing, { p with session := p.session.update (·.emit (.operationDone name)) }.flushEvents tools)
  | .sharedSize =>
    let session := match p.session.shared with
      | some _ => p.session
      | none => p.session.placeCollector flat "" .shared
    let size := match session.shared with
      | some g => (session.heap.collector g).registry.size
      | none => 0
    (.size size, { p with session }.flushEvents tools)

/-- Makes calls in order. Tells after each what came of it and whether the logger is started. -/
def calls : List Call → LoggedSession φ → List (Outcome × Bool) × LoggedSession φ
  | [], p => ([], p)
  | c :: cs, p =>
    let (r, p) := p.call tools c
    let (rest, last) := calls cs p
    ((r, p.logger.initialized) :: rest, last)

end LoggedSession

end SharedHeap
