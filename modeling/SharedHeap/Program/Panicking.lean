import SharedHeap.Program.Run

/-!
Creations whose hooks panic. While the slots of a pass are released, a hook may panic. The other slots
are released nevertheless, but the pass is never counted, and the panic goes on out of the creation that
ran it, which lets go of its object on the way. A refused registration is a panic from the beginning, so
its slots are released while that panic is on its way. A hook that panics then ends the process.
-/

namespace SharedHeap

/-- Takes the queue `q` away without what was to come at its end. -/
def Heap.abandonQueue (w : Heap) (q : QueueId) : Heap :=
  { w with queues := w.queues.filter (·.id != q) }

namespace Program

/-- How a creation ends. -/
inductive Ending where
  /-- The application has the object. -/
  | returned (x : Holder)
  /-- It panics since the object is registered already. -/
  | refused (h : Handle)
  /-- It panics since a hook did. -/
  | unwound
  /-- It comes to no end: it waits for a lock of its own thread, or the process is over. -/
  | halted
  deriving DecidableEq

/-- What a registration answers without panics of hooks, if it answers at all. -/
def Ending.answer? : Ending → Option (Except Handle Holder)
  | returned x => some (.ok x)
  | refused h => some (.error h)
  | unwound | halted => none

/-- Whether a hook that runs now for this object panics in the end. What it does before is up to the
`Runner`. -/
abbrev Panics := Session → Handle → Hook → Bool

namespace Session

variable (run : Runner) (panics : Panics)

/-- A holder went away, and the hook that runs because of that panics. -/
def panicsAfter (x : Holder) (s : Session) : Bool :=
  match s.hooks[x.handle]? with
  | some hook =>
    if x.view = .whole ∧ s.heap.wholeCount x.handle = 0 then panics s x.handle hook else false
  | none => false

/-- As `afterDrop`, with a hook that may panic. It tells whether a panic is on its way then. -/
def afterDropPanicking (panicking : Bool) (x : Holder) (s : Session) : Bool × Session :=
  let panicked := s.panicsAfter panics x
  let s := s.afterDrop run x
  (panicking || panicked, if panicking && panicked then { s with stuck := true } else s)

/-- Releases the slots of queue `q`, which are `waiting`, one after another, also when hooks panic. It
tells whether a panic is on its way then. -/
def releaseAll (q : QueueId) : Bool → List Holder → Session → Bool × Session
  | panicking, [], s => (panicking, s)
  | panicking, x :: rest, s =>
    let (panicking, s) := (s.update (·.releaseNext q)).afterDropPanicking run panics panicking x
    if s.stuck then (panicking, s) else releaseAll q panicking rest s

/-- A panic leaves the creation that has the object in hand. -/
def unwind (x : Holder) (ending : Ending) (s : Session) : Ending × Session :=
  let (_, s) := (s.update (·.letGo x)).afterDropPanicking run panics true x
  (if s.stuck then .halted else ending, s)

/-- As `register`, with hooks that may panic. -/
def registerPanicking (g : CollectorId) (x : Holder) (s : Session) : Ending × Session :=
  let s := s.acquire g
  if s.stuck then (.halted, s)
  else
    match (s.heap.hold x).register g x with
    | (.accepted none, heap) => (.returned x, { s with heap })
    | (.accepted (some q), heap) =>
      let (panicking, s) := { s with heap }.releaseAll run panics q false (heap.waiting q)
      if s.stuck then (.halted, s)
      else if panicking then (s.update (·.abandonQueue q)).unwind run panics x .unwound
      else (.returned x, s.update (·.closeQueue q))
    | (.refused q, heap) =>
      let (_, s) := { s with heap }.releaseAll run panics q true (heap.waiting q)
      if s.stuck then (.halted, s)
      else (s.update (·.closeQueue q)).unwind run panics x (.refused x.handle)

/-- As `createFrom`, with hooks that may panic. -/
def createPanicking (g : CollectorId) (init : Session → α × Holder × Session) (s : Session) :
    α × Ending × Session :=
  let (told, x, s) := init s
  (told, s.registerPanicking run panics g x)

end Session

end Program

end SharedHeap
