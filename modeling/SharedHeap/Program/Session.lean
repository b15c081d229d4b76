import SharedHeap.Heap.Pass
import SharedHeap.Program
import SharedHeap.Program.Answer

/-!
A session: a heap together with the names that an application gave to collectors and holders, and
the hooks of the probes that still live.

Whenever the last whole holder of a probe goes away, its hook runs at once, before anything else
happens. What a hook does is a list of steps, so the operations here take a `Runner`, which says how
steps are run. Probes are one type with a `Drop`, not any such type: the hook of a probe runs once for
the object and not once for each clone, it looks at its collector first, and each of its steps ends
with an answer, so that it never panics itself.
-/

namespace SharedHeap.Program

/-- What a probe does when it goes away. -/
structure Hook where
  /-- The name that the step which made the probe bound it to; empty if there is none. -/
  name : String
  collector : String
  steps : List Step

/-- A heap and the application's view of it. -/
structure Session where
  heap : Heap := { registries := [.empty] }
  collectors : Std.ExtTreeMap String CollectorId := ∅
  /-- The collector that the whole process shares, once it is in use. -/
  shared : Option CollectorId := none
  holders : Std.ExtTreeMap String Holder := ∅
  /-- The last handle bound to each name. -/
  handles : Std.ExtTreeMap String Handle := ∅
  hooks : Std.ExtTreeMap Handle Hook := ∅
  /-- The collectors of the steps in progress, from the innermost on. -/
  inUse : List CollectorId := []
  /-- Hooks that ran directly within the step in progress. -/
  drops : List DropReport := []
  /-- A lock was asked for that its own thread holds: nothing happens any more. -/
  stuck : Bool := false

/-- How steps are run. -/
abbrev Runner := List Step → Session → List Answer × Session

namespace Session

/-- The only bare registry of a session. -/
def bare : RegistryId := 0

def update (s : Session) (f : Heap → Heap) : Session := { s with heap := f s.heap }

/-- Takes the lock of a collector for a critical section. -/
def acquire (s : Session) (g : CollectorId) : Session :=
  if (s.heap.collector g).locked then { s with stuck := true } else s

/-- The collector of a name at a glance. -/
def summary (s : Session) (name : String) : Option Summary :=
  s.collectors[name]?.map fun g =>
    let c := s.heap.collector g
    ⟨c.registry.size, c.pending, c.collectionsRun, c.objectsSwept, c.state⟩

/-! ## Names -/

def collector (s : Session) (name : String) : Except Failure CollectorId :=
  match s.collectors[name]? with
  | some g => .ok g
  | none => .error (.unknown name)

def holder (s : Session) (name : String) : Except Failure Holder :=
  match s.holders[name]? with
  | some x => .ok x
  | none => .error (.unknown name)

def resolve (s : Session) : HandleRef → Except Failure Handle
  | .raw h => .ok h
  | .named name =>
    match s.handles[name]? with
    | some h => .ok h
    | none => .error (.unknown name)

def resolveValue (s : Session) : ValueRef → Except Failure Value
  | .plain v => .ok v
  | .object r => (s.resolve r).map Value.obj

/-- The table that a name holds. -/
def tableHolder (s : Session) (name : String) : Except Failure Holder := do
  let x ← s.holder name
  match s.heap.kindOf x with
  | .table => .ok x
  | kind => .error (.wrongKind kind)

/-! ## Letting go -/

variable (run : Runner)

/-- Runs the hook of the probe `h`, which is never run again. It looks at the collector of the probe
first, which needs the lock. A step of it that is refused answers so and the next one follows. -/
def runHook (h : Handle) (hook : Hook) (s : Session) : Session :=
  let s := match s.collectors[hook.collector]? with
    | some g => s.acquire g
    | none => s
  if s.stuck then s
  else
    let start := s.summary hook.collector
    let (inner, s) := run hook.steps { s with hooks := s.hooks.erase h }
    { s with drops := s.drops ++ [.mk hook.name start inner] }

/-- After a holder went away: if it was the last whole one of a probe, its hook runs. Other objects have
no `Drop` of their own. -/
def afterDrop (x : Holder) (s : Session) : Session :=
  match s.hooks[x.handle]? with
  | some hook =>
    if x.view = .whole ∧ s.heap.wholeCount x.handle = 0 then s.runHook run x.handle hook else s
  | none => s

def dropHolder (x : Holder) (s : Session) : Session :=
  (s.update (·.letGo x)).afterDrop run x

/-- Releases the slots of queue `q`, which are `waiting`, one after another and closes the queue. -/
def drain (q : QueueId) : List Holder → Session → Session
  | [], s => s.update (·.closeQueue q)
  | x :: rest, s =>
    let s := (s.update (·.releaseNext q)).afterDrop run x
    if s.stuck then s else drain q rest s

def release (q : QueueId) (s : Session) : Session := s.drain run q (s.heap.waiting q)

/-- Binds a new holder to a name and drops the name's former one, or drops the new one at once. -/
def bind (name : Option String) (x : Holder) (s : Session) : Session :=
  match name with
  | none => s.dropHolder run x
  | some name =>
    let former := s.holders[name]?
    let s := { s with
      handles := s.handles.insert name x.handle
      holders := s.holders.insert name x }
    match former with
    | some y => s.dropHolder run y
    | none => s

/-! ## Collectors -/

/-- Gives up a collector that lost its name and releases its slots, unless everything shares it or
a step in progress is about it. -/
def giveUp (g : CollectorId) (s : Session) : Session :=
  if s.stuck || s.shared == some g || s.inUse.contains g then s
  else
    let (q, heap) := s.heap.retire g
    { s with heap }.release run q

/-- Makes a collector, gives it a name, and gives up the one that had the name. -/
def placeCollector (name : String) (spec : CollectorSpec) (s : Session) : Session :=
  let former := s.collectors[name]?
  let (g, s) := match spec with
    | .withStep n =>
      let (g, heap) := s.heap.addCollector (.withStep n)
      (g, { s with heap })
    | .configured c =>
      let (g, heap) := s.heap.addConfigured c
      (g, { s with heap })
    | .shared =>
      let heap := if s.shared.isNone then s.heap.emit .globalStarting else s.heap
      let (g, heap) := heap.addCollector (.withStep Collector.defaultStep)
      (g, { s with heap, shared := some g })
  let s := { s with collectors := s.collectors.insert name g }
  match former with
  | none => s
  | some old => s.giveUp run old

/-- Does something about the collector `g`, which has this name. If `g` loses the name meanwhile, it
is given up only when that is done. -/
def keeping (name : String) (g : CollectorId) (act : Session → α × Session) (s : Session) :
    α × Session :=
  let (r, s) := act { s with inUse := g :: s.inUse }
  let s := { s with inUse := s.inUse.tail }
  (r, if s.collectors[name]? = some g then s else s.giveUp run g)

/-- Makes an object and, for a probe, its hook. -/
def make (collector : String) (kind : Kind) (onDrop : List Step) (name : Option String)
    (s : Session) : Holder × Session :=
  let (h, heap) := s.heap.allocate kind
  let s := { s with heap }
  let s := match kind with
    | .probe =>
      { s with hooks := s.hooks.insert h { name := name.getD "", collector, steps := onDrop } }
    | _ => s
  (⟨h, .whole⟩, s)

/-- Registers the object that the application got as holder `x`. It keeps that holder unless the
object is registered already. The answer counts only if the session is not stuck then: a refusal whose
hooks wait for the lock answers as well, but nobody ever hears of it. -/
def register (g : CollectorId) (x : Holder) (s : Session) : Except Handle Holder × Session :=
  let s := s.acquire g
  if s.stuck then (.ok x, s)
  else
    match (s.heap.hold x).register g x with
    | (.accepted none, heap) => (.ok x, { s with heap })
    | (.accepted (some q), heap) => (.ok x, { s with heap }.release run q)
    | (.refused q, heap) =>
      let s := { s with heap }.release run q
      (.error x.handle, if s.stuck then s else s.dropHolder run x)

/-- Runs a pass over `g` and releases what it swept. -/
def cleanup (g : CollectorId) (s : Session) : PassStats × Session :=
  let s := s.acquire g
  if s.stuck then (.none, s)
  else
    match s.heap.beginCleanup g with
    | (none, heap) => (.none, { s with heap })
    | (some (stats, q), heap) => (stats, { s with heap }.release run q)

/-! ## The bare registry -/

def slots (s : Session) : Slots :=
  (s.heap.registry bare).handles.map fun h => (h, s.heap.holderCount h)

end Session

end SharedHeap.Program
