import SharedHeap.Collector
import SharedHeap.Event
import SharedHeap.Table

/-!
The heap: all objects, and all that keeps them alive. A holder of an object is in one of three
places: some part of the application has it, it is a slot of a registry, or it is a slot that was
taken out of a registry and waits to be released. The holder count of an object is the number of its
holders in these places; no object stores it.

The operations here are the atomic steps that threads, closures and hooks may interleave. Each of
them is one critical section, or one access to one object.
-/

namespace SharedHeap

/-- Which collector of a heap. Numbers are not used again. -/
abbrev CollectorId := Nat

abbrev RegistryId := Nat

/-- Which queue of slots to release. Numbers are not used again. -/
abbrev QueueId := Nat

/-- What remains to be done once every slot of a queue is released. -/
inductive Afterwards where
  /-- The pass that swept the slots is counted and reported. -/
  | complete (g : CollectorId) (stats : PassStats)
  /-- A refused registration gives the lock back. -/
  | unlock (g : CollectorId)
  | nothing
  deriving DecidableEq

/-- Slots that left a registry together and are released in this order. -/
structure ReleaseQueue where
  id : QueueId
  waiting : List Holder
  afterwards : Afterwards

/-- Objects, holders, collectors and bare registries, and what was reported, the latest first. -/
structure Heap where
  allocated : Nat := 0
  objects : Std.ExtTreeMap Handle Object := ∅
  /-- The holders that the application has. -/
  held : Bag Holder := .empty
  collectors : List Collector := []
  registries : List Registry := []
  queues : List ReleaseQueue := []
  opened : Nat := 0
  events : List Event := []

namespace Heap

/-! ## Counting holders -/

def heldCount (w : Heap) (h : Handle) : Nat := w.held.count ⟨h, .whole⟩ + w.held.count ⟨h, .base⟩

/-- Slots of `h`, in the registries of collectors and in bare ones. -/
def slotCount (w : Heap) (h : Handle) : Nat :=
  w.collectors.countP (fun c => c.registry.contains h) + w.registries.countP (fun r => r.contains h)

def waitingCount (w : Heap) (h : Handle) : Nat :=
  (w.queues.flatMap (·.waiting)).countP (·.sameObject h)

def holderCount (w : Heap) (h : Handle) : Nat := w.heldCount h + w.slotCount h + w.waitingCount h

/-- The holders of `h` that hold the whole object. -/
def wholeCount (w : Heap) (h : Handle) : Nat :=
  w.held.count ⟨h, .whole⟩ +
    w.collectors.countP (fun c => c.registry.slot? h == some ⟨h, .whole⟩) +
    w.registries.countP (fun r => r.slot? h == some ⟨h, .whole⟩) +
    (w.queues.flatMap (·.waiting)).count ⟨h, .whole⟩

/-! ## Parts of a heap -/

def emit (w : Heap) (e : Event) : Heap := { w with events := e :: w.events }

/-- The collector `g`; a fresh one if there is none. -/
def collector (w : Heap) (g : CollectorId) : Collector :=
  w.collectors[g]?.getD (.withStep Collector.defaultStep)

def modifyCollector (w : Heap) (g : CollectorId) (f : Collector → Collector) : Heap :=
  { w with collectors := w.collectors.modify g f }

def registry (w : Heap) (r : RegistryId) : Registry := w.registries[r]?.getD .empty

def setRegistry (w : Heap) (r : RegistryId) (reg : Registry) : Heap :=
  { w with registries := w.registries.set r reg }

def object (w : Heap) (h : Handle) : Object := w.objects[h]?.getD { kind := .object }

def setObject (w : Heap) (h : Handle) (o : Object) : Heap :=
  { w with objects := w.objects.insert h o }

/-- The distinct handles that `h` links to, in ascending order. -/
def linked (w : Heap) (h : Handle) : List Handle := (w.object h).linked

/-- The kind a holder presents: a base is a plain object, whatever it is the base of. -/
def kindOf (w : Heap) (x : Holder) : Kind :=
  match x.view with
  | .whole => (w.object x.handle).kind
  | .base => .object

/-! ## Objects and holders -/

/-- Makes an object, which the application holds, and gives it the next handle. -/
def allocate (w : Heap) (kind : Kind) : Handle × Heap :=
  let h := Handle.fresh w.allocated
  (h, { w with
    allocated := w.allocated + 1
    objects := w.objects.insert h { kind }
    held := w.held.add ⟨h, .whole⟩
    events := .objectNew h :: w.events })

/-- The application gets one more holder. -/
def hold (w : Heap) (x : Holder) : Heap := { w with held := w.held.add x }

/-- The application lets go of a holder. -/
def letGo (w : Heap) (x : Holder) : Heap := { w with held := w.held.remove x }

def link (w : Heap) (h child : Handle) : Heap := w.setObject h ((w.object h).link child)

def unlink (w : Heap) (h child : Handle) : Heap := w.setObject h ((w.object h).unlink child)

def clearLinks (w : Heap) (h : Handle) : Heap := w.setObject h (w.object h).clearLinks

/-- Sets an entry of the table `h` and returns the value it replaces. -/
def setEntry (w : Heap) (h : Handle) (k : Key) (v : Value) : Option Value × Heap :=
  let (previous, o) := (w.object h).set k v
  (previous, w.setObject h o)

/-- Removes an entry of the table `h` and returns its value. -/
def removeEntry (w : Heap) (h : Handle) (k : Key) : Option Value × Heap :=
  let (previous, o) := (w.object h).remove k
  (previous, w.setObject h o)

/-! ## Looking up -/

def slot? (w : Heap) (g : CollectorId) (h : Handle) : Option Holder :=
  (w.collector g).registry.slot? h

/-- The slot of `h` in collector `g`, if it presents an object of the given kind. -/
def lookup (w : Heap) (g : CollectorId) (kind : Kind) (h : Handle) : Option Holder :=
  (w.slot? g h).filter fun x => w.kindOf x == kind

def lookupBase (w : Heap) (g : CollectorId) (h : Handle) : Option Holder :=
  (w.slot? g h).map fun x => ⟨x.handle, .base⟩

/-! ## Release queues -/

def openQueue (w : Heap) (waiting : List Holder) (after : Afterwards) : QueueId × Heap :=
  (w.opened, { w with
    queues := ⟨w.opened, waiting, after⟩ :: w.queues
    opened := w.opened + 1 })

def queue? (w : Heap) (q : QueueId) : Option ReleaseQueue := w.queues.find? (·.id == q)

def waiting (w : Heap) (q : QueueId) : List Holder := ((w.queue? q).map (·.waiting)).getD []

def releaseNext (w : Heap) (q : QueueId) : Heap :=
  { w with queues := w.queues.map fun p =>
      if p.id == q then { p with waiting := p.waiting.tail } else p }

/-- Counts a finished pass and reports it. -/
def finishPass (w : Heap) (g : CollectorId) (stats : PassStats) : Heap :=
  (w.modifyCollector g fun c =>
    { c with
      collectionsRun := c.collectionsRun + 1
      objectsSwept := c.objectsSwept + stats.swept }).emit
    (.passComplete stats.swept stats.reachable)

def closeQueue (w : Heap) (q : QueueId) : Heap :=
  match w.queue? q with
  | none => w
  | some p =>
    let w := { w with queues := w.queues.filter (·.id != q) }
    match p.afterwards with
    | .complete g stats => w.finishPass g stats
    | .unlock g => w.modifyCollector g fun c => { c with locked := false }
    | .nothing => w

/-! ## Collectors and bare registries -/

def addCollector (w : Heap) (c : Collector) : CollectorId × Heap :=
  (w.collectors.length, { w with collectors := w.collectors ++ [c] })

/-- Takes every slot out of a collector that is given up, for release. -/
def retire (w : Heap) (g : CollectorId) : QueueId × Heap :=
  (w.modifyCollector g fun c => { c with registry := .empty }).openQueue
    (w.collector g).registry.holders .nothing

def stop (w : Heap) (g : CollectorId) : Heap :=
  (w.modifyCollector g fun c => { c with state := .stopped }).emit .stopped

def resume (w : Heap) (g : CollectorId) : Heap :=
  (w.modifyCollector g fun c => { c with state := .idle }).emit .resumed

def setStep (w : Heap) (g : CollectorId) (n : Nat) : Heap := w.modifyCollector g (·.setStep n)

/-- Moves the application's holder `x` into a slot of a bare registry and hands back the holder that
it displaces. -/
def registryInsert (w : Heap) (r : RegistryId) (x : Holder) : Option Holder × Heap :=
  let (displaced, reg) := (w.registry r).insert x
  (displaced, (w.setRegistry r reg).letGo x)

def registryErase (w : Heap) (r : RegistryId) (h : Handle) : Option QueueId × Heap :=
  match (w.registry r).erase h with
  | (none, _) => (none, w)
  | (some x, reg) =>
    let (q, w) := (w.setRegistry r reg).openQueue [x] .nothing
    (some q, w)

/-- Takes the slots that `keep` refuses out of a bare registry, for release in this order. -/
def registryRetain (w : Heap) (r : RegistryId) (keep : Handle → Bool) : QueueId × Heap :=
  let (swept, reg) := (w.registry r).retain keep
  (w.setRegistry r reg).openQueue swept .nothing

end Heap

end SharedHeap
