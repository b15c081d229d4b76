import SharedHeap.Heap
import SharedHeap.Marking

/-!
Passes and registrations, the two critical sections of a collector.

A pass marks from the roots, which are the registered objects that have a holder besides their slot,
and takes every slot out that was not marked. The slots wait in a queue and are released after the
critical section.

A registration first runs a pass if it is due and the collector is idle, and then puts the new slot
in place. An object that is registered already is refused, but only after its slot was replaced: the
slot displaced and the slots that a due pass swept are then released before the lock is given back.
-/

namespace SharedHeap.Heap

/-- Some holder exists besides one registry's slot. -/
def isRoot (w : Heap) (h : Handle) : Bool := 1 < w.holderCount h

/-- The registered objects to mark from, in ascending order. -/
def roots (w : Heap) (r : Registry) : List Handle := r.handles.filter w.isRoot

def markFrom (w : Heap) (r : Registry) : Marker :=
  mark r.contains r.size w.linked (w.roots r)

/-- Reports the links that a marking ignored, in the order it met them, and how much it marked. -/
def emitMarked (w : Heap) (m : Marker) : Heap :=
  { w with events := .passMarked m.markedCount :: (m.dangling.map .danglingLink ++ w.events) }

/-- The start of a pass over collector `g`: it runs, and reports how much is registered. -/
def beginPass (w : Heap) (g : CollectorId) : Heap :=
  (w.modifyCollector g fun c => { c with state := .running }).emit
    (.passStarted (w.collector g).registry.size)

/-- The end of a pass: every slot that was not marked is taken out. -/
def endPass (w : Heap) (g : CollectorId) (m : Marker) : (PassStats × List Holder) × Heap :=
  let r := (w.collector g).registry
  let (swept, kept) := r.retain m.marked
  let stats : PassStats := ⟨r.size, m.markedCount, swept.length⟩
  let w := (w.emitMarked m).emit (.passSwept stats.swept)
  let w := w.modifyCollector g fun c => { c with registry := kept, state := .idle, pending := 0 }
  ((stats, swept), w)

/-- The body of a pass over collector `g`: its statistics and the slots it took out. -/
def runPass (w : Heap) (g : CollectorId) : (PassStats × List Holder) × Heap :=
  let w := w.beginPass g
  w.endPass g (w.markFrom (w.collector g).registry)

/-- The critical section of a cleanup: nothing happens if the collector is stopped. -/
def beginCleanup (w : Heap) (g : CollectorId) : Option (PassStats × QueueId) × Heap :=
  if (w.collector g).state = .stopped then (none, w.emit .cleanupSkipped)
  else
    let ((stats, swept), w) := w.runPass g
    let (q, w) := w.openQueue swept (.complete g stats)
    (some (stats, q), w)

inductive Registration where
  /-- Registered; the slots that a due pass swept wait in the queue. -/
  | accepted (swept : Option QueueId)
  /-- The object was registered already; the queue ends with giving the lock back. -/
  | refused (queue : QueueId)

/-- The pass that a registration runs first if it is due. -/
def duePass (w : Heap) (g : CollectorId) : Option (PassStats × List Holder) × Heap :=
  let c := w.collector g
  if c.isDue ∧ c.state = .idle then
    let (pass, w) := (w.emit (.thresholdReached c.pending c.step)).runPass g
    (some pass, w)
  else (none, w)

/-- Moves the application's holder `x` into the slot of its object in collector `g` and hands back
what was there. -/
def insertSlot (w : Heap) (g : CollectorId) (x : Holder) : Option Holder × Heap :=
  let (displaced, r) := (w.collector g).registry.insert x
  (displaced, (w.modifyCollector g fun c => { c with registry := r }).letGo x)

/-- The end of a refused registration: the lock is kept until these slots are released. -/
def refuse (w : Heap) (g : CollectorId) (slots : List Holder) : Registration × Heap :=
  let (q, w) := (w.modifyCollector g fun c => { c with locked := true }).openQueue slots (.unlock g)
  (.refused q, w)

/-- The end of a registration: it is counted, and the slots that a due pass swept are to be
released. -/
def accept (w : Heap) (g : CollectorId) (h : Handle) (pass : Option (PassStats × List Holder)) :
    Registration × Heap :=
  let w := (w.modifyCollector g fun c => { c with pending := c.pending + 1 }).emit
    (.objectRegistered h)
  match pass with
  | none => (.accepted none, w)
  | some (stats, swept) =>
    let (q, w) := w.openQueue swept (.complete g stats)
    (.accepted (some q), w)

/-- The critical section of a registration: moves the application's holder `x` into a slot. -/
def register (w : Heap) (g : CollectorId) (x : Holder) : Registration × Heap :=
  let (pass, w) := w.duePass g
  let (displaced, w) := w.insertSlot g x
  match displaced with
  | some y => w.refuse g (y :: (pass.map (·.2)).getD [])
  | none => w.accept g x.handle pass

end SharedHeap.Heap
