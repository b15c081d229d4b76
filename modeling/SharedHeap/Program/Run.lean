import SharedHeap.Program.Session

/-!
Running programs. A step first looks up every name that it needs, and ends early, without any other
effect, if one is missing. What it does then happens in the order in which a single thread does it.

Each step of a program runs at most once, hooks included, so the number of its steps bounds how
deeply steps, initialisers and hooks can nest.
-/

namespace SharedHeap.Program

namespace Session

/-- How a holder is shown to developers. -/
def debugText (s : Session) (x : Holder) : String :=
  let o := s.heap.object x.handle
  match s.heap.kindOf x with
  | .table =>
    "SharedTable \x7b handle: " ++ x.handle.debugText ++ ", len: " ++
      Text.decimal o.entries.size ++ " \x7d"
  | _ =>
    "GcObject \x7b handle: " ++ x.handle.debugText ++ ", holders: " ++
      Text.decimal (s.heap.holderCount x.handle) ++ ", links: [" ++
      ", ".intercalate (o.linked.map Handle.debugText) ++ "] \x7d"

/-- What a step that made holder `x` answers. -/
def boundReply (s : Session) (x : Holder) : Reply := .bound x.handle (s.heap.holderCount x.handle)

variable (run : Runner)

def answerBound (name : Option String) (x : Holder) (s : Session) : Reply × Session :=
  (s.boundReply x, s.bind run name x)

def answerHeld (name : Option String) (x : Holder) (s : Session) : Reply × Session :=
  (s.update (·.hold x)).answerBound run name x

/-- Runs an initialiser, outside every lock, and registers the object that it returns. Whatever else
the initialiser tells is handed on. -/
def createFrom (g : CollectorId) (init : Session → α × Holder × Session) (s : Session) :
    α × Except Handle Holder × Session :=
  let (told, x, s) := init s
  (told, s.register run g x)

/-- Makes an object without a name and registers it. -/
def create (collector : String) (g : CollectorId) (kind : Kind) (s : Session) :
    Except Handle Holder × Session :=
  (s.createFrom run g fun s => ((), s.make collector kind [] none)).2

/-- Makes and registers objects one after another, each bound to the stem and its number. -/
def createMany (collector : String) (g : CollectorId) (kind : Kind) (stem : Option String)
    (count : Nat) (s : Session) : Session :=
  (List.range count).foldl (fun s i =>
    match s.create run collector g kind with
    | (.ok x, s) => s.bind run (stem.map (· ++ Text.decimal i)) x
    | (.error _, s) => s) s

/-- What a thread does over and over, with the holder that it needs. -/
inductive Task where
  | garbage
  | fill (table : Holder)
  | cloning (x : Holder)

/-- The holders that a task needs. -/
def Task.holders : Task → List Holder
  | garbage => []
  | fill x | cloning x => [x]

def task (s : Session) : Work → Except Failure Task
  | .garbage => .ok .garbage
  | .fill name => (s.tableHolder name).map .fill
  | .cloning name => (s.holder name).map .cloning

def holdAll (xs : List Holder) (s : Session) : Session :=
  xs.foldl (fun s x => s.update (·.hold x)) s

def dropAll (xs : List Holder) (s : Session) : Session :=
  xs.foldl (fun s x => s.dropHolder run x) s

def doTask (collector : String) (g : CollectorId) (i : Nat) (s : Session) : Task → Session
  | .garbage =>
    match s.create run collector g .object with
    | (.ok y, s) => s.dropHolder run y
    | (.error _, s) => s
  | .fill table =>
    match s.create run collector g .table with
    | (.ok y, s) =>
      let number := Int64.ofNat i
      let s := s.update fun w => (w.setEntry y.handle (.str "value") (.int number)).2
      let s := s.update fun w => (w.setEntry table.handle (.int number) (.obj y.handle)).2
      s.dropHolder run y
    | (.error _, s) => s
  | .cloning x => (s.update (·.hold x)).dropHolder run x

/-- All rounds of one thread after another. Each thread has its own holders until it is done; what
it reports is not seen. -/
def doTasks (collector : String) (g : CollectorId) (task : Task) (threads rounds : Nat)
    (s : Session) : Session :=
  let events := s.heap.events
  let s := (List.range threads).foldl (fun s _ => s.holdAll task.holders) s
  let s := (List.range threads).foldl (fun s thread =>
    let first := thread * rounds
    let s := (List.range rounds).foldl (fun s i => s.doTask run collector g (first + i) task) s
    s.dropAll run task.holders) s
  s.update fun w => { w with events }

def runHosts : List (List Step) → Session → List (List Answer) × Session
  | [], s => ([], s)
  | body :: bodies, s =>
    let (answers, s) := run body s
    let (rest, s) := runHosts bodies s
    (answers :: rest, s)

/-- The body of an initialiser: runs its steps, and returns what was taken before or a new object. -/
def initialise (collector : String) (source : Source) (taken : Option Holder) (steps : List Step)
    (name : Option String) (s : Session) : List Answer × Holder × Session :=
  let (inner, s) := run steps s
  match taken, source with
  | some x, _ => (inner, x, s)
  | none, .fresh kind onDrop => (inner, s.make collector kind onDrop name)
  | none, .again _ => (inner, s.make collector .object [] name)

def createWith (collector : String) (g : CollectorId) (source : Source) (init : Option (List Step))
    (name : Option String) (s : Session) : Except Failure (Reply × Session) := do
  let taken ← match source with
    | .again other => (s.holder other).map some
    | .fresh _ _ => .ok none
  let s := match taken with
    | some x => s.update (·.hold x)
    | none => s
  match s.createFrom run g (initialise run collector source taken (init.getD []) name) with
  | (_, .error h, s) => return (.failed (.registeredTwice h), s)
  | (inner, .ok x, s) =>
    let reply := match init with
      | some _ => .created x.handle (s.heap.holderCount x.handle) inner
      | none => s.boundReply x
    return (reply, s.bind run name x)

/-- Does what a command says, about the collector `g`, which is called `collector`. -/
def perform (collector : String) (g : CollectorId) (s : Session) :
    Command → Except Failure (Reply × Session)
  | .placeCollector name spec => return (.nothing, s.placeCollector run name spec)
  | .create source init name => s.createWith run collector g source init name
  | .createMany count kind stem => return (.nothing, s.createMany run collector g kind stem count)
  | .get kind ref name => do
    let h ← s.resolve ref
    let s := s.acquire g
    match s.heap.lookup g kind h with
    | some x => return s.answerHeld run name x
    | none => return (.nothing, s)
  | .getObject ref name => do
    let h ← s.resolve ref
    let s := s.acquire g
    match s.heap.lookupBase g h with
    | some x => return s.answerHeld run name x
    | none => return (.nothing, s)
  | .contains ref => do
    let h ← s.resolve ref
    return (.flag ((s.heap.collector g).registry.contains h), s.acquire g)
  | .size => return (.count (s.heap.collector g).registry.size, s.acquire g)
  | .cleanup => do
    let (stats, s) := s.cleanup run g
    return (.stats stats, s)
  | .stop => return (.nothing, (s.acquire g).update (·.stop g))
  | .resume => return (.nothing, (s.acquire g).update (·.resume g))
  | .step => return (.text (Text.decimal (s.heap.collector g).step), s)
  | .setStep n => do
    let s := s.update (·.setStep g n)
    return (.text (Text.decimal (s.heap.collector g).step), s)
  | .host steps => do
    let (answers, s) := run steps s
    let (stats, s) := (s.update (·.emit .hostDone)).cleanup run g
    return (.hosts stats [answers], s)
  | .hosts bodies => do
    let (answers, s) := s.runHosts run bodies
    let (stats, s) := (s.update (·.emit (.hostsDone bodies.length))).cleanup run g
    return (.hosts stats answers, s)
  | .threads work threads rounds => do
    let task ← s.task work
    let s := (s.holdAll task.holders).doTasks run collector g task threads rounds
    let reply := .pending (s.heap.collector g).pending
    match task with
    | .garbage => return (reply, (s.cleanup run g).2)
    | _ => return (reply, s.dropAll run task.holders)
  | .track name steps => do
    let (answers, s) := run steps s
    return (.inner answers, s.update (·.emit (.operationDone name)))
  | .make kind onDrop name => do
    let (x, s) := s.make collector kind onDrop name
    return s.answerBound run name x
  | .clone name as => do
    let x ← s.holder name
    return s.answerHeld run as x
  | .base name as => do
    let x ← s.holder name
    return s.answerHeld run as ⟨x.handle, .base⟩
  | .drop name => do
    let x ← s.holder name
    return (.nothing, { s with holders := s.holders.erase name }.dropHolder run x)
  | .dropMany stem start count =>
    return (.nothing, (List.range count).foldl (fun s i =>
      let name := stem ++ Text.decimal (start + i)
      match s.holders[name]? with
      | some x => { s with holders := s.holders.erase name }.dropHolder run x
      | none => s) s)
  | .holders name => do
    let x ← s.holder name
    return (.count (s.heap.holderCount x.handle), s)
  | .handle name => do
    let x ← s.holder name
    return (.handle x.handle, s)
  | .debug name => do
    let x ← s.holder name
    return (.text (s.debugText x), s)
  | .link name ref => do
    let h ← s.resolve ref
    let x ← s.holder name
    return (.nothing, s.update (·.link x.handle h))
  | .unlink name ref => do
    let h ← s.resolve ref
    let x ← s.holder name
    return (.flag ((s.heap.object x.handle).hasLink h), s.update (·.unlink x.handle h))
  | .hasLink name ref => do
    let h ← s.resolve ref
    let x ← s.holder name
    return (.flag ((s.heap.object x.handle).hasLink h), s)
  | .linkMany pairs => do
    let links ← pairs.mapM fun (name, ref) => do
      let h ← s.resolve ref
      let x ← s.holder name
      return (x.handle, h)
    return (.nothing, links.foldl (fun s (x, h) => s.update (·.link x h)) s)
  | .links name => do
    let x ← s.holder name
    return (.handles (s.heap.linked x.handle), s)
  | .clearLinks name => do
    let x ← s.holder name
    return (.nothing, s.update (·.clearLinks x.handle))
  | .set name key ref => do
    let v ← s.resolveValue ref
    let x ← s.tableHolder name
    let (previous, heap) := s.heap.setEntry x.handle key v
    return (.value previous, { s with heap })
  | .lookup name key => do
    let x ← s.tableHolder name
    return (.value ((s.heap.object x.handle).get? key), s)
  | .remove name key => do
    let x ← s.tableHolder name
    let (previous, heap) := s.heap.removeEntry x.handle key
    return (.value previous, { s with heap })
  | .table name => do
    let x ← s.tableHolder name
    let o := s.heap.object x.handle
    return (.table o.entries.size o.keys, s)
  | .registry => return (.slots s.slots, s)
  | .registryInsert name => do
    let x ← s.holder name
    match (s.heap.hold x).registryInsert bare x with
    | (none, heap) =>
      let s := { s with heap }
      return (.slots s.slots, s)
    | (some y, heap) =>
      return (.failed (.registeredTwice x.handle), { s with heap }.afterDrop run y)
  | .registryLookup ref => do
    let h ← s.resolve ref
    if (s.heap.registry bare).contains h then
      return (.slot h (s.heap.holderCount h) (s.heap.linked h), s)
    else return (.nothing, s)
  | .registryContains ref => do
    let h ← s.resolve ref
    return (.flag ((s.heap.registry bare).contains h), s)
  | .registryErase ref => do
    let h ← s.resolve ref
    match s.heap.registryErase bare h with
    | (none, heap) =>
      let s := { s with heap }
      return (.erased none s.slots, s)
    | (some q, heap) =>
      let count := heap.holderCount h
      let s := { s with heap }.release run q
      return (.erased (some count) s.slots, s)
  | .registryRetain marked => do
    let hs ← marked.mapM s.resolve
    let (q, heap) := s.heap.registryRetain bare hs.contains
    let swept := (heap.waiting q).map (·.handle)
    let s := { s with heap }.release run q
    return (.retained swept s.slots, s)

/-- Runs one step. Hooks that run directly within it are part of its answer. -/
def runStep (s : Session) : Step → Answer × Session
  | .mk collector command =>
    let outer := s.drops
    let s := { s with drops := [] }
    let (reply, s) := match s.collector collector with
      | .error f => (Reply.failed f, s)
      | .ok g => s.keeping run collector g fun s =>
        match s.perform run collector g command with
        | .ok (reply, s) => (reply, s)
        | .error f => (.failed f, s)
    (.mk reply (s.summary collector) s.drops, { s with drops := outer })

end Session

/-- Runs steps in order, with room for `depth` steps on the way to the innermost one. -/
def runSteps : (depth : Nat) → Runner
  | 0, _, s => ([], s)
  | _ + 1, [], s => ([], s)
  | depth + 1, step :: rest, s =>
    if s.stuck then ([], s)
    else
      let (answer, s) := s.runStep (runSteps depth) step
      let (answers, s) := runSteps depth rest s
      (answer :: answers, s)

/-- A session with one collector, named as the steps of a program call it by default. -/
def Session.start (name : String) (spec : CollectorSpec) : Session :=
  let s := Session.placeCollector (fun _ s => ([], s)) name spec {}
  s.update fun w => { w with events := [] }

/-- The steps of a program one by one: each answer, and what was reported during the step. -/
def traces (depth : Nat) : List Step → Session → List (Answer × List Event)
  | [], _ => []
  | step :: rest, s =>
    if s.stuck then []
    else
      let (answer, s) := s.runStep (runSteps depth) step
      (answer, s.heap.events.reverse) ::
        traces depth rest (s.update fun w => { w with events := [] })

def play (name : String) (spec : CollectorSpec) (steps : List Step) :
    List (Answer × List Event) :=
  traces (weights steps) steps (.start name spec)

end SharedHeap.Program
