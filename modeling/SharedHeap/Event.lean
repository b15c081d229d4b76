import SharedHeap.Handle
import SharedHeap.Logging.Level

/-!
Events: what a heap and its users report while they run. An event says what happened; its level,
target, message and fields, which every log line is made of, follow from that.
-/

namespace SharedHeap

inductive Event where
  | objectNew (h : Handle)
  | objectRegistered (h : Handle)
  | thresholdReached (pending step : Nat)
  | passStarted (registered : Nat)
  | danglingLink (h : Handle)
  | passMarked (marked : Nat)
  | passSwept (swept : Nat)
  | passComplete (swept live : Nat)
  | cleanupSkipped
  | stopped
  | resumed
  | configured (step : Nat) (halted : Bool)
  | globalStarting
  | hostDone
  | hostsDone (hosts : Nat)
  | operationDone (operation : String)
  deriving DecidableEq

namespace Event

inductive Field where
  | number (n : Nat)
  | flag (b : Bool)
  | text (s : String)
  deriving DecidableEq

def level : Event → Level
  | objectNew _ | objectRegistered _ | danglingLink _ => .trace
  | passComplete _ _ | globalStarting => .info
  | _ => .debug

/-- Events come from the collector, except that timed operations report for themselves. -/
def target : Event → String
  | operationDone _ => "crossgc::logging::perf"
  | _ => "gc"

def message : Event → Option String
  | objectNew _ | objectRegistered _ => none
  | thresholdReached _ _ => "step threshold reached, starting collection"
  | passStarted _ => "Starting garbage collection pass"
  | danglingLink _ => "ignoring link to unregistered handle"
  | passMarked _ => "GC mark phase complete"
  | passSwept _ => "GC sweep phase complete"
  | passComplete _ _ => "Garbage collection pass complete"
  | cleanupSkipped => "collector stopped, skipping cleanup"
  | stopped => "collector stopped"
  | resumed => "collector resumed"
  | configured _ _ => "collector configured"
  | globalStarting => "global collector initializing"
  | hostDone => "host collection done, running core pass"
  | hostsDone _ => "host collections done, running core pass"
  | operationDone _ => "operation completed"

def fields : Event → List (String × Field)
  | objectNew h => [("event", .text "object_new"), ("handle", .text h.text)]
  | objectRegistered h => [("event", .text "object_registered"), ("handle", .text h.text)]
  | thresholdReached pending step => [("pending", .number pending), ("step", .number step)]
  | passStarted n => [("event", .text "gc_start"), ("registered", .number n)]
  | danglingLink h => [("handle", .text h.text)]
  | passMarked n => [("event", .text "gc_mark"), ("objects_marked", .number n)]
  | passSwept n => [("event", .text "gc_sweep"), ("objects_swept", .number n)]
  | passComplete swept live =>
    [("event", .text "gc_complete"), ("objects_swept", .number swept),
      ("live_objects", .number live)]
  | configured step halted => [("step", .number step), ("stopped", .flag halted)]
  | hostsDone n => [("hosts", .number n)]
  | operationDone name => [("operation", .text name)]
  | cleanupSkipped | stopped | resumed | globalStarting | hostDone => []

/-- Whether an event also tells how long what it reports took. -/
def isTimed : Event → Bool
  | passComplete _ _ | operationDone _ => true
  | _ => false

def fieldNames (e : Event) : List String :=
  e.fields.map (·.1) ++ (if e.message.isSome then ["message"] else []) ++
    (if e.isTimed then ["duration_us"] else [])

end Event

end SharedHeap
