import SharedHeap.Heap
import SharedHeap.Logging.Settings

/-!
The configuration of a collector and of its logging.
-/

namespace SharedHeap

structure LoggingSection where
  level : String := "info"
  json : Bool := false
  file : Option String := none
  deriving DecidableEq

structure Config where
  step : Nat := Collector.defaultStep
  startStopped : Bool := false
  logging : LoggingSection := {}
  deriving DecidableEq

namespace Config

def logSettings (c : Config) : Logging.Settings where
  level := Level.ofName c.logging.level
  path := c.logging.file
  json := c.logging.json

def defaultText : String :=
  "step = " ++ Text.decimal ({} : Config).step ++ "\nstart_stopped = false\n\n[logging]\n" ++
    "level = \"info\"\njson = false\n"

end Config

/-- Adds a collector to a heap as a configuration says, and reports how it is set up. -/
def Heap.addConfigured (w : Heap) (c : Config) : CollectorId × Heap :=
  let (g, w) := w.addCollector (.withStep c.step)
  let w := if c.startStopped then w.stop g else w
  (g, w.emit (.configured (w.collector g).step c.startStopped))

end SharedHeap
