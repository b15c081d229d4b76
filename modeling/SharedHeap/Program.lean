import SharedHeap.Config

/-!
Programs: what an application does with a heap, one step after another. Steps may hold further
steps: the body of an initialiser, of a host's own collection, of a timed operation, or of the hook
that a probe runs when it goes away.
-/

namespace SharedHeap.Program

inductive CollectorSpec where
  | withStep (n : Nat)
  | configured (c : Config)
  /-- The collector that a whole process shares. -/
  | shared

/-- A handle, given as a word or by the name of a holder. -/
inductive HandleRef where
  | named (name : String)
  | raw (h : Handle)

/-- A value for a table, whose object is still to be looked up. -/
inductive ValueRef where
  | plain (v : Value)
  | object (r : HandleRef)

inductive Work where
  | garbage
  /-- Make a table, number it, and put it into the named table under its number. -/
  | fill (table : String)
  | cloning (name : String)

mutual

/-- One step: a command, and the name of the collector that it is about. -/
inductive Step where
  | mk (collector : String) (command : Command)

/-- What an initialiser returns: a new object, or one more holder of an existing one. -/
inductive Source where
  | fresh (kind : Kind) (onDrop : List Step)
  | again (name : String)

inductive Command where
  | placeCollector (name : String) (spec : CollectorSpec)
  | create (source : Source) (init : Option (List Step)) (bind : Option String)
  | createMany (count : Nat) (kind : Kind) (stem : Option String)
  | get (kind : Kind) (h : HandleRef) (bind : Option String)
  | getObject (h : HandleRef) (bind : Option String)
  | contains (h : HandleRef)
  | size
  | cleanup
  | stop
  | resume
  | step
  | setStep (n : Nat)
  | host (steps : List Step)
  | hosts (bodies : List (List Step))
  | threads (work : Work) (threads : Nat) (rounds : Nat)
  | track (name : String) (steps : List Step)
  | make (kind : Kind) (onDrop : List Step) (bind : Option String)
  | clone (name : String) (bind : Option String)
  | base (name : String) (bind : Option String)
  | drop (name : String)
  | dropMany (stem : String) (start count : Nat)
  | holders (name : String)
  | handle (name : String)
  | debug (name : String)
  | link (name : String) (child : HandleRef)
  | unlink (name : String) (child : HandleRef)
  | hasLink (name : String) (child : HandleRef)
  | linkMany (pairs : List (String × HandleRef))
  | links (name : String)
  | clearLinks (name : String)
  | set (name : String) (key : Key) (value : ValueRef)
  | lookup (name : String) (key : Key)
  | remove (name : String) (key : Key)
  | table (name : String)
  | registry
  | registryInsert (name : String)
  | registryLookup (h : HandleRef)
  | registryContains (h : HandleRef)
  | registryErase (h : HandleRef)
  | registryRetain (marked : List HandleRef)

end

/-- The links of a ring of `count` holders whose names are `stem` with a number. -/
def ring (stem : String) (count : Nat) : List (String × HandleRef) :=
  (List.range count).map fun i =>
    (stem ++ Text.decimal i, .named (stem ++ Text.decimal ((i + 1) % count)))

/-- The links of a ring without the last. -/
def chain (stem : String) (count : Nat) : List (String × HandleRef) := (ring stem count).dropLast

mutual

/-- The number of steps inside a step, itself included. -/
def Step.weight : Step → Nat
  | .mk _ c => c.weight + 1

def Command.weight : Command → Nat
  | .create source init _ => source.weight + (match init with | some ss => weights ss | none => 0)
  | .host ss => weights ss
  | .hosts bodies => bodyWeights bodies
  | .track _ ss => weights ss
  | .make _ ss _ => weights ss
  | _ => 0

def Source.weight : Source → Nat
  | .fresh _ ss => weights ss
  | .again _ => 0

def weights : List Step → Nat
  | [] => 0
  | s :: ss => s.weight + weights ss

def bodyWeights : List (List Step) → Nat
  | [] => 0
  | b :: bs => weights b + bodyWeights bs

end

end SharedHeap.Program
