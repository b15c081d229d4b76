import SharedHeap.Config
import SharedHeap.Toml.Document

/-!
Reading a configuration from a TOML document. Every entry may be left out and then has its default;
entries that are not known are ignored, whatever they hold. The logging section may be written as a
table, or as an array of its entries in the order level, JSON, file.
-/

namespace SharedHeap

open Toml (Table)

/-- The entry of `k`, read by `read`, or `default` if there is none. -/
def Toml.Table.entryOr (t : Table) (k : String) (read : Toml.Value → Option α) (default : α) :
    Option α :=
  match t.find? k with
  | none => some default
  | some v => read v

namespace Toml.Value

def string? : Value → Option String
  | string s => some s
  | _ => none

def boolean? : Value → Option Bool
  | boolean b => some b
  | _ => none

/-- An integer that is not negative. -/
def count? : Value → Option Nat
  | integer n => if 0 ≤ n then some n.toNat else none
  | _ => none

end Toml.Value

namespace LoggingSection

def ofTable (t : Table) : Option LoggingSection := do
  let level ← t.entryOr "level" Toml.Value.string? ({} : LoggingSection).level
  let json ← t.entryOr "json" Toml.Value.boolean? false
  let file ← t.entryOr "file" (fun v => v.string?.map some) none
  return { level, json, file }

/-- Entries that an array ends before have their defaults; items after the last are ignored. -/
def ofItems : List Toml.Value → Option LoggingSection
  | [] => some {}
  | [level] => do return { level := ← level.string? }
  | [level, json] => do return { level := ← level.string?, json := ← json.boolean? }
  | level :: json :: file :: _ => do
    return { level := ← level.string?, json := ← json.boolean?, file := some (← file.string?) }

/-- A date counts as a table without any of the entries. -/
def ofValue : Toml.Value → Option LoggingSection
  | .table t => ofTable t
  | .array items => ofItems items
  | .dateTime => some {}
  | _ => none

end LoggingSection

namespace Config

def ofTable (t : Table) : Option Config := do
  let step ← t.entryOr "step" Toml.Value.count? Collector.defaultStep
  let startStopped ← t.entryOr "start_stopped" Toml.Value.boolean? false
  let logging ← t.entryOr "logging" LoggingSection.ofValue {}
  return { step, startStopped, logging }

def parse (text : String) : Option Config := (Toml.parse text).bind ofTable

end Config

end SharedHeap
