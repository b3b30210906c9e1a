import Chronometry.Duration
import Chronometry.Log
import Chronometry.Source
import Chronometry.Workload

/-! What measurements need from their surroundings, and the bench, on which they run without a machine. -/
namespace Chronometry

/-- One timer and one counter. `reported` is the frequency that the counter says it has; `patience` is
how many timer readings can matter to a wait, and a wait that outlasts it gives up. -/
class Clocks (m : Type → Type) where
  frequency : m UInt64
  readTimer : m UInt64
  readCounter : m UInt64
  reported : m (Option UInt64)
  patience : m Nat
  giveUp {α : Type} : m α

class Logger (m : Type → Type) where
  record : Log.Record → m Unit

/-- Work, the bytes it may use, and the time since the program (`uptime`) and since the machine
(`instant`) started. -/
class Worker (m : Type → Type) where
  perform : Workload → m Unit
  memory : m Nat
  uptime : m Duration
  instant : m Duration

inductive Probe where
  | timer
  | counter
deriving DecidableEq

/-- Why a trial stops early: the script has no reading left, or the wait never ends. -/
inductive Halt where
  | exhausted
  | endless
deriving DecidableEq

/-- A program can name 2 ^ 47 bytes. -/
def addressSpace : Nat := 0x8000_0000_0000

structure Bench where
  source : Source
  reads : Array Probe
  records : Array Log.Record
  memory : Nat

def Bench.ofSource (source : Source) : Bench := ⟨source, #[], #[], addressSpace⟩

/-- A computation on a bench. What it did before it stopped early stays done. -/
abbrev Trial := ExceptT Halt (StateM Bench)

namespace Trial

/-- A read counts even if the script has no reading left for it. -/
def read (probe : Probe) (next : Source → Option (UInt64 × Source)) : Trial UInt64 :=
  ExceptT.mk fun b =>
    let reads := b.reads.push probe
    match next b.source with
    | some (r, source) => (.ok r, { b with source, reads })
    | none => (.error .exhausted, { b with reads })

def advance (ns : UInt64) : Trial Unit := modify fun b => { b with source := b.source.advance ns }

/-- The time shown by a simulated clock, which starts together with the machine and the program; a
script has none. -/
def uptime : Trial Duration := do
  match (← get).source with
  | .clock c => return (Duration.ofNanoseconds? c.now.toNat).getD .zero
  | .script _ => return .zero

instance : Clocks Trial where
  frequency := return (← get).source.frequency
  readTimer := read .timer Source.readTimer
  readCounter := read .counter Source.readCounter
  reported := return (← get).source.reported
  patience := return (← get).source.patience
  giveUp := throw .endless

instance : Logger Trial where
  record r := modify fun b => { b with records := b.records.push r }

instance : Worker Trial where
  perform w := advance w.nanoseconds
  memory := return (← get).memory
  uptime := uptime
  instant := uptime

end Trial

def Probe.group (p : Probe) : List (Probe × Nat) → List (Probe × Nat)
  | [] => [(p, 1)]
  | (q, n) :: rest => if p = q then (q, n + 1) :: rest else (p, 1) :: (q, n) :: rest

def Probe.runs (reads : List Probe) : List (Probe × Nat) := reads.foldr Probe.group []

end Chronometry
