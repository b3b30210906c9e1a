import Chronometry.Bench
import Chronometry.Ticks

/-! Named sections timed on the counter. -/
namespace Chronometry

structure Section where
  name : String
  ticks : Ticks
  hits : UInt64
  bytes : UInt64
deriving DecidableEq

structure Token where
  index : Nat
  start : Stamp
  bytes : UInt64
deriving DecidableEq

/-- Sections in the order of their first use, the reading at the first begin, and the greatest
reading at an end. -/
structure Profiler where
  frequency : UInt64
  sections : List Section
  first : Option Stamp
  last : Option Stamp
deriving DecidableEq

namespace Profiler

/-- A frequency of zero means that the frequency of the counter is unknown. -/
def new (frequency : UInt64) : Profiler := ⟨frequency, [], none, none⟩

/-- The place of a name, or the place it will take. -/
def indexOf (p : Profiler) (name : String) : Nat := p.sections.findIdx (·.name == name)

def declare (p : Profiler) (name : String) : Profiler :=
  if p.indexOf name < p.sections.length then p
  else { p with sections := p.sections ++ [⟨name, ⟨0⟩, 0, 0⟩] }

def enter (p : Profiler) (name : String) (bytes : UInt64) (start : Stamp) : Profiler × Token :=
  let p := p.declare name
  ({ p with first := p.first.or (some start) }, ⟨p.indexOf name, start, bytes⟩)

def owns (p : Profiler) (t : Token) : Bool := t.index < p.sections.length

def hit (s : Section) (elapsed : Ticks) (bytes : UInt64) : Section :=
  { s with ticks := s.ticks + elapsed, hits := s.hits + 1, bytes := Word.add s.bytes bytes }

def laterOf (last : Option Stamp) (stop : Stamp) : Stamp :=
  match last with
  | none => stop
  | some last => if last.reading < stop.reading then stop else last

/-- Ends a section at a reading. A token without a place here is timed but not recorded. -/
def leave (p : Profiler) (t : Token) (stop : Stamp) : Profiler × Ticks :=
  let elapsed := stop.since t.start
  if p.owns t then
    ({ p with
        sections := p.sections.modify t.index (hit · elapsed t.bytes)
        last := some (laterOf p.last stop) }, elapsed)
  else (p, elapsed)

def total (p : Profiler) : Ticks :=
  match p.first, p.last with
  | some first, some last => last.since first
  | _, _ => ⟨0⟩

def foreignToken : Log.Record :=
  ⟨.warn, "tickcal::profile", "Ignoring a section token from another profiler"⟩

variable {m : Type → Type} [Monad m] [Clocks m] [Logger m]

def begin (p : Profiler) (name : String) (bytes : UInt64) : m (Profiler × Token) := do
  return p.enter name bytes ⟨← Clocks.readCounter⟩

def finish (p : Profiler) (t : Token) : m (Profiler × Ticks) := do
  let stop : Stamp := ⟨← Clocks.readCounter⟩
  if !p.owns t then Logger.record foreignToken
  return p.leave t stop

def time (p : Profiler) (name : String) (bytes : UInt64) (action : m Unit) : m Profiler := do
  let (p, t) ← p.begin name bytes
  action
  return (← p.finish t).1

end Profiler

end Chronometry
