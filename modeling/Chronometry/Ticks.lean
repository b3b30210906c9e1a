import Chronometry.Word

/-! Tick counts, counter readings and the spans between two readings. -/
namespace Chronometry

structure Ticks where
  count : UInt64
deriving DecidableEq, Inhabited

namespace Ticks

/-- Seconds at a frequency in Hz. A zero frequency means that the frequency is unknown. -/
def seconds? (t : Ticks) (frequency : UInt64) : Option Float :=
  if frequency = 0 then none else some (t.count.toFloat / frequency.toFloat)

def nanoseconds? (t : Ticks) (frequency : UInt64) : Option Nat :=
  if frequency = 0 then none else some (t.count.toNat * 1_000_000_000 / frequency.toNat)

/-- Share of a total in percent; nothing is a share of an empty total. -/
def percentOf (t total : Ticks) : Float :=
  if total.count = 0 then 0 else t.count.toFloat / total.count.toFloat * 100

/-- Ticks accumulate without wrapping. -/
instance : Add Ticks := ⟨fun a b => ⟨Word.add a.count b.count⟩⟩

instance : Ord Ticks := ⟨fun a b => compare a.count b.count⟩

def sum (ts : List Ticks) : Ticks := ts.foldl (· + ·) ⟨0⟩

/-- The text of a tick count is its digits alone; field widths do not apply to it. -/
def text (t : Ticks) : String := Word.text t.count

end Ticks

structure Stamp where
  reading : UInt64
deriving DecidableEq, Inhabited

/-- Ticks from an earlier stamp to this one, zero if the counter went back. -/
def Stamp.since (later earlier : Stamp) : Ticks := ⟨Word.sub later.reading earlier.reading⟩

structure Span where
  first : UInt64
  last : UInt64
deriving DecidableEq, Inhabited

def Span.elapsed (s : Span) : Ticks := ⟨Word.sub s.last s.first⟩

end Chronometry
