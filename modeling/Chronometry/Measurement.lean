import Chronometry.Bench
import Chronometry.Ticks

/-! Waiting on the timer, alone or with the counter read before and after. -/
namespace Chronometry

structure Sample where
  span : Span
  frequency : UInt64
deriving DecidableEq

def Sample.elapsed (s : Sample) : Ticks := s.span.elapsed

def Sample.seconds? (s : Sample) : Option Float := s.elapsed.seconds? s.frequency

def waitTicks (frequency ms : UInt64) : UInt64 := Word.clamp (frequency.toNat * ms.toNat / 1000)

variable {m : Type → Type} [Monad m] [Clocks m]

/-- Reads the timer until it is at least `target` ticks past `start`; `last` is the latest reading.
A timer that goes back counts as not having moved. -/
def spin (start target : UInt64) : Nat → UInt64 → m UInt64
  | 0, _ => Clocks.giveUp
  | n + 1, last =>
    if target ≤ Word.sub last start then pure last
    else do spin start target n (← Clocks.readTimer)

/-- Waits for `target` ticks after the reading `start`. A wait of no ticks reads nothing. -/
def spinUntil (start target : UInt64) : m UInt64 := do spin start target (← Clocks.patience) start

def measureTimer (target : UInt64) : m Sample := do
  let start ← Clocks.readTimer
  let last ← spinUntil start target
  return ⟨⟨start, last⟩, ← Clocks.frequency⟩

/-- Waits on the timer, with the counter read just after the first and just after the last timer reading. -/
def measureBoth (target : UInt64) : m (Sample × Span) := do
  let start ← Clocks.readTimer
  let first ← Clocks.readCounter
  let last ← spinUntil start target
  let final ← Clocks.readCounter
  return (⟨⟨start, last⟩, ← Clocks.frequency⟩, ⟨first, final⟩)

end Chronometry
