import Chronometry.Word

/-! Where readings come from: a simulated pair of clocks, or a script of readings given in advance. -/
namespace Chronometry

/-- A pair of clocks over one virtual time in nanoseconds: a timer of known frequency, and a counter
of some rate. Reading the timer moves the time by a fixed step, reading the counter does not. -/
structure Clock where
  frequency : UInt64
  rate : UInt64
  step : UInt64
  now : UInt64
  reported : Option UInt64
deriving DecidableEq

namespace Clock

def withStep (frequency rate step : UInt64) : Clock := ⟨frequency, rate, step, 0, some rate⟩

/-- Each timer reading moves the time by the whole nanoseconds of one tick, and by one at least. -/
def ofRates (frequency rate : UInt64) : Clock :=
  withStep frequency rate (Word.clamp (if frequency = 0 then 1 else max 1 (1_000_000_000 / frequency.toNat)))

def scale (now rate : UInt64) : UInt64 := Word.clamp (now.toNat * rate.toNat / 1_000_000_000)

/-- Moves the time; it wraps at the end of the word. -/
def advance (c : Clock) (ns : UInt64) : Clock := { c with now := c.now + ns }

/-- A timer reading shows the time after its own step. -/
def readTimer (c : Clock) : UInt64 × Clock :=
  let c := c.advance c.step
  (scale c.now c.frequency, c)

def readCounter (c : Clock) : UInt64 := scale c.now c.rate

end Clock

structure Script where
  frequency : UInt64
  timer : List UInt64
  counter : List UInt64
  reported : Option UInt64
deriving DecidableEq

inductive Source where
  | clock (c : Clock)
  | script (s : Script)
deriving DecidableEq

namespace Source

def frequency : Source → UInt64
  | .clock c => c.frequency
  | .script s => s.frequency

def reported : Source → Option UInt64
  | .clock c => c.reported
  | .script s => s.reported

def readTimer : Source → Option (UInt64 × Source)
  | .clock c => let (r, c) := c.readTimer; some (r, .clock c)
  | .script s =>
    match s.timer with
    | [] => none
    | r :: rest => some (r, .script { s with timer := rest })

def readCounter : Source → Option (UInt64 × Source)
  | .clock c => some (c.readCounter, .clock c)
  | .script s =>
    match s.counter with
    | [] => none
    | r :: rest => some (r, .script { s with counter := rest })

def advance (ns : UInt64) : Source → Source
  | .clock c => .clock (c.advance ns)
  | .script s => .script s

/-- How many timer readings can matter to a wait. A script has finitely many; the time of a clock
repeats after `2 ^ 64` steps at the latest, so a wait that sees more readings never ends. -/
def patience : Source → Nat
  | .clock _ => 0x1_0000_0000_0000_0001
  | .script s => s.timer.length + 1

end Source

end Chronometry
