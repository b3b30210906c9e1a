import Chronometry.Measurement

/-! Estimating the frequency of the counter by waiting on the timer. -/
namespace Chronometry

/-- What a wait showed. A zero estimate means that there is none. -/
structure Calibration where
  counterElapsed : UInt64
  timerElapsed : UInt64
  timerFrequency : UInt64
  estimate : UInt64
deriving DecidableEq

/-- The frequency of a counter that moved by `counter` ticks while a timer moved by `timer` ticks. -/
def estimateFrequency (timerFrequency counter timer : UInt64) : UInt64 :=
  if timer = 0 then 0 else Word.clamp (timerFrequency.toNat * counter.toNat / timer.toNat)

namespace Calibration

def available (c : Calibration) : Bool := c.estimate ≠ 0

def seconds? (c : Calibration) : Option Float := Ticks.seconds? ⟨c.timerElapsed⟩ c.timerFrequency

def relativeError? (c : Calibration) (reference : UInt64) : Option Float :=
  if reference ≠ 0 ∧ c.available then
    some ((c.estimate.toFloat - reference.toFloat).abs / reference.toFloat)
  else none

inductive Error where
  | zeroWait
deriving DecidableEq

def Error.message : Error → String
  | .zeroWait => "The calibration wait must be at least one millisecond"

def ofSpans (timerFrequency : UInt64) (timer counter : Span) : Calibration :=
  let timerElapsed := timer.elapsed.count
  let counterElapsed := counter.elapsed.count
  ⟨counterElapsed, timerElapsed, timerFrequency,
    estimateFrequency timerFrequency counterElapsed timerElapsed⟩

def logTarget : String := "tickcal::calibrate"

def logRecord (c : Calibration) (target waitMs : UInt64) : Log.Record :=
  if c.available then
    ⟨.debug, logTarget,
      "Calibrated over " ++ Word.text c.timerElapsed ++ " OS ticks (" ++ Word.text target ++
        " requested): " ++ Word.text c.counterElapsed ++ " counter ticks, " ++
        Word.text c.estimate ++ " Hz"⟩
  else
    ⟨.warn, logTarget,
      "Calibration unavailable: the OS timer advanced by " ++ Word.text c.timerElapsed ++
        " ticks in " ++ Word.text waitMs ++ " ms"⟩

end Calibration

variable {m : Type → Type} [Monad m] [Clocks m] [Logger m]

/-- Waits for a number of milliseconds. The counter is read inside the timer readings, so that both
spans begin and end together. -/
def calibrateFor (waitMs : UInt64) : m Calibration := do
  let frequency ← Clocks.frequency
  let target := waitTicks frequency waitMs
  let start ← Clocks.readTimer
  let first ← Clocks.readCounter
  let last ← spinUntil start target
  let final ← Clocks.readCounter
  let calibration := Calibration.ofSpans frequency ⟨start, last⟩ ⟨first, final⟩
  Logger.record (calibration.logRecord target waitMs)
  return calibration

/-- A wait of no time is refused before anything is read. -/
def calibrate (waitMs : UInt64) : m (Except Calibration.Error Calibration) :=
  if waitMs = 0 then pure (.error .zeroWait) else .ok <$> calibrateFor waitMs

end Chronometry
