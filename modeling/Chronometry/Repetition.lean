import Chronometry.Measurement
import Chronometry.Statistics

/-! Running a workload again and again for a time budget, and the statistics of the runs. -/
namespace Chronometry

namespace Repetition

structure Report where
  ticks : Statistics.Summary
  frequency : UInt64
  bytes : UInt64

namespace Report

def runs (r : Report) : UInt64 := r.ticks.count

def seconds? (r : Report) (ticks : Float) : Option Float :=
  if r.frequency = 0 then none else some (ticks / r.frequency.toFloat)

def throughput? (r : Report) (ticks : Float) : Option Float :=
  ((r.seconds? ticks).filter fun s => 0 < s && 0 < r.bytes).map fun s => r.bytes.toFloat / s

def line (r : Report) (label : String) (ticks : Float) : String :=
  label ++ ": " ++ Decimal.fixed 0 ticks ++ " ticks" ++
    (match r.seconds? ticks with
      | some s => " (" ++ Decimal.fixed 6 (s * 1e3) ++ " ms)"
      | none => "") ++
    (match r.throughput? ticks with
      | some b => " " ++ Decimal.fixed 3 (b / 1e9) ++ " GB/s"
      | none => "")

def lines (r : Report) : List String :=
  ["Runs: " ++ Word.text r.runs, r.line "Min" r.ticks.min, r.line "Avg" r.ticks.mean,
    r.line "Max" r.ticks.max]

def text (r : Report) : String := String.join (r.lines.map (· ++ "\n"))

end Report

/-- How runs are tested: the frequency of the counter in Hz, zero if unknown, the budget in milliseconds,
and how often the progress is logged. -/
structure Tester where
  frequency : UInt64
  budgetMs : UInt64
  logInterval : Option Duration := none
deriving DecidableEq

/-- Why there is no report. A log interval that ends after the last instant of the clock stops the
program on the spot. -/
inductive Failure where
  | statistics (cause : Statistics.Error)
  | intervalTooLong

def Tester.report (t : Tester) (bytes : UInt64) (stream : Statistics.Samples) : Except Failure Report :=
  match stream.summary with
  | .ok ticks => .ok ⟨ticks, t.frequency, bytes⟩
  | .error cause => .error (.statistics cause)

variable {m : Type → Type} [Monad m] [Clocks m]

/-- Runs numbered from `run` on, each timed on the counter, until the timer is at least `target` ticks
past `start`. The budget is looked at after a run, outside its counter readings. -/
def loop (work : Nat → m Unit) (start target : UInt64) :
    Nat → Nat → Statistics.Samples → m (Except Statistics.Error Statistics.Samples)
  | 0, _, _ => Clocks.giveUp
  | n + 1, run, stream => do
    let begun : Stamp := ⟨← Clocks.readCounter⟩
    work run
    let ended : Stamp := ⟨← Clocks.readCounter⟩
    match (Statistics.Stream.update (ended.since begun).count.toFloat).run stream with
    | (.error e, _) => return .error e
    | (.ok _, stream) =>
      let now ← Clocks.readTimer
      if target ≤ Word.sub now start then return .ok stream
      else loop work start target n (run + 1) stream

variable [Worker m]

/-- Whether a log interval that starts now ends at an instant of the clock. -/
def endsInTime (interval : Option Duration) : m Bool :=
  match interval with
  | none => return true
  | some d => return Duration.isInstant ((← Worker.instant).nanoseconds + d.nanoseconds)

/-- Runs the work until the budget is used up, and at least once. The log starts before the first
reading. -/
def repeatFor (t : Tester) (bytes : UInt64) (work : Nat → m Unit) : m (Except Failure Report) := do
  let target := waitTicks (← Clocks.frequency) t.budgetMs
  if ← endsInTime t.logInterval then
    let patience ← Clocks.patience
    let start ← Clocks.readTimer
    match ← loop work start target patience 0 .empty with
    | .error cause => return .error (.statistics cause)
    | .ok stream => return t.report bytes stream
  else return .error .intervalTooLong

end Repetition

end Chronometry
