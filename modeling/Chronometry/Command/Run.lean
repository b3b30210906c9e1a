import Chronometry.Calibration
import Chronometry.Command.Completion
import Chronometry.Elapsed
import Chronometry.Profile.Report
import Chronometry.Repetition

/-! Running a command: what it measures, what it prints and what it records. -/
namespace Chronometry.Command

/-- Why a command does not do its work. The last three stop the program on the spot. -/
inductive Refusal where
  | waitTooLong (waitMs maxWaitMs : UInt64)
  | zeroWait
  | nothingToProfile
  | emptyBuffer
  | calibration (cause : Calibration.Error)
  | statistics (cause : Statistics.Error)
  | bufferTooLarge
  | outOfMemory
  | intervalTooLong

inductive Ending where
  | exit (code : UInt32)
  | abort
deriving DecidableEq

namespace Refusal

def message : Refusal → String
  | .waitTooLong waitMs maxWaitMs =>
    "The calibration wait (" ++ Word.text waitMs ++ " ms) exceeds the maximum (" ++
      Word.text maxWaitMs ++ " ms)"
  | .zeroWait => "The wait must be at least one millisecond"
  | .nothingToProfile => "Nothing to profile"
  | .emptyBuffer => "The buffer must not be empty"
  | .calibration cause => cause.message
  | .statistics cause => cause.message
  | .bufferTooLarge => "the buffer is too large for any memory"
  | .outOfMemory => "there is not enough memory for the buffer"
  | .intervalTooLong => "the log interval ends after the last instant of the clock"

def line (r : Refusal) : String :=
  match r with
  | .bufferTooLarge | .outOfMemory | .intervalTooLong => r.message
  | _ => "Error: " ++ r.message

def ending : Refusal → Ending
  | .bufferTooLarge | .intervalTooLong => .exit 101
  | .outOfMemory => .abort
  | _ => .exit 1

end Refusal

def logTarget : String := "tickcal::cli"

def info (message : String) : Log.Record := ⟨.info, logTarget, message⟩

variable {m : Type → Type} [Monad m] [Clocks m] [Logger m] [Worker m]

/-- Calibrates the counter before it is used. The wait is compared with its maximum first. -/
def calibrateCounter (counter : CounterOptions) (options : CalibrationOptions) :
    ExceptT Refusal m Calibration := do
  if options.maxWaitMs < options.waitMs then
    throw (.waitTooLong options.waitMs options.maxWaitMs)
  Logger.record (m := m) (info ("Calibrating the cycle counter for " ++ Word.text options.waitMs ++
    " ms against the " ++ counter.timer.name ++ " timer..."))
  match ← (Chronometry.calibrate options.waitMs : m _) with
  | .error cause => throw (.calibration cause)
  | .ok calibration =>
    if calibration.available then
      Logger.record (m := m)
        (info ("Estimated counter frequency: " ++ Word.text calibration.estimate ++ " Hz"))
    return calibration

def calibrationLines (c : Calibration) (reported : Option UInt64) : List String :=
  ["     OS Freq: " ++ Word.text c.timerFrequency,
    "  OS Elapsed: " ++ Word.text c.timerElapsed] ++
  (c.seconds?.map fun s => "  OS Seconds: " ++ Decimal.fixed 4 s).toList ++
  [" CPU Elapsed: " ++ Word.text c.counterElapsed] ++
  if c.available then
    ["    CPU Freq: " ++ Word.text c.estimate] ++
    match reported with
    | none => ["    Reported: none"]
    | some reported =>
      ["    Reported: " ++ Word.text reported] ++
      ((c.relativeError? reported).map fun e =>
        "  Difference: " ++ Decimal.fixed 3 (e * 100) ++ "%").toList
  else ["    CPU Freq: unavailable"]

def spanText (s : Span) : String :=
  Word.text s.first ++ " -> " ++ Word.text s.last ++ " = " ++ s.elapsed.text ++ " elapsed"

def timerLines (timer : Sample) (counter : Span) : List String :=
  ["    OS Freq: " ++ Word.text timer.frequency,
    "   OS Timer: " ++ spanText timer.span] ++
  (timer.seconds?.map fun s => " OS Seconds: " ++ Decimal.fixed 4 s).toList ++
  ["  CPU Timer: " ++ spanText counter]

def runCalibrate (counter : CounterOptions) (options : CalibrationOptions) :
    ExceptT Refusal m (List String) := do
  let calibration ← calibrateCounter counter options
  return calibrationLines calibration (← (Clocks.reported : m _))

def runOsTimer (waitMs : UInt64) : ExceptT Refusal m (List String) := do
  if waitMs = 0 then throw .zeroWait
  let target := waitTicks (← (Clocks.frequency : m _)) waitMs
  Logger.record (m := m)
    ⟨.info, "tickcal::cli::os_timer", "Spinning for " ++ Word.text target ++ " OS ticks..."⟩
  let (timer, counter) ← (measureBoth target : m _)
  return timerLines timer counter

/-- Makes room for a buffer. It has fewer than 2 ^ 63 bytes, whatever the memory is. -/
def reserve (bytes : UInt64) : ExceptT Refusal m Unit := do
  if 0x8000_0000_0000_0000 ≤ bytes.toNat then throw .bufferTooLarge
  if (← (Worker.memory : m _)) < bytes.toNat then throw .outOfMemory

/-- The section of the loop at a position, counted from zero. Positions keep equal loops apart. -/
def loopName (position : Nat) (iterations : UInt64) : String :=
  "spin #" ++ (position + 1).repr ++ " (" ++ Word.text iterations ++ ")"

def fillName : String := "write_all_bytes"

def profileLoops : Nat → List UInt64 → Profiler → m Profiler
  | _, [], p => pure p
  | position, iterations :: rest, p => do
    let p ← p.time (loopName position iterations) 0 (Worker.perform (.loop iterations))
    profileLoops (position + 1) rest p

def profileAll (p : Profiler) (iterations : List UInt64) (fillBytes : Option UInt64) : m Profiler := do
  let p ← profileLoops 0 iterations p
  match fillBytes with
  | some bytes => p.time fillName bytes (Worker.perform (.fill bytes))
  | none => return p

/-- Calibrates, then profiles. The buffer is there before the first loop. -/
def measureProfile (counter : CounterOptions) (options : CalibrationOptions)
    (iterations : List UInt64) (fillBytes : Option UInt64) : ExceptT Refusal m Profiler := do
  if iterations = [] ∧ fillBytes = none then throw .nothingToProfile
  let calibration ← calibrateCounter counter options
  let p := Profiler.new calibration.estimate
  fillBytes.forM reserve
  (profileAll p iterations fillBytes : m _)

def budgetMs (seconds : UInt64) : UInt64 := Word.mul seconds 1000

def measureRepetition (counter : CounterOptions) (options : CalibrationOptions)
    (bytes seconds : UInt64) (logInterval : Option Duration) :
    ExceptT Refusal m Repetition.Report := do
  if bytes = 0 then throw .emptyBuffer
  let calibration ← calibrateCounter counter options
  let tester : Repetition.Tester := ⟨calibration.estimate, budgetMs seconds, logInterval⟩
  reserve bytes
  match ← (Repetition.repeatFor tester bytes (fun _ => Worker.perform (.fill bytes)) : m _) with
  | .error (.statistics cause) => throw (.statistics cause)
  | .error .intervalTooLong => throw .intervalTooLong
  | .ok report => return report

def output (request : Request) : ExceptT Refusal m (List String) :=
  match request.command with
  | .calibrate counter options => runCalibrate counter options
  | .osTimer _ waitMs => runOsTimer waitMs
  | .profile counter options iterations fillBytes => do
    return (← measureProfile counter options iterations fillBytes).report.lines
  | .repetition counter options bytes seconds => do
    return (← measureRepetition counter options bytes seconds request.logInterval).lines
  | .completions shell => return completionLines shell

/-- Runs a command. A command that uses the clocks records how long it took, if that can be written. -/
def run (request : Request) : ExceptT Refusal m (List String) := do
  let lines ← output request
  if request.command.counter?.isSome then
    if let some text := Elapsed.text? (← (Worker.uptime : m _)) then
      Logger.record (m := m) (info ("The command took " ++ text))
  return lines

end Chronometry.Command
