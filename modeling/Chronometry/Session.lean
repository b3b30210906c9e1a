import Chronometry.Calibration
import Chronometry.Profile.Report
import Chronometry.Repetition

/-! Sequences of operations on one bench: readings, waits, stamps, any number of profilers, repetitions. -/
namespace Chronometry

/-- A bench with the stamps, profilers and tokens made on it, each known by its number in order of
making. The place of a token is empty once the token has been used. -/
structure Session where
  bench : Bench
  stamps : List Stamp
  profilers : List Profiler
  tokens : List (Option Token)

namespace Session

def ofSource (source : Source) : Session := ⟨.ofSource source, [], [], []⟩

inductive Operation where
  | readTimer
  | readCounter
  | frequency
  | reported
  | advance (ns : UInt64)
  /-- A silent counter does not say its frequency. -/
  | calibrate (waitMs : UInt64) (silent : Bool)
  | measureTimer (target : UInt64)
  | measureBoth (target : UInt64)
  | stamp
  | elapsed (stamp : Nat)
  | since (stamp earlier : Nat)
  | newProfiler (frequency : UInt64)
  | copyProfiler (profiler : Nat)
  | begin (profiler : Nat) (name : String) (bytes : UInt64)
  | finish (profiler token : Nat)
  | time (profiler : Nat) (name : String) (ns : UInt64)
  | sections (profiler : Nat)
  | total (profiler : Nat)
  | profilerFrequency (profiler : Nat)
  | report (profiler : Nat)
  /-- Runs that advance the clock by the works in turn, over and over. -/
  | repetition (tester : Repetition.Tester) (bytes : UInt64) (works : List UInt64)

inductive Answer where
  | none
  | word (value : UInt64)
  | word? (value : Option UInt64)
  | number (value : Nat)
  | calibration (result : Calibration) (reported : Option UInt64)
  | sample (result : Sample)
  | both (timer : Sample) (counter : Span)
  | sections (result : List Section)
  | profile (result : Profile.Report)
  | repetition (result : Repetition.Report)

inductive Error where
  | halted (cause : Halt)
  | calibration (cause : Calibration.Error)
  | repetition (cause : Repetition.Failure)
  | tokenUsed
  | unknown (number : Nat)

/-- An operation on a session. What it did before it failed stays done. -/
abbrev Step := ExceptT Error (StateM Session)

namespace Step

def onBench {α : Type} (trial : Trial α) : Step α :=
  ExceptT.mk fun s =>
    match trial s.bench with
    | (.ok a, bench) => (.ok a, { s with bench })
    | (.error cause, bench) => (.error (.halted cause), { s with bench })

def lookup {α : Type} (all : List α) (number : Nat) : Step α :=
  match all[number]? with
  | some a => pure a
  | none => throw (.unknown number)

def stamp (number : Nat) : Step Stamp := do lookup (← get).stamps number

def profiler (number : Nat) : Step Profiler := do lookup (← get).profilers number

def setProfiler (number : Nat) (p : Profiler) : Step Unit :=
  modify fun s => { s with profilers := s.profilers.set number p }

def addStamp (stamp : Stamp) : Step Unit := modify fun s => { s with stamps := s.stamps ++ [stamp] }

def addProfiler (p : Profiler) : Step Nat := do
  let number := (← get).profilers.length
  modify fun s => { s with profilers := s.profilers ++ [p] }
  return number

/-- Begins a section. The section exists from then on, even if the counter cannot be read. -/
def enter (number : Nat) (name : String) (bytes : UInt64) : Step Token := do
  let p ← profiler number
  setProfiler number (p.declare name)
  let (p, token) ← onBench (p.begin name bytes)
  setProfiler number p
  return token

def addToken (token : Token) : Step Nat := do
  let number := (← get).tokens.length
  modify fun s => { s with tokens := s.tokens ++ [some token] }
  return number

def takeToken (number : Nat) : Step Token := do
  match ← lookup (← get).tokens number with
  | some token =>
    modify fun s => { s with tokens := s.tokens.set number none }
    return token
  | none => throw .tokenUsed

def leave (number : Nat) (token : Token) : Step Ticks := do
  let p ← profiler number
  let (p, ticks) ← onBench (p.finish token)
  setProfiler number p
  return ticks

def workOf (works : List UInt64) (run : Nat) : Trial Unit :=
  match works[run % works.length]? with
  | some ns => Trial.advance ns
  | none => pure ()

def perform : Operation → Step Answer
  | .readTimer => .word <$> onBench Clocks.readTimer
  | .readCounter => .word <$> onBench Clocks.readCounter
  | .frequency => .word <$> onBench Clocks.frequency
  | .reported => .word? <$> onBench Clocks.reported
  | .advance ns => do
    onBench (Trial.advance ns)
    return .none
  | .calibrate waitMs silent => do
    match ← onBench (Chronometry.calibrate waitMs) with
    | .error cause => throw (.calibration cause)
    | .ok result =>
      let reported ← onBench Clocks.reported
      return .calibration result (if silent then none else reported)
  | .measureTimer target => .sample <$> onBench (Chronometry.measureTimer target)
  | .measureBoth target => do
    let (timer, counter) ← onBench (Chronometry.measureBoth target)
    return .both timer counter
  | .stamp => do
    let reading ← onBench Clocks.readCounter
    addStamp ⟨reading⟩
    return .word reading
  | .elapsed number => do
    let earlier ← stamp number
    let reading ← onBench Clocks.readCounter
    return .word (Stamp.since ⟨reading⟩ earlier).count
  | .since number earlier => do
    let later ← stamp number
    return .word (later.since (← stamp earlier)).count
  | .newProfiler frequency => .number <$> addProfiler (.new frequency)
  | .copyProfiler number => do .number <$> addProfiler (← profiler number)
  | .begin number name bytes => do .number <$> addToken (← enter number name bytes)
  | .finish number token => do
    let ticks ← leave number (← takeToken token)
    return .word ticks.count
  | .time number name ns => do
    let token ← enter number name 0
    onBench (Trial.advance ns)
    discard (leave number token)
    return .word ns
  | .sections number => return .sections (← profiler number).sections
  | .total number => return .word (← profiler number).total.count
  | .profilerFrequency number => return .word (← profiler number).frequency
  | .report number => return .profile (← profiler number).report
  | .repetition tester bytes works => do
    match ← onBench (Repetition.repeatFor tester bytes (workOf works)) with
    | .error cause => throw (.repetition cause)
    | .ok report => return .repetition report

end Step

structure Outcome where
  answer : Except Error Answer
  reads : List Probe
  records : List Log.Record

def step (s : Session) (operation : Operation) : Outcome × Session :=
  let (answer, s) := Step.perform operation { s with bench := .ofSource s.bench.source }
  (⟨answer, s.bench.reads.toList, s.bench.records.toList⟩, s)

/-- Runs operations in order, the later ones also after a failed one. -/
def run (s : Session) : List Operation → List Outcome × Session
  | [] => ([], s)
  | operation :: rest =>
    let (outcome, s) := s.step operation
    let (outcomes, s) := s.run rest
    (outcome :: outcomes, s)

def now? (s : Session) : Option UInt64 :=
  match s.bench.source with
  | .clock c => some c.now
  | .script _ => none

end Session

end Chronometry
