import Chronometry.Command
import Chronometry.Size

/-! Options as they are written, and the values that have been assigned to them. -/
namespace Chronometry.Command

/-- Why a command line is not run. The first two are requests for a text rather than faults. -/
inductive LineError where
  | help
  | version
  | nothingGiven
  | missingCommand
  | unknownCommand
  | missingArgument
  | unknownArgument
  /-- An option that takes one value, or a flag, stands twice. -/
  | repeated
  /-- The value is missing, or is not one of those listed. -/
  | invalidValue
  | unneededValue
  | unreadable (message : String)
  /-- The value cannot even be cut into its parts. -/
  | brokenValue
deriving DecidableEq

inductive Key where
  | logInterval
  | timer
  | serialize
  | waitMs
  | maxWaitMs
  | iterations
  | fillBytes
  | bytes
  | seconds
  | shell
  | help
  | version
deriving DecidableEq

namespace Key

def long : Key → String
  | .logInterval => "log-interval"
  | .timer => "timer"
  | .serialize => "serialize"
  | .waitMs => "wait-ms"
  | .maxWaitMs => "max-wait-ms"
  | .iterations => "iterations"
  | .fillBytes => "fill-bytes"
  | .bytes => "bytes"
  | .seconds => "seconds"
  | .shell => "shell"
  | .help => "help"
  | .version => "version"

def short? : Key → Option Char
  | .timer => some 't'
  | .serialize => some 's'
  | .waitMs => some 'w'
  | .iterations => some 'i'
  | .fillBytes => some 'b'
  | .bytes => some 'b'
  | .help => some 'h'
  | .version => some 'V'
  | _ => none

def takesValue : Key → Bool
  | .serialize => false
  | .help => false
  | .version => false
  | _ => true

end Key

structure Settings where
  logInterval : Option Duration := none
  timer : Option TimerChoice := none
  serialize : Bool := false
  waitMs : Option UInt64 := none
  maxWaitMs : Option UInt64 := none
  iterations : Option (List UInt64) := none
  fillBytes : Option UInt64 := none
  bytes : Option UInt64 := none
  seconds : Option UInt64 := none
  shell : Option Shell := none
deriving DecidableEq

namespace Settings

def readWord (raw : String) : Except LineError UInt64 :=
  (Number.read raw.toList).mapError fun e => .unreadable e.message

def readSize (raw : String) : Except LineError UInt64 :=
  (Size.read raw).mapError fun
    | .insideCharacter => .brokenValue
    | e => .unreadable e.message

def readDuration (raw : String) : Except LineError Duration :=
  (Duration.read raw).mapError fun e => .unreadable e.message

def readTimer (raw : String) : Except LineError TimerChoice :=
  match raw with
  | "micro" => .ok .micro
  | "mono" => .ok .mono
  | _ => .error .invalidValue

def readShell (raw : String) : Except LineError Shell :=
  match raw with
  | "bash" => .ok .bash
  | "elvish" => .ok .elvish
  | "fish" => .ok .fish
  | "powershell" => .ok .powerShell
  | "zsh" => .ok .zsh
  | _ => .error .invalidValue

def pieces : List Char → List (List Char)
  | [] => [[]]
  | c :: cs =>
    match pieces cs with
    | [] => [[c]]
    | piece :: rest => if c = ',' then [] :: piece :: rest else (c :: piece) :: rest

def readWords (raw : String) : Except LineError (List UInt64) :=
  (pieces raw.toList).mapM fun piece => readWord (String.ofList piece)

/-- An option with one value is assigned once. That is looked at before the value is read. -/
def once {α : Type} (current : Option α) (value : Except LineError α) : Except LineError (Option α) :=
  if current.isSome then .error .repeated else some <$> value

/-- Assigns a value to an option that takes one. Lists grow with every use of their option. -/
def assign (s : Settings) (key : Key) (raw : String) : Except LineError Settings :=
  match key with
  | .logInterval => return { s with logInterval := ← once s.logInterval (readDuration raw) }
  | .timer => return { s with timer := ← once s.timer (readTimer raw) }
  | .waitMs => return { s with waitMs := ← once s.waitMs (readWord raw) }
  | .maxWaitMs => return { s with maxWaitMs := ← once s.maxWaitMs (readWord raw) }
  | .iterations => do
    let values ← readWords raw
    return { s with iterations := some (s.iterations.getD [] ++ values) }
  | .fillBytes => return { s with fillBytes := ← once s.fillBytes (readSize raw) }
  | .bytes => return { s with bytes := ← once s.bytes (readSize raw) }
  | .seconds => return { s with seconds := ← once s.seconds (readWord raw) }
  | .shell => return { s with shell := ← once s.shell (readShell raw) }
  | .serialize | .help | .version => .error .unneededValue

/-- Sets an option without a value. Help and version end the reading of the line. -/
def raise (s : Settings) (key : Key) : Except LineError Settings :=
  match key with
  | .serialize => if s.serialize then .error .repeated else .ok { s with serialize := true }
  | .help => .error .help
  | .version => .error .version
  | _ => .error .invalidValue

def counter (s : Settings) : CounterOptions :=
  let standard : CounterOptions := {}
  ⟨s.timer.getD standard.timer, s.serialize⟩

def calibration (s : Settings) : CalibrationOptions :=
  let standard : CalibrationOptions := {}
  ⟨s.waitMs.getD standard.waitMs, s.maxWaitMs.getD standard.maxWaitMs⟩

end Settings

end Chronometry.Command
