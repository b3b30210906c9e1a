import Chronometry.Duration

/-! The commands of the program and their options. -/
namespace Chronometry

inductive TimerChoice where
  /-- Wall-clock time in microseconds. -/
  | micro
  /-- Monotonic time in nanoseconds. -/
  | mono
deriving DecidableEq

namespace TimerChoice

def name : TimerChoice → String
  | .micro => "Micro"
  | .mono => "Mono"

def frequency : TimerChoice → UInt64
  | .micro => 1000000
  | .mono => 1000000000

end TimerChoice

inductive Shell where
  | bash
  | elvish
  | fish
  | powerShell
  | zsh
deriving DecidableEq

def Shell.name : Shell → String
  | .bash => "Bash"
  | .elvish => "Elvish"
  | .fish => "Fish"
  | .powerShell => "PowerShell"
  | .zsh => "Zsh"

namespace Command

/-- Which timer to use, and whether each counter reading waits for the instructions before it. -/
structure CounterOptions where
  timer : TimerChoice := .micro
  serialize : Bool := false
deriving DecidableEq

structure CalibrationOptions where
  waitMs : UInt64 := 100
  maxWaitMs : UInt64 := 10000
deriving DecidableEq

end Command

inductive Command where
  | calibrate (counter : Command.CounterOptions) (calibration : Command.CalibrationOptions)
  | osTimer (counter : Command.CounterOptions) (waitMs : UInt64)
  | profile (counter : Command.CounterOptions) (calibration : Command.CalibrationOptions)
      (iterations : List UInt64) (fillBytes : Option UInt64)
  | repetition (counter : Command.CounterOptions) (calibration : Command.CalibrationOptions)
      (bytes seconds : UInt64)
  | completions (shell : Shell)
deriving DecidableEq

def Command.counter? : Command → Option CounterOptions
  | .calibrate counter _ => some counter
  | .osTimer counter _ => some counter
  | .profile counter _ _ _ => some counter
  | .repetition counter _ _ _ => some counter
  | .completions _ => none

structure Request where
  command : Command
  logInterval : Option Duration
deriving DecidableEq

end Chronometry
