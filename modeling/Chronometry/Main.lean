import Chronometry.Command.Run
import Chronometry.Command.Usage
import Std.Time.DateTime.Timestamp

/-! The program: commands on the clocks of the machine. -/
namespace Chronometry

structure Machine where
  timer : TimerChoice
  filter : Log.Filter
  started : Nat

abbrev OnMachine := ReaderT Machine IO

namespace OnMachine

def wallClock : IO Nat := do
  return (← Std.Time.Timestamp.now).toNanosecondsSinceUnixEpoch.toInt.toNat

/-- The monotonic clock serves as the counter. -/
instance : Clocks OnMachine where
  frequency := return (← read).timer.frequency
  readTimer := do
    match (← read).timer with
    | .micro => return ((← wallClock) / 1000).toUInt64
    | .mono => return (← IO.monoNanosNow).toUInt64
  readCounter := return (← IO.monoNanosNow).toUInt64
  reported := return none
  patience := return 0x1_0000_0000_0000_0001
  giveUp := throw (.userError "the timer does not move")

def uptime : OnMachine Duration := do
  let elapsed := (← IO.monoNanosNow) - (← read).started
  return (Duration.ofNanoseconds? elapsed).getD .zero

instance : Worker OnMachine where
  perform
    | .loop iterations => do
      let mut count := 0
      for _ in [0:iterations.toNat] do
        count := count + 1
      discard (IO.mkRef count)
    | .fill bytes => do
      let mut buffer := ByteArray.emptyWithCapacity bytes.toNat
      for i in [0:bytes.toNat] do
        buffer := buffer.push i.toUInt8
      discard (IO.mkRef buffer)
  memory := return addressSpace
  uptime := uptime
  instant := return (Duration.ofNanoseconds? (← IO.monoNanosNow)).getD .zero

instance : Logger OnMachine where
  record r := do
    if (← read).filter.admits r then
      let elapsed := (Elapsed.text? (← uptime)).getD "0s"
      IO.eprintln (r.line ((← wallClock) / 1_000_000) elapsed)

end OnMachine

def filterVariable : String := "RUST_LOG"

/-- The exit code of a program. An abort shows as 134, as it does in a shell. -/
def Command.Ending.exitCode : Command.Ending → UInt32
  | .exit code => code
  | .abort => 134

def runProgram (args : List String) : IO UInt32 := do
  let started ← IO.monoNanosNow
  match Command.readLine args with
  | .error e =>
    let say := if e.exitCode = 0 then IO.println else IO.eprintln
    e.lines.forM say
    return e.exitCode
  | .ok request =>
    let filter := ((← IO.getEnv filterVariable).map Log.Filter.read).getD .standard
    let timer := (request.command.counter?.getD {}).timer
    let result : OnMachine (Except Command.Refusal (List String)) := (Command.run request).run
    match ← result.run ⟨timer, filter, started⟩ with
    | .ok lines =>
      lines.forM IO.println
      return 0
    | .error refusal =>
      IO.eprintln refusal.line
      return refusal.ending.exitCode

end Chronometry

def main (args : List String) : IO UInt32 := Chronometry.runProgram args
