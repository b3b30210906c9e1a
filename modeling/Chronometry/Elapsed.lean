import Chronometry.Duration

/-! Elapsed times as people read them, such as `1h2m3s456ms`. That the seconds count as signed is this
program's own. How a span is balanced into units and printed, and how long a span can be, is an
assumption about the span printer that the program calls; no rule of the program fixes it. -/
namespace Chronometry.Elapsed

/-- Days, hours, minutes, seconds and milliseconds that add up to a number of milliseconds, each
unit below one of the next larger. Days are not carried further. -/
def components (ms : Nat) : List (Nat × String) :=
  [(ms / 86400000, "d"), (ms / 3600000 % 24, "h"), (ms / 60000 % 60, "m"), (ms / 1000 % 60, "s"),
   (ms % 1000, "ms")]

def magnitudeText (ms : Nat) : String :=
  match (components ms).filter (·.1 ≠ 0) with
  | [] => "0s"
  | parts => String.join (parts.map fun (count, unit) => count.repr ++ unit)

/-- The longest elapsed time that can be written, in seconds. -/
def limit : Nat := 631107417600

def signedSeconds (d : Duration) : Nat × Bool :=
  if d.seconds < 0x8000_0000_0000_0000 then (d.seconds, false)
  else (0x1_0000_0000_0000_0000 - d.seconds, true)

/-- The seconds count as signed; the milliseconds are added to their magnitude. A time beyond the
limit has no text. -/
def text? (d : Duration) : Option String :=
  let (seconds, negative) := signedSeconds d
  if seconds ≤ limit then
    let ms := seconds * 1000 + d.subseconds / 1_000_000
    some ((if negative then "-" else "") ++ magnitudeText ms)
  else none

end Chronometry.Elapsed
