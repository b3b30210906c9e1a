import Chronometry.Decimal.Fixed
import Chronometry.Profile
import Chronometry.Text.Column

/-! The table of a profile: each section with its share, its time and its throughput. -/
namespace Chronometry

namespace Profile

structure Row where
  name : String
  ticks : Ticks
  hits : UInt64
  percent : Float
  seconds : Option Float
  bytesPerSecond : Option Float

structure Report where
  total : Ticks
  frequency : UInt64
  rows : List Row

def throughput? (bytes : UInt64) (seconds : Option Float) : Option Float :=
  (seconds.filter fun s => 0 < s && 0 < bytes).map fun s => bytes.toFloat / s

def Row.ofSection (frequency : UInt64) (total : Ticks) (s : Section) : Row :=
  let seconds := s.ticks.seconds? frequency
  ⟨s.name, s.ticks, s.hits, s.ticks.percentOf total, seconds, throughput? s.bytes seconds⟩

/-- Name, ticks, share and hits, then the time and the throughput if they are known. Tick counts are
not aligned. -/
def Row.line (r : Row) : String :=
  "  " ++ Text.alignLeft 20 r.name ++ " " ++ r.ticks.text ++ " ticks " ++
    Text.alignRight 7 (Decimal.fixed 2 r.percent) ++ "% " ++
    Text.alignRight 8 (Word.text r.hits) ++ " hits" ++
    (match r.seconds with
      | some s => " " ++ Text.alignRight 12 (Decimal.fixed 4 (s * 1e3)) ++ " ms"
      | none => "") ++
    (match r.bytesPerSecond with
      | some b => " " ++ Text.alignRight 10 (Decimal.fixed 3 (b / 1e9)) ++ " GB/s"
      | none => "")

namespace Report

def headline (r : Report) : String :=
  match r.total.seconds? r.frequency with
  | some s =>
    "Total: " ++ r.total.text ++ " ticks (" ++ Decimal.fixed 4 (s * 1e3) ++ " ms @ " ++
      Word.text r.frequency ++ " Hz)"
  | none => "Total: " ++ r.total.text ++ " ticks"

def lines (r : Report) : List String := r.headline :: r.rows.map Row.line

def text (r : Report) : String := String.join (r.lines.map (· ++ "\n"))

end Report

end Profile

def Profiler.report (p : Profiler) : Profile.Report :=
  ⟨p.total, p.frequency, p.sections.map (Profile.Row.ofSection p.frequency p.total)⟩

end Chronometry
