import Chronometry.Decimal.Fixed

/-! Running statistics: least, greatest, mean and standard deviation in one pass over the samples. -/
namespace Chronometry.Statistics

/-- The arithmetic of the recurrence, with counts of type `κ`. It is left open, so that the same
recurrence can be read in binary64 with counts in a word, and in exact numbers. -/
class Scalar (α : Type) (κ : outParam Type) extends Add α, Sub α, Mul α, Div α where
  zero : α
  ofCount : κ → α
  less : α → α → Bool

instance : Scalar Float UInt64 where
  zero := 0
  ofCount := UInt64.toFloat
  less a b := a < b

/-- The state after some samples. Before the first one, least and greatest are absent and stand for the
two infinities; `spread` is the sum of the squared distances to the mean. -/
@[ext] structure Stream (α κ : Type) where
  count : κ
  least : Option α
  greatest : Option α
  mean : α
  spread : α

namespace Stream
variable {α κ : Type} [Scalar α κ] [∀ n, OfNat κ n] [Add κ] [Sub κ] [LT κ] [DecidableLT κ]
  [DecidableEq κ]

def empty : Stream α κ := ⟨0, none, none, Scalar.zero, Scalar.zero⟩

def isEmpty (s : Stream α κ) : Bool := s.count == 0

/-- Of equal samples, such as the two zeros, the new one. -/
def lower (least : Option α) (x : α) : α :=
  match least with
  | none => x
  | some least => if Scalar.less least x then least else x

def upper (greatest : Option α) (x : α) : α :=
  match greatest with
  | none => x
  | some greatest => if Scalar.less x greatest then greatest else x

/-- Takes in one sample. The mean moves by its share of the distance, and the squared distance is
the product of the distances to the old and the new mean. -/
def push (s : Stream α κ) (x : α) : Stream α κ :=
  let count := s.count + 1
  let delta := x - s.mean
  let mean := s.mean + delta / Scalar.ofCount count
  { count
    least := some (lower s.least x)
    greatest := some (upper s.greatest x)
    mean
    spread := s.spread + delta * (x - mean) }

def variance (s : Stream α κ) : α :=
  if s.count < 2 then Scalar.zero else s.spread / Scalar.ofCount (s.count - 1)

end Stream

/-- Samples in binary64. Their number is kept in a word and starts again after `2 ^ 64` of them. -/
abbrev Samples := Stream Float UInt64

inductive Error where
  | empty
  | nonFinite (value : Float)

def Error.message : Error → String
  | .empty => "Cannot compute metrics of an empty stream"
  | .nonFinite value => "Non-finite value " ++ Decimal.fixed 0 value

structure Summary where
  count : UInt64
  min : Float
  max : Float
  mean : Float
  deviation : Float

/-- Takes in a finite sample. Any other value is refused before anything is written. -/
def Stream.update (x : Float) : ExceptT Error (StateM Samples) Unit := do
  if !x.isFinite then throw (.nonFinite x)
  modify (·.push x)

def infinity : Float := 1 / 0

def Stream.summary (s : Samples) : Except Error Summary :=
  if s.isEmpty then .error .empty
  else .ok ⟨s.count, s.least.getD infinity, s.greatest.getD (-infinity), s.mean, s.variance.sqrt⟩

inductive Call where
  | update (value : Float)
  | length
  | isEmpty
  | summary

inductive Reply where
  | taken
  | length (count : UInt64)
  | isEmpty (value : Bool)
  | summary (result : Summary)

def Stream.call (s : Samples) : Call → Except Error Reply × Samples
  | .update value =>
    let (result, s) := (Stream.update value).run s
    ((fun _ => .taken) <$> result, s)
  | .length => (.ok (.length s.count), s)
  | .isEmpty => (.ok (.isEmpty s.isEmpty), s)
  | .summary => (.summary <$> s.summary, s)

def Stream.calls (s : Samples) : List Call → List (Except Error Reply) × Samples
  | [] => ([], s)
  | call :: rest =>
    let (reply, s) := s.call call
    let (replies, s) := s.calls rest
    (reply :: replies, s)

end Chronometry.Statistics
