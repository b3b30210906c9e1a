/-! Work to be timed. -/
namespace Chronometry

inductive Workload where
  | loop (iterations : UInt64)
  | fill (bytes : UInt64)
deriving DecidableEq

def fillPattern (buffer : List UInt8) : List UInt8 := buffer.mapIdx fun i _ => i.toUInt8

/-- Fills the part of a buffer from one index up to another, if there is such a part; indices count
from its start. -/
def fillPart? (buffer : List UInt8) (first last : Nat) : Option (List UInt8) :=
  if first ≤ last ∧ last ≤ buffer.length then
    some (buffer.take first ++ fillPattern ((buffer.take last).drop first) ++ buffer.drop last)
  else none

/-- On a simulated clock every iteration and every byte takes a nanosecond. -/
def Workload.nanoseconds : Workload → UInt64
  | .loop iterations => iterations
  | .fill bytes => bytes

end Chronometry
