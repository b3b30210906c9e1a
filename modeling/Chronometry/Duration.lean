import Chronometry.Number
import Chronometry.Text.Blank

/-! Durations of whole nanoseconds, and the texts that name them. -/
namespace Chronometry

/-- A duration. Its whole seconds fit in a word. -/
structure Duration where
  nanoseconds : Nat
  fits : nanoseconds < 0x1_0000_0000_0000_0000 * 1_000_000_000
deriving DecidableEq

namespace Duration

def ofNanoseconds? (n : Nat) : Option Duration :=
  if h : n < 0x1_0000_0000_0000_0000 * 1_000_000_000 then some ⟨n, h⟩ else none

def zero : Duration := ⟨0, by decide⟩

def seconds (d : Duration) : Nat := d.nanoseconds / 1_000_000_000

def subseconds (d : Duration) : Nat := d.nanoseconds % 1_000_000_000

/-- The instants of a clock, as durations from its start, have fewer than 2 ^ 63 whole seconds. -/
def isInstant (nanoseconds : Nat) : Bool := nanoseconds < 0x8000_0000_0000_0000 * 1_000_000_000

def add? (d : Duration) (n : Nat) : Option Duration := ofNanoseconds? (d.nanoseconds + n)

inductive Error where
  | empty
  | number (cause : Number.Error)
  | unknownUnit (unit : Char)
  | overflow (text : String)
deriving DecidableEq

def Error.message : Error → String
  | .empty => "Empty duration string, if you want every 0 milliseconds use `0`."
  | .number cause => cause.message
  | .unknownUnit unit => "Invalid duration suffix: " ++ unit.toString
  | .overflow text => "Duration overflow: " ++ text

def unit? : Char → Option Nat
  | 's' => some 1
  | 'm' => some 60
  | 'h' => some (60 * 60)
  | 'd' => some (24 * 60 * 60)
  | _ => none

/-- One number with its unit, given by its digits; the number is read before the unit is looked up. -/
def component (digits : List Char) (unit : Char) : Except Error Nat := do
  let value ← (Number.read digits).mapError .number
  match unit? unit with
  | some seconds => .ok (value.toNat * seconds * 1_000_000_000)
  | none => .error (.unknownUnit unit)

def extend (text : String) (total : Duration) (n : Nat) : Except Error Duration :=
  match total.add? n with
  | some total => .ok total
  | none => .error (.overflow text)

/-- Reads the rest of `text` behind some digits and a total. Digits without a unit at the end are
milliseconds; blanks are skipped, even between digits. -/
def readFrom (text : String) : List Char → List Char → Duration → Except Error Duration
  | [], [], total => .ok total
  | [], digits, total => do
    let value ← (Number.read digits).mapError .number
    extend text total (value.toNat * 1_000_000)
  | c :: cs, digits, total =>
    if c.isDigit then readFrom text cs (digits ++ [c]) total
    else if Text.isBlank c then readFrom text cs digits total
    else do
      let n ← component digits c
      let total ← extend text total n
      readFrom text cs [] total

def read (text : String) : Except Error Duration :=
  match text.toList with
  | [] => .error .empty
  | cs => readFrom text cs [] zero

end Duration

end Chronometry
