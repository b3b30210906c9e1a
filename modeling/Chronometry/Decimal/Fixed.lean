/-! Decimal text of binary64 numbers with a fixed number of places, computed from the exact value. -/
namespace Chronometry.Decimal

/-- The integer nearest to a quotient, the even one at a midpoint. -/
def roundDiv (num den : Nat) : Nat :=
  let q := num / den
  let r := num % den
  if 2 * r < den then q
  else if den < 2 * r then q + 1
  else q + q % 2

/-- What the bits of a binary64 number stand for. A finite number is `mantissa * 2 ^ exponent` with a sign,
which zero has too. -/
inductive Binary64 where
  | nan
  | infinite (negative : Bool)
  | finite (negative : Bool) (mantissa : Nat) (exponent : Int)
deriving DecidableEq

def Binary64.ofBits (bits : Nat) : Binary64 :=
  let negative := bits / 0x8000_0000_0000_0000 % 2 == 1
  let exponent : Nat := bits / 0x10_0000_0000_0000 % 0x800
  let fraction := bits % 0x10_0000_0000_0000
  if exponent = 0x7FF then
    if fraction = 0 then .infinite negative else .nan
  else if exponent = 0 then .finite negative fraction (-1074)
  else .finite negative (0x10_0000_0000_0000 + fraction) ((exponent : Int) - 1075)

def Binary64.ofFloat (x : Float) : Binary64 := .ofBits x.toBits.toNat

def scaled (places mantissa : Nat) (exponent : Int) : Nat :=
  match exponent with
  | .ofNat e => mantissa * Nat.pow 2 e * Nat.pow 10 places
  | .negSucc e => roundDiv (mantissa * Nat.pow 10 places) (Nat.pow 2 (e + 1))

/-- The text of `n / 10 ^ places` with exactly that many places, and no point if there are none. -/
def placed (places n : Nat) : String :=
  if places = 0 then n.repr
  else
    let fraction := (n % Nat.pow 10 places).repr
    (n / Nat.pow 10 places).repr ++ "." ++ "".pushn '0' (places - fraction.length) ++ fraction

/-- The sign is that of the number, so a negative number that rounds to zero keeps it. -/
def fixed (places : Nat) (x : Float) : String :=
  match Binary64.ofFloat x with
  | .nan => "NaN"
  | .infinite negative => if negative then "-inf" else "inf"
  | .finite negative mantissa exponent =>
    (if negative then "-" else "") ++ placed places (scaled places mantissa exponent)

end Chronometry.Decimal
