import Chronometry.Word

/-! Reading 64-bit words written in decimal. -/
namespace Chronometry.Number

inductive Error where
  | empty
  | invalidDigit
  | tooLarge
deriving DecidableEq

def Error.message : Error → String
  | .empty => "cannot parse integer from empty string"
  | .invalidDigit => "invalid digit found in string"
  | .tooLarge => "number too large to fit in target type"

/-- Appends one digit to the value read so far. The digit is examined first, so at one position a
stray character is reported before an overflow. -/
def push (value : Nat) (c : Char) : Except Error Nat :=
  if c.isDigit then
    let value := value * 10 + (c.toNat - '0'.toNat)
    if value ≤ Word.maxNat then .ok value else .error .tooLarge
  else .error .invalidDigit

def ofDigits (cs : List Char) : Except Error UInt64 := Word.clamp <$> cs.foldlM push 0

/-- One leading `+` is allowed; a sign without digits is a stray character. -/
def read : List Char → Except Error UInt64
  | [] => .error .empty
  | ['+'] => .error .invalidDigit
  | '+' :: cs => ofDigits cs
  | cs => ofDigits cs

end Chronometry.Number
