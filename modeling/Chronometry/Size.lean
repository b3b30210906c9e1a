import Chronometry.Number
import Chronometry.Text.Blank
import Chronometry.Text.Letter

/-! Sizes in bytes, written as a number with an optional decimal or binary multiplier. -/
namespace Chronometry.Size

inductive Error where
  | empty
  | unknownSuffix
  | overflow
  | number (cause : Number.Error)
  /-- The place where the suffix would start lies inside a character. -/
  | insideCharacter
deriving DecidableEq

def Error.message : Error → String
  | .empty => "empty string"
  | .unknownSuffix => "invalid prefix symbol"
  | .overflow => "size overflow"
  | .number cause => cause.message
  | .insideCharacter => "the suffix starts inside a character"

def multipliers : List (String × Nat) :=
  [("k", 1_000), ("m", 1_000_000), ("g", 1_000_000_000), ("t", 1_000_000_000_000),
   ("ki", 1024), ("mi", 1024 * 1024), ("gi", 1024 * 1024 * 1024), ("ti", 1024 * 1024 * 1024 * 1024)]

def multiplier? (suffix : List Char) : Option Nat :=
  (multipliers.find? fun m => m.1.toList == suffix).map (·.2)

/-- Cuts a text after the given number of UTF-8 bytes, if a character ends there. -/
def splitAtByte : Nat → List Char → Option (List Char × List Char)
  | 0, cs => some ([], cs)
  | _ + 1, [] => none
  | n + 1, c :: cs =>
    if c.utf8Size ≤ n + 1 then
      (splitAtByte (n + 1 - c.utf8Size) cs).map fun (front, rest) => (c :: front, rest)
    else none

def scale (value : UInt64) (factor : Nat) : Except Error UInt64 :=
  match Word.ofNat? (value.toNat * factor) with
  | some size => .ok size
  | none => .error .overflow

/-- Reads a text that has been trimmed and put in lower case. The suffix starts at the byte whose
offset is the number of characters in front of the first letter. -/
def readTrimmed (cs : List Char) : Except Error UInt64 :=
  match cs.findIdx? Text.isLetter with
  | none => (Number.read cs).mapError .number
  | some offset =>
    match splitAtByte offset cs with
    | none => .error .insideCharacter
    | some (front, suffix) =>
      match multiplier? suffix with
      | none => .error .unknownSuffix
      | some factor => do
        let value ← (Number.read (Text.trim front)).mapError .number
        scale value factor

/-- Reads a size. Blanks around the text and between number and suffix are ignored, as is the case
of ASCII letters. -/
def read (text : String) : Except Error UInt64 :=
  match (Text.trim text.toList).map Char.toLower with
  | [] => .error .empty
  | cs => readTrimmed cs

end Chronometry.Size
