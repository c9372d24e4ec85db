import Liquid.Text.Digits
import Liquid.Numeric.Binary64

/-!
# Decimal numerals

A numeral is a sign, decimal digits with a point somewhere among them, and a power of ten.  This
file reads numerals and finds the floating-point number nearest to one.
-/

namespace Liquid
namespace Numeric

/-- The number `digits * 10 ^ exponent` with a sign. -/
structure Numeral where
  negative : Bool
  digits : Nat
  exponent : Int
deriving DecidableEq

namespace Numeral

/-- Reads the power of ten that may follow the digits. -/
def exponent? : List Char → Option Int
  | [] => some 0
  | c :: rest => if c == 'e' || c == 'E' then Text.int? rest else none

/-- Splits digits, with or without a point, off the front: those before the point, those after
it, and the rest. -/
def splitDigits (cs : List Char) : List Char × List Char × List Char :=
  match cs.dropWhile Char.isDigit with
  | '.' :: rest => (cs.takeWhile Char.isDigit, rest.takeWhile Char.isDigit,
      rest.dropWhile Char.isDigit)
  | rest => (cs.takeWhile Char.isDigit, [], rest)

/-- Reads a sign, digits of which at least one stands before or after the point, and an optional
power of ten. -/
def ofChars? (cs : List Char) : Option Numeral :=
  let (negative, unsigned) := Text.splitSign cs
  let (whole, fraction, rest) := splitDigits unsigned
  if whole.isEmpty && fraction.isEmpty then none
  else (exponent? rest).map fun e =>
    ⟨negative, Text.natOfDigits (whole ++ fraction), e - fraction.length⟩

end Numeral

namespace Binary64

/-- Numbers of this many decimal digits before the point are beyond every binary format here, and
numbers with this many zeros after it are nearest to zero. -/
def decimalReach : Int := 400

/-- The number of the format that is nearest to a numeral. -/
def ofNumeral (f : BinaryFormat) (n : Numeral) : Binary64 :=
  let size : Int := (Text.digitsOf n.digits).length + n.exponent
  if n.digits == 0 || size < -decimalReach then .finite (.zero n.negative)
  else if decimalReach < size then .infinity n.negative
  else
    let (num, den) := scaleByTen n.digits 1 n.exponent
    match f.round? num den with
    | none => .infinity n.negative
    | some (m, e) =>
      let (num, den) := scaleByTwo m 1 e
      ofQuotient n.negative num den

/-- Reads the number of the format that a text denotes: a numeral, or in any case of letters
infinity or not-a-number, each with an optional sign. -/
def ofChars? (f : BinaryFormat) (cs : List Char) : Option Binary64 :=
  let (negative, unsigned) := Text.splitSign cs
  let word := String.ofList (unsigned.map Char.toLower)
  if word == "inf" || word == "infinity" then some (.infinity negative)
  else if word == "nan" then some .nan
  else (Numeral.ofChars? cs).map (ofNumeral f)

end Binary64
end Numeric
end Liquid
