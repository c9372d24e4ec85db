/-!
# Decimal digits

The value of a run of decimal digits, and the digits of a number.
-/

namespace Liquid
namespace Text

/-- The number that a run of decimal digits denotes; the empty run denotes zero. -/
def natOfDigits (cs : List Char) : Nat :=
  Nat.ofDigitChars 10 cs 0

/-- The decimal digits of a number, without leading zeros. -/
def digitsOf (n : Nat) : List Char :=
  Nat.toDigits 10 n

/-- The decimal digits of a number, filled up with zeros on the left to the given width. -/
def paddedDigits (width n : Nat) : List Char :=
  let digits := digitsOf n
  List.replicate (width - digits.length) '0' ++ digits

/-- The number `mantissa / 10 ^ scale` in positional form, with exactly `scale` digits after the
point and no point when there are none. -/
def fixedPoint (mantissa scale : Nat) : List Char :=
  let digits := paddedDigits (scale + 1) mantissa
  if scale == 0 then digits
  else digits.take (digits.length - scale) ++ '.' :: digits.drop (digits.length - scale)

/-- Whether the run is not empty and holds decimal digits only. -/
def isDigits (cs : List Char) : Bool :=
  !cs.isEmpty && cs.all Char.isDigit

/-- Takes a leading sign off: whether it was a minus, and the rest. -/
def splitSign : List Char → Bool × List Char
  | '-' :: rest => (true, rest)
  | '+' :: rest => (false, rest)
  | rest => (false, rest)

/-- Reads decimal digits, after a plus sign if there is one, as a natural number. -/
def nat? (cs : List Char) : Option Nat :=
  let digits := match cs with
    | '+' :: rest => rest
    | rest => rest
  if isDigits digits then some (natOfDigits digits) else none

/-- Reads decimal digits, after a sign if there is one, as an integer. -/
def int? (cs : List Char) : Option Int :=
  let (negative, digits) := splitSign cs
  if isDigits digits then
    some (if negative then -(natOfDigits digits : Int) else natOfDigits digits)
  else none

/-- Reads an integer that fits in sixty-four bits. -/
def int64? (cs : List Char) : Option Int64 :=
  match int? cs with
  | some n =>
    if Int64.minValue.toInt ≤ n ∧ n ≤ Int64.maxValue.toInt then some (Int64.ofInt n)
    else none
  | none => none

end Text
end Liquid
