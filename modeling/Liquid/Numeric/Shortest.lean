import Liquid.Numeric.Numeral

/-!
# The text of a floating-point number

The digits of a number are the fewest that are read back as the same number; among those the
nearest to it, and of two equally near the greater.  Layouts differ only in where the point
stands: `plain` never uses a power of ten, `exact` writes an integer in full, and `inspected` turns
to a power of ten for very large and very small magnitudes.
-/

namespace Liquid
namespace Numeric

/-- The greatest `e` with `10 ^ e ≤ num / den`, for a positive quotient. -/
def floorLogTen (num den : Nat) : Int :=
  let estimate : Int := (Text.digitsOf num).length - (Text.digitsOf den).length
  let (n, d) := scaleByTen num den (-estimate)
  if d ≤ n then estimate else estimate - 1

/-- The numbers that are read as one floating-point number: all between two bounds over a common
denominator, the bounds themselves if `closed`. -/
structure Neighbourhood where
  low : Nat
  value : Nat
  high : Nat
  den : Nat
  closed : Bool

namespace Neighbourhood

/-- The neighbourhood of a positive number reaches half-way to the next numbers on both sides; the
number below a power of two is nearer than the one above. -/
def ofFinite (x : FiniteBinary) : Neighbourhood :=
  let below := if 2 * x.significand == significandLimit && -1074 < x.exponent then 1 else 2
  let (unit, den) := scaleByTwo 1 1 (x.exponent - 2)
  { low := (4 * x.significand - below) * unit
    value := 4 * x.significand * unit
    high := (4 * x.significand + 2) * unit
    den := den
    closed := x.significand % 2 == 0 }

/-- Whether `count * 10 ^ place` lies in the neighbourhood. -/
def holds (s : Neighbourhood) (place : Int) (count : Nat) : Bool :=
  let (num, den) := scaleByTen count 1 place
  let a := num * s.den
  let low := s.low * den
  let high := s.high * den
  if s.closed then low ≤ a && a ≤ high else low < a && a < high

/-- The multiple of `10 ^ place` in the neighbourhood that is nearest to the value, if there is
one; a tie goes up. -/
def nearest? (s : Neighbourhood) (place : Int) : Option Nat :=
  let (num, den) := scaleByTen s.value s.den (-place)
  let below := num / den
  match s.holds place below, s.holds place (below + 1) with
  | true, true => some (roundHalfUp num den)
  | true, false => some below
  | false, true => some (below + 1)
  | false, false => none

/-- Looks for a multiple of `10 ^ place`, then of the next smaller powers of ten. -/
def search (s : Neighbourhood) : Nat → Int → Nat × Int
  | 0, place =>
    let (num, den) := scaleByTen s.value s.den (-place)
    (num / den, place)
  | tries + 1, place =>
    match s.nearest? place with
    | some count => if count % 10 == 0 then (count / 10, place + 1) else (count, place)
    | none => search s tries (place - 1)

end Neighbourhood

namespace FiniteBinary

/-- The fewest digits that denote the magnitude, and the power of ten that multiplies them; no
number needs more than seventeen digits. -/
def shortest (x : FiniteBinary) : Nat × Int :=
  if x.significand == 0 then (0, 0)
  else
    let s := Neighbourhood.ofFinite x
    s.search 17 (floorLogTen s.value s.den)

/-- A minus sign in front of the text of a negative number. -/
def signed (x : FiniteBinary) (cs : List Char) : List Char :=
  if x.negative then '-' :: cs else cs

/-- The shortest digits in positional form, with a point only before digits. -/
def plain (x : FiniteBinary) : List Char :=
  let (digits, place) := x.shortest
  x.signed (Text.fixedPoint (digits * tenPow place.toNat) (-place).toNat)

/-- The digits of an integer in full, and one zero after the point. -/
def exact (x : FiniteBinary) : List Char :=
  let (num, den) := x.magnitude
  x.signed (Text.digitsOf (num / den) ++ ['.', '0'])

/-- Digits with a point after the first, if there are more, and the power of ten of the first. -/
def scientific (digits : Nat) (place : Int) : List Char :=
  match Text.digitsOf digits with
  | [] => []
  | first :: rest =>
    let power := place + rest.length
    let point := if rest.isEmpty then [] else '.' :: rest
    let sign := if power < 0 then ['-'] else []
    first :: point ++ 'e' :: sign ++ Text.digitsOf power.natAbs

/-- Positional form with at least one digit after the point from a ten-thousandth up to 10 ^ 16,
and a power of ten for all other magnitudes but zero. -/
def inspected (x : FiniteBinary) : List Char :=
  let (digits, place) := x.shortest
  let first := place + (Text.digitsOf digits).length - 1
  if digits != 0 && (first < -4 || 16 ≤ first) then x.signed (scientific digits place)
  else if 0 ≤ place then x.signed (Text.digitsOf (digits * tenPow place.toNat) ++ ['.', '0'])
  else x.plain

end FiniteBinary

namespace Binary64

def infinityName (negative : Bool) : String :=
  if negative then "-inf" else "inf"

/-- The shortest text that denotes the number, without a power of ten. -/
def plainText : Binary64 → String
  | nan => "NaN"
  | infinity negative => infinityName negative
  | finite x => String.ofList x.plain

/-- The text of the number in a document: an integer in full with `.0`, any other number in its
shortest form. -/
def display : Binary64 → String
  | nan => "NaN"
  | infinity negative => infinityName negative
  | finite x => String.ofList (if x.isWhole then x.exact else x.plain)

/-- The text of the number in a diagnosis. -/
def inspect : Binary64 → String
  | nan => "NaN"
  | infinity negative => infinityName negative
  | finite x => String.ofList x.inspected

end Binary64
end Numeric
end Liquid
