import Liquid.Numeric.Binary64
import Liquid.Numeric.Decimal

/-!
# Between binary and decimal numbers

A decimal goes to the nearest floating-point number.  A floating-point number whose exponent is not
negative is an integer, and goes to the decimal of the same value if that is in range.  Any other
one goes to a decimal of about fifteen significant digits: its power of two is worked into a
ninety-six bit mantissa, and then digits after the point are dropped until the mantissa has at most
fifty-two bits.
-/

namespace Liquid
namespace Numeric

/-- The floating-point number nearest to a decimal. -/
def Decimal.toBinary64 (d : Decimal) : Binary64 :=
  .ofQuotient d.negative d.mantissa (tenPow d.scale)

namespace Decimal

/-- Halves `mantissa / 10 ^ decimals`: exactly, if the mantissa is even or has room for a factor of
five, and else by dropping its last bit. -/
def halve (s : Nat × Nat) : Nat × Nat :=
  if s.1 % 2 == 0 then (s.1 / 2, s.2)
  else if 5 * s.1 < mantissaLimit then (5 * s.1, s.2 + 1)
  else (s.1 / 2, s.2)

/-- Drops a number of digits one by one, each rounded half up, until none is left. -/
def dropDigits : Nat → Nat → Nat
  | 0, mantissa => mantissa
  | n + 1, mantissa =>
    if mantissa / 10 == 0 then 0 else dropDigits n (roundHalfUp mantissa 10)

/-- Drops digits after the point one by one, each rounded half up, while there are any and the
mantissa has more than fifty-two bits. -/
def limitBits : Nat → Nat → Nat × Nat
  | 0, mantissa => (mantissa, 0)
  | decimals + 1, mantissa =>
    if mantissa.log2 < 52 then (mantissa, decimals + 1)
    else limitBits decimals (roundHalfUp mantissa 10)

/-- Removes the zeros at the end of the digits after the point. -/
def stripZeros : Nat → Nat → Nat × Nat
  | 0, mantissa => (mantissa, 0)
  | decimals + 1, mantissa =>
    if mantissa % 10 == 0 then stripZeros decimals (mantissa / 10) else (mantissa, decimals + 1)

/-- The mantissa and the number of decimals for `mantissa / 2 ^ halvings`. -/
def ofHalvings (mantissa halvings : Nat) : Nat × Nat :=
  let (m, decimals) := Nat.repeat halve halvings (mantissa, 0)
  let m := dropDigits (decimals - maxScale) m
  let decimals := if m == 0 then 0 else min decimals maxScale
  let (m, decimals) := limitBits decimals m
  stripZeros decimals m

/-- The decimal for a finite floating-point number, unless it is too large. -/
def ofFinite? (x : FiniteBinary) : Option Decimal :=
  if x.exponent < 0 then
    let (mantissa, scale) := ofHalvings x.significand x.exponent.natAbs
    ofParts? x.negative mantissa scale
  else ofParts? x.negative (x.significand * twoPow x.exponent.toNat) 0

/-- The decimal for a floating-point number, unless it is too large or not finite. -/
def ofBinary64? : Binary64 → Option Decimal
  | .finite x => ofFinite? x
  | _ => none

end Decimal
end Numeric
end Liquid
