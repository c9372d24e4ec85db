import Liquid.Numeric.Rounding

/-!
# Binary floating-point numbers

The double-precision format as exact data: a finite number is a signed significand and a power of
two in its one canonical form, beside the two infinities and a single not-a-number.  Quotients are
rounded to the nearest number, a half to the even significand.  Comparison is that of the exact
values; the two zeros are equal and not-a-number compares with nothing.
-/

namespace Liquid
namespace Numeric

/-- A binary format: the bits of a significand, and the least and greatest power of two that may
multiply an integral significand. -/
structure BinaryFormat where
  precision : Nat
  minExponent : Int
  maxExponent : Int

namespace BinaryFormat

def double : BinaryFormat := ⟨53, -1074, 971⟩

def single : BinaryFormat := ⟨24, -149, 104⟩

/-- Rounds a positive quotient to a significand and a power of two; `none` if it is too large. -/
def round? (f : BinaryFormat) (num den : Nat) : Option (Nat × Int) :=
  let e := max f.minExponent (floorLogTwo num den + 1 - f.precision)
  let (n, d) := scaleByTwo num den (-e)
  let m := roundHalfEven n d
  -- rounding up may leave the significand one bit too long, and then it is a power of two
  let (m, e) := if m == twoPow f.precision then (m / 2, e + 1) else (m, e)
  if e ≤ f.maxExponent then some (m, e) else none

end BinaryFormat

/-- The least number that is too long for a double-precision significand. -/
abbrev significandLimit : Nat := 9007199254740992

/-- Whether `significand * 2 ^ exponent` is the canonical form of a double-precision magnitude:
the significand has its full fifty-three bits, or the exponent is the least one. -/
def IsCanonical (significand : Nat) (exponent : Int) : Prop :=
  significand < significandLimit ∧ -1074 ≤ exponent ∧ exponent ≤ 971 ∧
    (significandLimit ≤ 2 * significand ∨ exponent = -1074)

instance (m : Nat) (e : Int) : Decidable (IsCanonical m e) :=
  inferInstanceAs (Decidable (_ ∧ _ ∧ _ ∧ _))

/-- A finite double-precision number, in canonical form. -/
structure FiniteBinary where
  negative : Bool
  significand : Nat
  exponent : Int
  canonical : IsCanonical significand exponent
deriving DecidableEq

inductive Binary64 where
  | nan
  | infinity (negative : Bool)
  | finite (x : FiniteBinary)
deriving DecidableEq

namespace FiniteBinary

def zero (negative : Bool) : FiniteBinary where
  negative := negative
  significand := 0
  exponent := -1074
  canonical := by decide

def magnitude (x : FiniteBinary) : Nat × Nat :=
  scaleByTwo x.significand 1 x.exponent

/-- The value in units of the least positive number. -/
def units (x : FiniteBinary) : Int :=
  let n := x.significand * twoPow (x.exponent + 1074).toNat
  if x.negative then -(n : Int) else n

def isWhole (x : FiniteBinary) : Bool :=
  let (n, d) := x.magnitude
  n % d == 0

end FiniteBinary

namespace Binary64

/-- Assembles a number from its sign, significand and power of two; a magnitude that has no
canonical form is beyond the greatest finite one. -/
def ofParts (negative : Bool) (significand : Nat) (exponent : Int) : Binary64 :=
  if h : IsCanonical significand exponent then
    .finite ⟨negative, significand, exponent, h⟩
  else .infinity negative

/-- The number nearest to a signed quotient. -/
def ofQuotient (negative : Bool) (num den : Nat) : Binary64 :=
  if num == 0 then .finite (.zero negative)
  else match BinaryFormat.double.round? num den with
    | some (m, e) => ofParts negative m e
    | none => .infinity negative

def ofInt (n : Int) : Binary64 :=
  ofQuotient (n < 0) n.natAbs 1

def isWhole : Binary64 → Bool
  | finite x => x.isWhole
  | _ => false

/-- The order key of a number other than not-a-number: the side of the finite numbers on which it
lies, and its exact value there. -/
def key? : Binary64 → Option (Int × Int)
  | nan => none
  | infinity negative => some (if negative then -1 else 1, 0)
  | finite x => some (0, x.units)

def compareKeys (a b : Int × Int) : Ordering :=
  (compare a.1 b.1).then (compare a.2 b.2)

/-- The order of two numbers, unless one of them is not-a-number. -/
def compare? (x y : Binary64) : Option Ordering :=
  match x.key?, y.key? with
  | some a, some b => some (compareKeys a b)
  | _, _ => none

/-- Numerical equality: the zeros are equal and not-a-number differs from itself. -/
def beq (x y : Binary64) : Bool :=
  x.compare? y == some .eq

instance : BEq Binary64 := ⟨beq⟩

end Binary64
end Numeric
end Liquid
