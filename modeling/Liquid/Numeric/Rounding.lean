/-!
# Rounding quotients

A quotient of natural numbers rounded to the nearest integer, with the two usual ways to settle a
tie, and the binary magnitude of a quotient.
-/

namespace Liquid
namespace Numeric

def twoPow (e : Nat) : Nat :=
  Nat.pow 2 e

def tenPow (e : Nat) : Nat :=
  Nat.pow 10 e

/-- The integer nearest to `num / den`; a half goes to the even neighbour. -/
def roundHalfEven (num den : Nat) : Nat :=
  let q := num / den
  let r := num % den
  if 2 * r < den then q
  else if den < 2 * r then q + 1
  else q + q % 2

/-- The integer nearest to `num / den`; a half goes up. -/
def roundHalfUp (num den : Nat) : Nat :=
  (2 * num + den) / (2 * den)

/-- The quotient `num / den` times `2 ^ e`, as a quotient. -/
def scaleByTwo (num den : Nat) (e : Int) : Nat × Nat :=
  (num * twoPow e.toNat, den * twoPow (-e).toNat)

/-- The quotient `num / den` times `10 ^ e`, as a quotient. -/
def scaleByTen (num den : Nat) (e : Int) : Nat × Nat :=
  (num * tenPow e.toNat, den * tenPow (-e).toNat)

/-- The greatest `e` with `2 ^ e ≤ num / den`, for a positive quotient. -/
def floorLogTwo (num den : Nat) : Int :=
  let estimate : Int := num.log2 - den.log2
  let (n, d) := scaleByTwo num den (-estimate)
  if d ≤ n then estimate else estimate - 1

end Numeric
end Liquid
