import Liquid.Text.Digits
import Liquid.Numeric.Rounding

/-!
# Fixed-point decimal numbers

A decimal is a sign, an integer of at most ninety-six bits and the number of its digits that stand
after the point, at most twenty-eight.  The scale is part of the value's text but not of its
magnitude: equality and order are those of the rational numbers denoted.
-/

namespace Liquid
namespace Numeric

/-- The least number that is too long for a mantissa, 2 to the power 96. -/
abbrev mantissaLimit : Nat := 79228162514264337593543950336

/-- A decimal number `± mantissa / 10 ^ scale`.  Zero may carry a minus sign, which shows in its
text only: digits that denote zero are read without it, and a negative number that is rounded to
zero keeps it. -/
structure Decimal where
  negative : Bool
  mantissa : Nat
  scale : Nat
  mantissa_lt : mantissa < mantissaLimit
  scale_le : scale ≤ 28
deriving DecidableEq

namespace Decimal

/-- The greatest number of digits after the point. -/
def maxScale : Nat := 28

/-- Assembles a decimal, if the mantissa and the scale are in range. -/
def ofParts? (negative : Bool) (mantissa scale : Nat) : Option Decimal :=
  if h : mantissa < mantissaLimit ∧ scale ≤ 28 then
    some ⟨negative, mantissa, scale, h.1, h.2⟩
  else none

def zero : Decimal where
  negative := false
  mantissa := 0
  scale := 0
  mantissa_lt := by decide
  scale_le := by decide

instance : Inhabited Decimal := ⟨zero⟩

/-- A sixty-four bit integer without digits after the point. -/
def ofInt64 (n : Int64) : Decimal where
  negative := n.toInt < 0
  mantissa := n.toInt.natAbs
  scale := 0
  mantissa_lt := by
    have h₁ := n.le_toInt
    have h₂ := n.toInt_lt
    simp only [mantissaLimit]
    omega
  scale_le := by decide

def signedMantissa (d : Decimal) : Int :=
  if d.negative then -(d.mantissa : Int) else d.mantissa

/-- The value in units of the least positive decimal. -/
def units (d : Decimal) : Int :=
  d.signedMantissa * tenPow (28 - d.scale)

def compare (a b : Decimal) : Ordering :=
  Ord.compare a.units b.units

/-- Equality by value: `2.5` and `2.50` are equal. -/
def beq (a b : Decimal) : Bool :=
  a.units == b.units

instance : BEq Decimal := ⟨beq⟩

instance : Ord Decimal := ⟨compare⟩

/-- The text of a decimal: all digits of its scale after the point. -/
def toChars (d : Decimal) : List Char :=
  let digits := Text.fixedPoint d.mantissa d.scale
  if d.negative then '-' :: digits else digits

def display (d : Decimal) : String :=
  String.ofList d.toChars

/-! ### Reading -/

/-- Whether the characters may stand where digits no longer count. -/
def isIgnorable (cs : List Char) : Bool :=
  cs.all fun c => c.isDigit || c == '_'

/-- Drops digits after the last that fits: half a unit or more in the first digit dropped rounds
up, and if the mantissa then no longer fits it gives up one more digit. -/
def roundUp? (mantissa scale : Nat) (dropped : Nat) : Option (Nat × Nat) :=
  if dropped < 5 then some (mantissa, scale)
  else if mantissa + 1 < mantissaLimit then some (mantissa + 1, scale)
  else if scale == 0 then none
  else some ((mantissa + 5) / 10, scale - 1)

/-- A mantissa below this limit is short: a tenth of the greatest number of sixty-four bits, less
the greatest one of eight. -/
abbrev shortLimit : Nat := 1844674407370954906

/-- Reads digits with at most one point; an underscore may stand after the first digit.  `point`
tells whether the point has been met and `seen` whether a digit has.  When the scale is exhausted,
the next digit decides how the number is rounded; an underscore in its place is skipped, but if the
mantissa was short up to its last digit the underscore stands for a digit zero. -/
def scan (point seen : Bool) (mantissa scale : Nat) : List Char → Option (Nat × Nat)
  | [] => if seen then some (mantissa, scale) else none
  | c :: rest =>
    if c.isDigit then
      let longer := 10 * mantissa + Text.natOfDigits [c]
      if point && (scale == maxScale || mantissaLimit ≤ longer) then
        if isIgnorable rest then roundUp? mantissa scale (Text.natOfDigits [c]) else none
      else if longer < mantissaLimit then
        scan point true longer (if point then scale + 1 else scale) rest
      else none
    else if c == '.' && !point then scan true seen mantissa scale rest
    else if c == '_' && seen then
      if point && scale == maxScale && mantissa / 10 < shortLimit then
        if isIgnorable rest then some (mantissa, scale) else none
      else scan point seen mantissa scale rest
    else none

/-- Reads a decimal in positional form; zero is read without its sign. -/
def ofPositional? (cs : List Char) : Option Decimal :=
  let (negative, unsigned) := Text.splitSign cs
  match scan false false 0 0 unsigned with
  | some (mantissa, scale) => ofParts? (negative && mantissa != 0) mantissa scale
  | none => none

/-- The decimal with its point moved to the left, rounded where the scale would grow too long. -/
def shiftLeft? (d : Decimal) (places : Nat) : Option Decimal :=
  if d.scale + places ≤ maxScale then ofParts? d.negative d.mantissa (d.scale + places)
  else ofParts? d.negative
    (roundHalfUp d.mantissa (tenPow (d.scale + places - maxScale))) maxScale

/-- The decimal with its point moved to the right. -/
def shiftRight? (d : Decimal) (places : Nat) : Option Decimal :=
  if places ≤ d.scale then ofParts? d.negative d.mantissa (d.scale - places)
  else ofParts? d.negative (d.mantissa * tenPow (places - d.scale)) 0

/-- Moves the point of a decimal by the power of ten that the text denotes, at most twenty-eight
places. -/
def applyExponent? (d : Decimal) (cs : List Char) : Option Decimal :=
  let (left, unsigned) := match cs with
    | '-' :: rest => (true, rest)
    | rest => (false, rest)
  match Text.nat? unsigned with
  | some places =>
    if maxScale < places then none
    else if left then d.shiftLeft? places else d.shiftRight? places
  | none => none

/-- Whether the character introduces a power of ten. -/
def isExponentMark (c : Char) : Bool :=
  c == 'e' || c == 'E'

/-- Reads a decimal in positional form, or one followed by a power of ten. -/
def ofChars? (cs : List Char) : Option Decimal :=
  match ofPositional? cs with
  | some d => some d
  | none =>
    match cs.dropWhile (!isExponentMark ·) with
    | [] => none
    | _ :: exponent =>
      match ofPositional? (cs.takeWhile (!isExponentMark ·)) with
      | some d => d.applyExponent? exponent
      | none => none

end Decimal
end Numeric
end Liquid
