import Liquid.Text.Blank
import Liquid.Text.Search
import Liquid.Numeric.Conversion
import Liquid.Value.Basic

/-!
# Comparing values

Equality comes in a strict form, within one kind of value, and a loose form that also compares
integers with other numbers.  Order is defined between texts, between dates, between moments and
between numbers of any kinds; a text on one side of a number is read as a decimal, since decimals
travel as texts in structured data.
-/

namespace Liquid

open Numeric

namespace Value

mutual

/-- Equality within one kind of value; numbers are equal by value, lists item by item, and maps key
by key. -/
def strictEq : Value → Value → Bool
  | nil, nil => true
  | bool a, bool b => a == b
  | int a, int b => a == b
  | float a, float b => a == b
  | str a, str b => a == b
  | date a, date b => decide (a = b)
  | dateTime a, dateTime b => decide (a = b)
  | decimal a, decimal b => a == b
  | list a, list b => strictEqItems a b
  | map a, map b => a.length == b.length && strictEqEntries a b
  | _, _ => false
termination_by structural v => v

def strictEqItems : List Value → List Value → Bool
  | [], [] => true
  | a :: as, b :: bs => a.strictEq b && strictEqItems as bs
  | _, _ => false
termination_by structural l => l

/-- Whether every entry has an equal value under its key among some others. -/
def strictEqEntries : List (String × Value) → List (String × Value) → Bool
  | [], _ => true
  | (key, a) :: rest, others =>
    match others.lookup key with
    | some b => a.strictEq b && strictEqEntries rest others
    | none => false
termination_by structural l => l

end

/-- Equality that also holds between an integer and a floating-point number or a decimal of the
same value. -/
def looseEq : Value → Value → Bool
  | int a, float b => Binary64.ofInt a.toInt == b
  | float a, int b => Binary64.ofInt b.toInt == a
  | int a, decimal b => Decimal.ofInt64 a == b
  | decimal a, int b => Decimal.ofInt64 b == a
  | a, b => a.strictEq b

/-- A number as a decimal, if it has such a form. -/
def toDecimal? : Value → Option Decimal
  | int n => some (.ofInt64 n)
  | float x => Decimal.ofBinary64? x
  | decimal d => some d
  | _ => none

/-- The decimal that a value stands for when it is ordered against another: a number itself, and a
text that is read as a decimal if the other one is a number with a decimal form. -/
def decimalBeside? (v other : Value) : Option Decimal :=
  match v, other.toDecimal? with
  | str s, some _ => Decimal.ofChars? (Text.trimChars s.toList)
  | _, _ => v.toDecimal?

def toBinary64? : Value → Option Binary64
  | int n => some (.ofInt n.toInt)
  | float x => some x
  | decimal d => some d.toBinary64
  | _ => none

/-- The order of two numbers as decimals, or as floating-point numbers where a decimal form is
missing. -/
def compareNumbers? (a b : Value) : Option Ordering :=
  match a.decimalBeside? b, b.decimalBeside? a with
  | some x, some y => some (x.compare y)
  | _, _ =>
    match a.toBinary64?, b.toBinary64? with
    | some x, some y => x.compare? y
    | _, _ => none

/-- The order of two values, if they can be ordered: texts by their characters, dates and moments
chronologically, numbers by value. -/
def compare? : Value → Value → Option Ordering
  | str a, str b => some (compare a b)
  | date a, date b => some (a.compare b)
  | dateTime a, dateTime b => some (a.compare b)
  | a, b => compareNumbers? a b

/-- Whether the first value holds the second: a text as a part of it, a list as an item. -/
def contains : Value → Value → Bool
  | str s, str t => Text.occursIn t.toList s.toList
  | list items, v => items.any (·.looseEq v)
  | _, _ => false

end Value
end Liquid
