import Liquid.Text.Digits

/-!
# Dates and times

Dates of the proleptic Gregorian calendar, and dates with a time of day, which may fall into a leap
second.  Both are ordered chronologically and have a text that starts with the year.
-/

namespace Liquid

def isLeapYear (year : Int) : Bool :=
  year % 4 == 0 && (year % 100 != 0 || year % 400 == 0)

def daysInMonth (year : Int) (month : Nat) : Nat :=
  if month == 2 then (if isLeapYear year then 29 else 28)
  else if month == 4 || month == 6 || month == 9 || month == 11 then 30
  else 31

structure Date where
  year : Int
  month : Nat
  day : Nat
  month_mem : 1 ≤ month ∧ month ≤ 12
  day_mem : 1 ≤ day ∧ day ≤ daysInMonth year month
deriving DecidableEq

/-- A day and a time of day to the nanosecond.  A leap second is the part of second 59 from
nanosecond 1000000000 on. -/
structure DateTime where
  date : Date
  hour : Nat
  minute : Nat
  second : Nat
  nanosecond : Nat
  hour_lt : hour < 24
  minute_lt : minute < 60
  second_lt : second < 60
  nanosecond_lt : nanosecond < 1000000000 ∨ (second = 59 ∧ nanosecond < 2000000000)
deriving DecidableEq

/-- The year with at least four digits; a sign stands before every year that needs more, and
before the negative ones. -/
def yearChars (year : Int) : List Char :=
  let digits := Text.paddedDigits 4 year.natAbs
  if 0 ≤ year ∧ year ≤ 9999 then digits
  else (if year < 0 then '-' else '+') :: digits

namespace Date

/-- The day with this year, month and day of the month, if there is one. -/
def ofParts? (year : Int) (month day : Nat) : Option Date :=
  if h : (1 ≤ month ∧ month ≤ 12) ∧ 1 ≤ day ∧ day ≤ daysInMonth year month then
    some ⟨year, month, day, h.1, h.2⟩
  else none

def compare (a b : Date) : Ordering :=
  ((Ord.compare a.year b.year).then (Ord.compare a.month b.month)).then (Ord.compare a.day b.day)

/-- Year, month and day with hyphens between them. -/
def toChars (d : Date) : List Char :=
  yearChars d.year ++ '-' :: Text.paddedDigits 2 d.month ++ '-' :: Text.paddedDigits 2 d.day

def display (d : Date) : String :=
  String.ofList d.toChars

end Date

namespace DateTime

def ofParts? (date : Date) (hour minute second nanosecond : Nat) : Option DateTime :=
  if h : hour < 24 ∧ minute < 60 ∧ second < 60 ∧
      (nanosecond < 1000000000 ∨ (second = 59 ∧ nanosecond < 2000000000)) then
    some ⟨date, hour, minute, second, nanosecond, h.1, h.2.1, h.2.2.1, h.2.2.2⟩
  else none

def compare (a b : DateTime) : Ordering :=
  (a.date.compare b.date).then <| (Ord.compare a.hour b.hour).then <|
    (Ord.compare a.minute b.minute).then <| (Ord.compare a.second b.second).then <|
      Ord.compare a.nanosecond b.nanosecond

/-- Hours, minutes and seconds; a leap second is second 60. -/
def clockChars (t : DateTime) : List Char :=
  let second := t.second + t.nanosecond / 1000000000
  Text.paddedDigits 2 t.hour ++ ':' :: Text.paddedDigits 2 t.minute ++
    ':' :: Text.paddedDigits 2 second

/-- The fraction of the second with three, six or nine digits, as few as show all of it; none for
a whole second. -/
def fractionChars (t : DateTime) : List Char :=
  let n := t.nanosecond % 1000000000
  if n == 0 then []
  else if n % 1000000 == 0 then '.' :: Text.paddedDigits 3 (n / 1000000)
  else if n % 1000 == 0 then '.' :: Text.paddedDigits 6 (n / 1000)
  else '.' :: Text.paddedDigits 9 n

/-- The text in a document: a space before the time of day, and no fraction. -/
def display (t : DateTime) : String :=
  String.ofList (t.date.toChars ++ ' ' :: t.clockChars)

/-- The characters of the text in data: `T` before the time of day, and the fraction if there is
one. -/
def toChars (t : DateTime) : List Char :=
  t.date.toChars ++ 'T' :: t.clockChars ++ t.fractionChars

def inspect (t : DateTime) : String :=
  String.ofList t.toChars

end DateTime
end Liquid
