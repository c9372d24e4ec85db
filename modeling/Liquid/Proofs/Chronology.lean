import Liquid.Datum
import Liquid.Proofs.Digits
import Liquid.Proofs.ExactOrder

/-!
# Dates and moments as texts

In structured data a date and a moment are texts.  As long as the year has four digits, the texts
are ordered as the dates and moments are: every field but the fraction of a second has one width, a
leap second is second 60, and a fraction only leaves out zeros at its end.
-/

namespace Liquid

open Text

/-! ## Fields -/

theorem compare_cons_self (c : Char) (cs ds : List Char) :
    compare (c :: cs) (c :: ds) = compare cs ds := by
  have hself : compare c c = .eq := Std.ReflCmp.compare_self
  rw [List.compare_cons_cons, hself, Ordering.eq_then]

/-- Texts that start with a number of a fixed width and a separator are ordered by these numbers
first. -/
theorem compare_field
    {width m n : Nat} (hwidth : 0 < width) (hm : m < 10 ^ width) (hn : n < 10 ^ width)
    (separator : Char) (rest rest' : List Char) :
    compare (paddedDigits width m ++ separator :: rest)
        (paddedDigits width n ++ separator :: rest') =
      (compare m n).then (compare rest rest') := by
  have hlength : (paddedDigits width m).length = (paddedDigits width n).length := by
    rw [length_paddedDigits hwidth hm, length_paddedDigits hwidth hn]
  rw [compare_append hlength, compare_paddedDigits hwidth hm hn, compare_cons_self]

theorem compare_natAbs
    {a b : Int} (ha : 0 ≤ a) (hb : 0 ≤ b) :
    compare a.natAbs b.natAbs = compare a b := by
  rcases Int.lt_trichotomy a b with h | h | h
  · rw [Int.compare_eq_lt.mpr h, Nat.compare_eq_lt]
    omega
  · rw [Int.compare_eq_eq.mpr h, Nat.compare_eq_eq]
    omega
  · rw [Int.compare_eq_gt.mpr h, Nat.compare_eq_gt]
    omega

/-! ## Dates -/

theorem daysInMonth_le (year : Int) (month : Nat) : daysInMonth year month ≤ 31 := by
  unfold daysInMonth
  split
  · split <;> decide
  · split <;> decide

namespace Date

/-- The year has four digits and no sign. -/
def HasPlainYear (d : Date) : Prop :=
  0 ≤ d.year ∧ d.year ≤ 9999

instance (d : Date) : Decidable d.HasPlainYear :=
  inferInstanceAs (Decidable (_ ∧ _))

theorem toChars_eq
    {d : Date} (hd : d.HasPlainYear) :
    d.toChars = paddedDigits 4 d.year.natAbs ++
      '-' :: (paddedDigits 2 d.month ++ '-' :: paddedDigits 2 d.day) := by
  have hyear : yearChars d.year = paddedDigits 4 d.year.natAbs := if_pos hd
  rw [toChars, hyear, List.append_assoc, List.cons_append]

theorem HasPlainYear.natAbs_lt {d : Date} (hd : d.HasPlainYear) : d.year.natAbs < 10 ^ 4 := by
  obtain ⟨hlow, hhigh⟩ := hd
  omega

theorem month_lt (d : Date) : d.month < 10 ^ 2 := by
  have := d.month_mem
  omega

theorem day_lt (d : Date) : d.day < 10 ^ 2 := by
  have := d.day_mem
  have := daysInMonth_le d.year d.month
  omega

theorem length_toChars
    {d : Date} (hd : d.HasPlainYear) :
    d.toChars.length = 10 := by
  simp only [toChars_eq hd, List.length_append, List.length_cons,
    length_paddedDigits (Nat.succ_pos 3) hd.natAbs_lt,
    length_paddedDigits (Nat.succ_pos 1) d.month_lt, length_paddedDigits (Nat.succ_pos 1) d.day_lt]

theorem compare_toChars
    {d e : Date} (hd : d.HasPlainYear) (he : e.HasPlainYear) :
    Ord.compare d.toChars e.toChars = d.compare e := by
  rw [toChars_eq hd, toChars_eq he, compare_field (Nat.succ_pos 3) hd.natAbs_lt he.natAbs_lt,
    compare_field (Nat.succ_pos 1) d.month_lt e.month_lt,
    compare_paddedDigits (Nat.succ_pos 1) d.day_lt e.day_lt, compare_natAbs hd.1 he.1, compare,
    Ordering.then_assoc]

theorem compare_eq_eq_iff {d e : Date} : d.compare e = .eq ↔ d = e := by
  rw [compare, Ordering.then_eq_eq, Ordering.then_eq_eq, Int.compare_eq_eq, Nat.compare_eq_eq,
    Nat.compare_eq_eq, and_assoc]
  cases d
  cases e
  rw [mk.injEq]

end Date

/-! ## Moments -/

namespace DateTime

variable {t u : DateTime}

/-- The second as it is shown: a leap second is second 60. -/
def shownSecond (t : DateTime) : Nat :=
  t.second + t.nanosecond / 1000000000

def fraction (t : DateTime) : Nat :=
  t.nanosecond % 1000000000

theorem hour_lt_pow (t : DateTime) : t.hour < 10 ^ 2 := by
  have := t.hour_lt
  omega

theorem minute_lt_pow (t : DateTime) : t.minute < 10 ^ 2 := by
  have := t.minute_lt
  omega

theorem shownSecond_lt (t : DateTime) : t.shownSecond < 10 ^ 2 := by
  have := t.second_lt
  have := t.nanosecond_lt
  unfold shownSecond
  omega

theorem fraction_lt (t : DateTime) : t.fraction < 10 ^ 9 :=
  Nat.mod_lt _ (by decide)

/-- The fraction that is shown is filled up with zeros to nine digits, and there is none if it
would be zero. -/
theorem fractionChars_cases (t : DateTime) :
    (t.fraction = 0 ∧ t.fractionChars = []) ∨
      t.fraction ≠ 0 ∧ ∃ digits zeros, t.fractionChars = '.' :: digits ∧ AllDigits digits ∧
        digits ++ List.replicate zeros '0' = paddedDigits 9 t.fraction := by
  have hfraction : t.nanosecond % 1000000000 = t.fraction := rfl
  have hlt := t.fraction_lt
  simp only [fractionChars, hfraction, beq_iff_eq]
  split
  · next hzero => exact .inl ⟨hzero, rfl⟩
  · next hne =>
      refine .inr ⟨hne, ?_⟩
      split
      · next hmilli =>
          refine ⟨_, 6, rfl, allDigits_paddedDigits _ _, ?_⟩
          rw [paddedDigits_append_zeros (by decide) (by omega)]
          congr 1
          omega
      · split
        · next hmicro =>
            refine ⟨_, 3, rfl, allDigits_paddedDigits _ _, ?_⟩
            rw [paddedDigits_append_zeros (by decide) (by omega)]
            congr 1
            omega
        · exact ⟨_, 0, rfl, allDigits_paddedDigits _ _, List.append_nil _⟩

theorem fractionChars_congr
    (h : t.fraction = u.fraction) :
    t.fractionChars = u.fractionChars := by
  have hnanoseconds : t.nanosecond % 1000000000 = u.nanosecond % 1000000000 := h
  simp only [fractionChars, hnanoseconds]

/-- A fraction that is the beginning of another one is the smaller of the two. -/
theorem compare_fractionChars (t u : DateTime) :
    Ord.compare t.fractionChars u.fractionChars = Ord.compare t.fraction u.fraction := by
  by_cases heq : t.fraction = u.fraction
  · have hself : Ord.compare u.fraction u.fraction = .eq := Std.ReflCmp.compare_self
    rw [fractionChars_congr heq, heq, hself]
    exact Std.ReflCmp.compare_self
  rcases t.fractionChars_cases with ⟨hzero, hchars⟩ | ⟨hne, ds, m, hchars, hds, hfill⟩
  · rcases u.fractionChars_cases with ⟨hzero', -⟩ | ⟨hne', es, n, hchars', -, -⟩
    · exact absurd (hzero.trans hzero'.symm) heq
    · rw [hchars, hchars', List.compare_nil_cons, hzero]
      exact (Nat.compare_eq_lt.mpr (Nat.pos_of_ne_zero hne')).symm
  · rcases u.fractionChars_cases with ⟨hzero', hchars'⟩ | ⟨-, es, n, hchars', hes, hfill'⟩
    · rw [hchars, hchars', List.compare_cons_nil, hzero']
      exact (Nat.compare_eq_gt.mpr (Nat.pos_of_ne_zero hne)).symm
    · have hlength : ds.length + m = es.length + n := by
        have hlength := congrArg List.length hfill
        have hlength' := congrArg List.length hfill'
        rw [List.length_append, List.length_replicate,
          length_paddedDigits (by decide) t.fraction_lt] at hlength
        rw [List.length_append, List.length_replicate,
          length_paddedDigits (by decide) u.fraction_lt] at hlength'
        rw [hlength, hlength']
      have hfilled : ds ++ List.replicate m '0' ≠ es ++ List.replicate n '0' := by
        rw [hfill, hfill']
        intro h
        have hnumbers := congrArg natOfDigits h
        rw [natOfDigits_paddedDigits, natOfDigits_paddedDigits] at hnumbers
        exact heq hnumbers
      calc Ord.compare t.fractionChars u.fractionChars
          = Ord.compare ds es := by rw [hchars, hchars', compare_cons_self]
        _ = Ord.compare (ds ++ List.replicate m '0') (es ++ List.replicate n '0') :=
            (compare_append_zeros hds hes hlength hfilled).symm
        _ = Ord.compare t.fraction u.fraction := by
            rw [hfill, hfill', compare_paddedDigits (by decide) t.fraction_lt u.fraction_lt]

/-- A leap second comes after the whole of second 59, as second 60 does. -/
theorem compare_shownSecond (t u : DateTime) :
    (Ord.compare t.shownSecond u.shownSecond).then (Ord.compare t.fraction u.fraction) =
      (Ord.compare t.second u.second).then (Ord.compare t.nanosecond u.nanosecond) := by
  have hnanosecond (t : DateTime) : t.nanosecond < 2000000000 := by
    have := t.nanosecond_lt
    omega
  have hshown (t : DateTime) :
      t.shownSecond * 10 ^ 9 + t.fraction = t.second * 10 ^ 9 + t.nanosecond := by
    unfold shownSecond fraction
    omega
  rw [← compare_mul_add t.fraction_lt u.fraction_lt,
    ← compare_mul_add (hnanosecond t) (hnanosecond u), hshown, hshown]
  have := t.second_lt
  have := u.second_lt
  have := t.nanosecond_lt
  have := u.nanosecond_lt
  exact compare_congr (by omega) (by omega)

theorem toChars_eq (t : DateTime) :
    t.toChars = t.date.toChars ++ 'T' :: (paddedDigits 2 t.hour ++ ':' ::
      (paddedDigits 2 t.minute ++ ':' :: (paddedDigits 2 t.shownSecond ++ t.fractionChars))) := by
  simp only [toChars, clockChars, shownSecond, List.append_assoc, List.cons_append]

theorem compare_toChars
    (ht : t.date.HasPlainYear) (hu : u.date.HasPlainYear) :
    Ord.compare t.toChars u.toChars = t.compare u := by
  have hdate : t.date.toChars.length = u.date.toChars.length := by
    rw [Date.length_toChars ht, Date.length_toChars hu]
  have hsecond : (paddedDigits 2 t.shownSecond).length = (paddedDigits 2 u.shownSecond).length := by
    rw [length_paddedDigits (Nat.succ_pos 1) t.shownSecond_lt,
      length_paddedDigits (Nat.succ_pos 1) u.shownSecond_lt]
  rw [toChars_eq, toChars_eq, compare_append hdate, Date.compare_toChars ht hu, compare_cons_self,
    compare_field (Nat.succ_pos 1) t.hour_lt_pow u.hour_lt_pow,
    compare_field (Nat.succ_pos 1) t.minute_lt_pow u.minute_lt_pow, compare_append hsecond,
    compare_paddedDigits (Nat.succ_pos 1) t.shownSecond_lt u.shownSecond_lt,
    compare_fractionChars, compare_shownSecond, compare]

theorem compare_eq_eq_iff : t.compare u = .eq ↔ t = u := by
  simp only [compare, Ordering.then_eq_eq, Date.compare_eq_eq_iff, Nat.compare_eq_eq]
  cases t
  cases u
  rw [mk.injEq]

end DateTime

/-! ## Tests -/

namespace Condition

/-- The operators of the tests of order, and that of the test of equality. -/
def ordersAndEquality : List String :=
  "==" :: orderOperators

/-- Texts that are ordered as two other values, which are equal where they have no order, are
tested as these are. -/
theorem sameTests_ofList
    {cs ds : List Char} {a b : Value} {o : Ordering} (h : compare cs ds = o)
    (hab : a.compare? b = some o) (hequal : a.looseEq b = (o == .eq)) :
    SameTests ordersAndEquality (.str (String.ofList cs)) (.str (String.ofList ds)) a b := by
  rw [← compare_ofList] at h
  have htexts : (Value.str (String.ofList cs)).compare? (.str (String.ofList ds)) = some o :=
    congrArg some h
  intro op hop
  rcases List.mem_cons.mp hop with rfl | hop
  · refine ⟨a.looseEq b, congrArg Except.ok ?_, rfl⟩
    rw [hequal, ← h, Bool.eq_iff_iff, beq_iff_eq, Std.LawfulEqOrd.compare_eq_iff_eq]
    exact beq_iff_eq
  · exact sameTests_of_compare? htexts hab op hop

/-- Dates and moments with years of four digits are texts in structured data, and these are tested
for order and equality as the dates and moments themselves are. -/
theorem texts_order_chronologically :
    (∀ d e : Date, d.HasPlainYear → e.HasPlainYear →
      (Datum.date d).toValue = .ok (.str d.display) ∧
        SameTests ordersAndEquality (.str d.display) (.str e.display) (.date d) (.date e)) ∧
      ∀ t u : DateTime, t.date.HasPlainYear → u.date.HasPlainYear →
        (Datum.dateTime t).toValue = .ok (.str t.inspect) ∧
          SameTests ordersAndEquality (.str t.inspect) (.str u.inspect) (.dateTime t)
            (.dateTime u) := by
  constructor
  · intro d e hd he
    refine ⟨rfl, sameTests_ofList (Date.compare_toChars hd he) rfl ?_⟩
    rw [Bool.eq_iff_iff, beq_iff_eq, Date.compare_eq_eq_iff]
    exact decide_eq_true_iff
  · intro t u ht hu
    refine ⟨rfl, sameTests_ofList (DateTime.compare_toChars ht hu) rfl ?_⟩
    rw [Bool.eq_iff_iff, beq_iff_eq, DateTime.compare_eq_eq_iff]
    exact decide_eq_true_iff

/-- The last day of a year and the first of the next one; half a leap second, a longer fraction of
which its own is the beginning, and the minute after it. -/
theorem texts_order_chronologically_leap_second :
    let eve : Date := ⟨2016, 12, 31, by decide, by decide⟩
    let day : Date := ⟨2017, 1, 1, by decide, by decide⟩
    let leap : DateTime := ⟨eve, 23, 59, 59, 1500000000, by decide, by decide, by decide, by decide⟩
    let later : DateTime :=
      ⟨eve, 23, 59, 59, 1500000001, by decide, by decide, by decide, by decide⟩
    let next : DateTime := ⟨day, 0, 0, 0, 0, by decide, by decide, by decide, by decide⟩
    eve.HasPlainYear ∧ day.HasPlainYear ∧
      eve.display = "2016-12-31" ∧ day.display = "2017-01-01" ∧
      compareBy "<" (.str eve.display) (.str day.display) = .ok true ∧
      leap.inspect = "2016-12-31T23:59:60.500" ∧
      later.inspect = "2016-12-31T23:59:60.500000001" ∧ next.inspect = "2017-01-01T00:00:00" ∧
      compareBy "<" (.str leap.inspect) (.str later.inspect) = .ok true ∧
      compareBy ">=" (.str later.inspect) (.str next.inspect) = .ok false ∧
      compareBy "==" (.str leap.inspect) (.str later.inspect) = .ok false := by
  intro eve day leap later next
  have heve : eve.HasPlainYear := by decide
  have hday : day.HasPlainYear := by decide
  obtain ⟨hdates, hmoments⟩ := texts_order_chronologically
  have hless : "<" ∈ ordersAndEquality := by decide
  have hatLeast : ">=" ∈ ordersAndEquality := by decide
  refine ⟨heve, hday, by decide +kernel, by decide +kernel, ?_, by decide +kernel,
    by decide +kernel, by decide +kernel, ?_, ?_, ?_⟩
  · rw [(hdates eve day heve hday).2.compareBy_eq hless]
    rfl
  · rw [(hmoments leap later heve heve).2.compareBy_eq hless]
    rfl
  · rw [(hmoments later next heve hday).2.compareBy_eq hatLeast]
    rfl
  · rw [(hmoments leap later heve heve).2.compareBy_eq List.mem_cons_self]
    rfl

end Condition
end Liquid
