import Mathlib.Algebra.Order.Field.Rat
import Mathlib.Algebra.Order.Ring.Cast
import Mathlib.Order.Compare
import Liquid.Proofs.Numbers

/-!
# Duality and exactness of the order

Whichever forms two values are ordered by, the same forms are taken when the operands are swapped,
so that the order is reversed and a pair without an order has none either way.  Integers and
decimals are ordered as the rational numbers that they denote.
-/

namespace Liquid

open Numeric

/-! ## Swapped operands -/

namespace Date

theorem compare_swap (a b : Date) : a.compare b = (b.compare a).swap := by
  rw [compare, compare, Ordering.swap_then, Ordering.swap_then, ← Std.OrientedOrd.eq_swap,
    ← Std.OrientedOrd.eq_swap, ← Std.OrientedOrd.eq_swap]

end Date

namespace DateTime

theorem compare_swap (a b : DateTime) : a.compare b = (b.compare a).swap := by
  rw [compare, compare]
  simp only [Ordering.swap_then, ← Std.OrientedOrd.eq_swap, ← Date.compare_swap]

end DateTime

namespace Numeric

theorem Decimal.compare_swap (x y : Decimal) : x.compare y = (y.compare x).swap :=
  Std.OrientedOrd.eq_swap (a := x.units)

namespace Binary64

theorem compareKeys_swap (a b : Int × Int) : compareKeys a b = (compareKeys b a).swap := by
  rw [compareKeys, compareKeys, Ordering.swap_then, ← Std.OrientedOrd.eq_swap,
    ← Std.OrientedOrd.eq_swap]

/-- A number that cannot be compared from one side cannot be compared from the other. -/
theorem compare?_swap (u v : Binary64) : u.compare? v = (v.compare? u).map Ordering.swap := by
  unfold compare?
  cases u.key? with
  | none => cases v.key? <;> rfl
  | some a =>
      cases v.key? with
      | none => rfl
      | some b => exact congrArg some (compareKeys_swap a b)

end Binary64
end Numeric

namespace Value

/-- The decimal forms of both numbers are looked at together, so the same forms are compared. -/
theorem compareNumbers?_swap (a b : Value) :
    a.compareNumbers? b = (b.compareNumbers? a).map Ordering.swap := by
  unfold compareNumbers?
  rcases a.decimalBeside? b with _ | x <;> rcases b.decimalBeside? a with _ | y
  case some.some => exact congrArg some (Decimal.compare_swap x y)
  all_goals
    cases a.toBinary64? with
    | none => cases b.toBinary64? <;> rfl
    | some u =>
        cases b.toBinary64? with
        | none => rfl
        | some v => exact Binary64.compare?_swap u v

theorem compare?_swap (a b : Value) : a.compare? b = (b.compare? a).map Ordering.swap := by
  rw [compare?.eq_def a b]
  split
  · next s t => exact congrArg some Std.OrientedOrd.eq_swap
  · next d e => exact congrArg some (Date.compare_swap d e)
  · next t u => exact congrArg some (DateTime.compare_swap t u)
  · next htexts hdates htimes =>
      -- What is no pair of texts, dates or moments is none with the operands swapped.
      rw [compare?.eq_def b a]
      split
      · next s t => exact (htexts t s rfl rfl).elim
      · next d e => exact (hdates e d rfl rfl).elim
      · next t u => exact (htimes u t rfl rfl).elim
      · exact compareNumbers?_swap a b

end Value

/-! ## Rational numbers -/

/-- The rational number that a decimal denotes. -/
def Numeric.Decimal.toRat (d : Decimal) : ℚ :=
  d.signedMantissa / 10 ^ d.scale

def Value.toRat? : Value → Option ℚ
  | int n => some n.toInt
  | decimal d => some d.toRat
  | _ => none

namespace Numeric.Decimal

theorem units_eq_toRat_mul (d : Decimal) : (d.units : ℚ) = d.toRat * 10 ^ 28 := by
  have hscale : (10 : ℚ) ^ 28 = 10 ^ d.scale * 10 ^ (28 - d.scale) := by
    rw [← pow_add, Nat.add_sub_cancel' d.scale_le]
  have hten : (tenPow (28 - d.scale) : ℚ) = 10 ^ (28 - d.scale) :=
    Nat.cast_pow 10 (28 - d.scale)
  have hne : (10 : ℚ) ^ d.scale ≠ 0 := pow_ne_zero _ (by decide)
  rw [units, toRat, hscale, ← mul_assoc, div_mul_cancel₀ _ hne, Int.cast_mul, Int.cast_natCast,
    hten]

theorem toRat_ofInt64 (n : Int64) : (ofInt64 n).toRat = n.toInt := by
  have hne : (10 : ℚ) ^ 28 ≠ 0 := pow_ne_zero _ (by decide)
  apply mul_right_cancel₀ hne
  rw [← units_eq_toRat_mul, units_ofInt64, Int.cast_mul, Int.cast_natCast]
  congr 1

theorem toRat_lt_toRat_iff {x y : Decimal} : x.toRat < y.toRat ↔ x.units < y.units := by
  have hpos : (0 : ℚ) < 10 ^ 28 := pow_pos (by decide) 28
  rw [← mul_lt_mul_iff_left₀ hpos, ← units_eq_toRat_mul, ← units_eq_toRat_mul, Int.cast_lt]

theorem toRat_eq_toRat_iff {x y : Decimal} : x.toRat = y.toRat ↔ x.units = y.units := by
  have hne : (10 : ℚ) ^ 28 ≠ 0 := pow_ne_zero _ (by decide)
  rw [← mul_left_inj' hne, ← units_eq_toRat_mul, ← units_eq_toRat_mul, Rat.intCast_inj]

/-- Decimals are ordered as the numbers that they denote, whatever their scales. -/
theorem compares_toRat (x y : Decimal) : (x.compare y).Compares x.toRat y.toRat := by
  cases h : x.compare y with
  | lt => exact toRat_lt_toRat_iff.mpr (Int.compare_eq_lt.mp h)
  | eq => exact toRat_eq_toRat_iff.mpr (Int.compare_eq_eq.mp h)
  | gt => exact toRat_lt_toRat_iff.mpr (Int.compare_eq_gt.mp h)

end Numeric.Decimal

namespace Value

variable {a b : Value} {p q : ℚ}

/-- What denotes a rational number is a number with a decimal form that denotes the same one, and
no floating-point number. -/
theorem decimal_of_toRat?
    (ha : a.toRat? = some p) :
    a.IsNumber ∧ a.isFloat = false ∧ ∃ x, a.toDecimal? = some x ∧ x.toRat = p := by
  unfold toRat? at ha
  split at ha
  · next n =>
      refine ⟨trivial, rfl, .ofInt64 n, rfl, ?_⟩
      rw [Decimal.toRat_ofInt64, ← Option.some.inj ha]
  · next d => exact ⟨trivial, rfl, d, rfl, Option.some.inj ha⟩
  · exact absurd ha (by simp)

theorem compares_of_toRat?
    (ha : a.toRat? = some p) (hb : b.toRat? = some q) :
    ∃ o, a.compare? b = some o ∧ o.Compares p q := by
  obtain ⟨hna, -, x, hx, rfl⟩ := decimal_of_toRat? ha
  obtain ⟨hnb, -, y, hy, rfl⟩ := decimal_of_toRat? hb
  rcases compare?_cases hna hnb with ⟨x', y', hx', hy', hcompare⟩ | ⟨hnone, -⟩
  · rw [Option.some.inj (hx'.symm.trans hx), Option.some.inj (hy'.symm.trans hy)] at hcompare
    exact ⟨_, hcompare, Decimal.compares_toRat x y⟩
  · rw [hx, hy] at hnone
    exact absurd hnone (by simp)

theorem looseEq_of_toRat?
    (ha : a.toRat? = some p) (hb : b.toRat? = some q) :
    a.looseEq b = decide (p = q) := by
  obtain ⟨hna, hfa, x, hx, rfl⟩ := decimal_of_toRat? ha
  obtain ⟨hnb, hfb, y, hy, rfl⟩ := decimal_of_toRat? hb
  obtain ⟨x', y', hx', hy', hequal⟩ := looseEq_of_not_isFloat hna hnb hfa hfb
  rw [hequal, Option.some.inj (hx'.symm.trans hx), Option.some.inj (hy'.symm.trans hy),
    Bool.eq_iff_iff, decide_eq_true_iff, Decimal.beq_iff_units, Decimal.toRat_eq_toRat_iff]

end Value

/-! ## Tests -/

namespace Condition

def orderOperators : List String :=
  ["<", ">", "<=", ">="]

def Fails (outcome : Except Error Bool) : Prop :=
  ∃ e, outcome = .error e

/-- The tests of two values come out as the numbers compare. -/
structure ComparesAs (a b : Value) (p q : ℚ) : Prop where
  equal : compareBy "==" a b = .ok (decide (p = q))
  unequal : compareBy "!=" a b = .ok (decide (p ≠ q))
  less : compareBy "<" a b = .ok (decide (p < q))
  greater : compareBy ">" a b = .ok (decide (p > q))
  atMost : compareBy "<=" a b = .ok (decide (p ≤ q))
  atLeast : compareBy ">=" a b = .ok (decide (p ≥ q))

section

variable {a b : Value}

/-- A test of order asks for some orderings; where there is none, all of them fail. -/
theorem exists_compareBy_eq_ordered
    {op : String} (hop : op ∈ orderOperators) :
    ∃ holds, ∀ a b, compareBy op a b = Value.ordered holds a b := by
  simp only [orderOperators, List.mem_cons, List.not_mem_nil, or_false] at hop
  rcases hop with rfl | rfl | rfl | rfl
  · exact ⟨(· == .lt), fun _ _ => rfl⟩
  · exact ⟨(· == .gt), fun _ _ => rfl⟩
  · exact ⟨(· != .gt), fun _ _ => rfl⟩
  · exact ⟨(· != .lt), fun _ _ => rfl⟩

theorem fails_iff
    {op : String} (hop : op ∈ orderOperators) :
    Fails (compareBy op a b) ↔ a.compare? b = none := by
  obtain ⟨holds, hholds⟩ := exists_compareBy_eq_ordered hop
  rw [hholds]
  unfold Fails Value.ordered
  split
  · next o h => simp [h]
  · next h => simp [h]

/-- Tests of two values come out as those of two others, and none of them fails. -/
def SameTests (operators : List String) (a b a' b' : Value) : Prop :=
  ∀ op ∈ operators, ∃ r, compareBy op a b = .ok r ∧ compareBy op a' b' = .ok r

theorem SameTests.compareBy_eq
    {operators : List String} {a' b' : Value} (h : SameTests operators a b a' b') {op : String}
    (hop : op ∈ operators) :
    compareBy op a b = compareBy op a' b' := by
  obtain ⟨r, hr, hr'⟩ := h op hop
  rw [hr, hr']

theorem sameTests_of_compare?
    {a' b' : Value} {o : Ordering} (h : a.compare? b = some o) (h' : a'.compare? b' = some o) :
    SameTests orderOperators a b a' b' := by
  intro op hop
  obtain ⟨holds, hholds⟩ := exists_compareBy_eq_ordered hop
  refine ⟨holds o, ?_, ?_⟩
  · rw [hholds, ordered_eq_ok h]
  · rw [hholds, ordered_eq_ok h']

/-- Asking for the reversed orderings of swapped values succeeds alike. -/
theorem ordered_swap
    {holds holds' : Ordering → Bool} (h : ∀ o, holds' o.swap = holds o) (r : Bool) :
    Value.ordered holds a b = .ok r ↔ Value.ordered holds' b a = .ok r := by
  unfold Value.ordered
  rw [Value.compare?_swap b a]
  cases a.compare? b with
  | none => simp
  | some o => simp [h]

theorem comparesAs_of_toRat?
    {p q : ℚ} (ha : a.toRat? = some p) (hb : b.toRat? = some q) :
    ComparesAs a b p q := by
  obtain ⟨o, ho, hcompares⟩ := Value.compares_of_toRat? ha hb
  have hequal := Value.looseEq_of_toRat? ha hb
  constructor
  · exact congrArg Except.ok hequal
  · refine congrArg Except.ok ?_
    rw [hequal, decide_not]
  · refine (ordered_eq_ok ho (· == .lt)).trans (congrArg Except.ok ?_)
    rw [Bool.eq_iff_iff, beq_iff_eq, decide_eq_true_iff, hcompares.eq_lt]
  · refine (ordered_eq_ok ho (· == .gt)).trans (congrArg Except.ok ?_)
    rw [Bool.eq_iff_iff, beq_iff_eq, decide_eq_true_iff, hcompares.eq_gt, gt_iff_lt]
  · refine (ordered_eq_ok ho (· != .gt)).trans (congrArg Except.ok ?_)
    rw [Bool.eq_iff_iff, bne_iff_ne, decide_eq_true_iff, hcompares.ne_gt]
  · refine (ordered_eq_ok ho (· != .lt)).trans (congrArg Except.ok ?_)
    rw [Bool.eq_iff_iff, bne_iff_ne, decide_eq_true_iff, hcompares.ne_lt, ge_iff_le]

/-- A test of order and the test with the operator turned round of the swapped values succeed
alike, and if one test of order of two values fails, all of them fail both ways.  The tests of
integers and decimals never fail and are those of the rational numbers denoted, so that `<` is
transitive among them. -/
theorem order_is_dual_and_exact (a b : Value) :
    (∀ r, compareBy "<" a b = .ok r ↔ compareBy ">" b a = .ok r) ∧
      (∀ r, compareBy "<=" a b = .ok r ↔ compareBy ">=" b a = .ok r) ∧
      (∀ op ∈ orderOperators, Fails (compareBy op a b) ↔
        ∀ op' ∈ orderOperators, Fails (compareBy op' a b) ∧ Fails (compareBy op' b a)) ∧
      (∀ p q, a.toRat? = some p → b.toRat? = some q → ComparesAs a b p q) ∧
      ∀ c, a.toRat?.isSome → b.toRat?.isSome → c.toRat?.isSome →
        compareBy "<" a b = .ok true → compareBy "<" b c = .ok true →
          compareBy "<" a c = .ok true := by
  refine ⟨?_, ?_, ?_, fun p q ha hb => comparesAs_of_toRat? ha hb, ?_⟩
  · exact ordered_swap fun o => by cases o <;> rfl
  · exact ordered_swap fun o => by cases o <;> rfl
  · intro op hop
    rw [fails_iff hop]
    constructor
    · intro hnone op' hop'
      refine ⟨(fails_iff hop').mpr hnone, (fails_iff hop').mpr ?_⟩
      rw [Value.compare?_swap, hnone]
      rfl
    · intro hall
      exact (fails_iff hop).mp (hall op hop).1
  · intro c ha hb hc hab hbc
    obtain ⟨p, hp⟩ := Option.isSome_iff_exists.mp ha
    obtain ⟨q, hq⟩ := Option.isSome_iff_exists.mp hb
    obtain ⟨r, hr⟩ := Option.isSome_iff_exists.mp hc
    rw [(comparesAs_of_toRat? hp hq).less, Except.ok.injEq, decide_eq_true_iff] at hab
    rw [(comparesAs_of_toRat? hq hr).less, Except.ok.injEq, decide_eq_true_iff] at hbc
    rw [(comparesAs_of_toRat? hp hr).less, decide_eq_true (hab.trans hbc)]

end

/-- The greatest integer and a decimal a tenth below it, which have the same floating-point form,
with a small decimal before them; and a list beside an integer, which have no order. -/
theorem order_is_dual_and_exact_tenth :
    let half : Value := .decimal ⟨true, 250, 2, by decide, by decide⟩
    let tenth : Value := .decimal ⟨false, 92233720368547758069, 1, by decide, by decide⟩
    let greatest : Value := .int 9223372036854775807
    half.toRat? = some (-5 / 2) ∧ tenth.toRat? = some (92233720368547758069 / 10) ∧
      greatest.toRat? = some 9223372036854775807 ∧
      ComparesAs tenth greatest (92233720368547758069 / 10) 9223372036854775807 ∧
      tenth.toBinary64? = greatest.toBinary64? ∧
      compareBy "<" half tenth = .ok true ∧ compareBy "<" tenth greatest = .ok true ∧
      compareBy "<" half greatest = .ok true ∧ compareBy ">" greatest half = .ok true ∧
      Fails (compareBy "<" (.list []) greatest) ∧ Fails (compareBy ">=" greatest (.list [])) := by
  intro half tenth greatest
  have hhalf : half.toRat? = some (-5 / 2) := by
    decide +kernel
  have htenth : tenth.toRat? = some (92233720368547758069 / 10) := by
    decide +kernel
  have hgreatest : greatest.toRat? = some 9223372036854775807 := by
    decide +kernel
  have hfloats : tenth.toBinary64? = greatest.toBinary64? := by
    decide +kernel
  obtain ⟨-, -, -, hexact, hchain⟩ := order_is_dual_and_exact half tenth
  obtain ⟨-, -, -, hexact', -⟩ := order_is_dual_and_exact tenth greatest
  obtain ⟨hdual, -, -, -, -⟩ := order_is_dual_and_exact half greatest
  obtain ⟨-, -, hfails, -, -⟩ := order_is_dual_and_exact (.list []) greatest
  have hfirst : compareBy "<" half tenth = .ok true :=
    (hexact _ _ hhalf htenth).less.trans (congrArg Except.ok (by decide +kernel))
  have hsecond : compareBy "<" tenth greatest = .ok true :=
    (hexact' _ _ htenth hgreatest).less.trans (congrArg Except.ok (by decide +kernel))
  have hboth := hchain greatest rfl rfl rfl hfirst hsecond
  have hnone : Fails (compareBy "<" (.list []) greatest) := ⟨_, rfl⟩
  exact ⟨hhalf, htenth, hgreatest, hexact' _ _ htenth hgreatest, hfloats, hfirst, hsecond, hboth,
    (hdual true).mp hboth, hnone, ((hfails "<" (by decide)).mp hnone ">=" (by decide)).2⟩

end Condition
end Liquid
