import Liquid.Condition
import Liquid.Proofs.WholeNumbers

/-!
# Equality and order of numbers

Any two numbers are ordered, by their decimal forms or, where one has none, by their floating-point
forms.  Equality goes by the decimal forms of integers and decimals, and by the floating-point forms
where one of the numbers is a floating-point number.  So the two agree wherever no conversion rounds
away a difference or makes one, and just there.
-/

namespace Liquid

open Numeric

/-! ## Equality and order of the two forms -/

namespace Numeric

namespace Decimal

theorem beq_iff_units
    {x y : Decimal} :
    (x == y) = true ↔ x.units = y.units :=
  beq_iff_eq (a := x.units)

theorem compare_eq_eq_iff
    {x y : Decimal} :
    x.compare y = .eq ↔ (x == y) = true := by
  rw [beq_iff_units, compare, Std.LawfulEqOrd.compare_eq_iff_eq]

theorem beq_comm (x y : Decimal) : (x == y) = (y == x) := by
  rw [Bool.eq_iff_iff, beq_iff_units, beq_iff_units, eq_comm]

theorem units_of_ofParts?
    {negative : Bool} {m : Nat} {d : Decimal} (h : ofParts? negative m 0 = some d) :
    d.units = (if negative then -(m : Int) else m) * tenPow 28 := by
  unfold ofParts? at h
  split at h
  · rw [← Option.some.inj h]
    rfl
  · exact absurd h (by simp)

theorem units_ofInt64 (n : Int64) : (ofInt64 n).units = n.toInt * tenPow 28 := by
  have hsigned : (ofInt64 n).signedMantissa = n.toInt := by
    unfold signedMantissa ofInt64
    by_cases hn : n.toInt < 0
    · simp only [hn, decide_true, if_true]
      omega
    · simp only [hn, decide_false, Bool.false_eq_true, if_false]
      omega
  rw [units, hsigned]
  rfl

/-- Integers are equal just where their decimal forms are. -/
theorem ofInt64_beq_ofInt64 (m n : Int64) : (ofInt64 m == ofInt64 n) = (m == n) := by
  rw [Bool.eq_iff_iff, beq_iff_units, beq_iff_eq, units_ofInt64, units_ofInt64,
    Int.mul_eq_mul_right_iff (by decide), Int64.toInt_inj]

end Decimal

namespace Binary64

theorem compareKeys_eq_eq_iff
    {a b : Int × Int} :
    compareKeys a b = .eq ↔ a = b := by
  unfold compareKeys
  rw [Ordering.then_eq_eq, Std.LawfulEqOrd.compare_eq_iff_eq, Std.LawfulEqOrd.compare_eq_iff_eq,
    Prod.ext_iff]

/-- Two numbers are equal just where they have the same key; not-a-number has none. -/
theorem beq_iff_key?
    {u v : Binary64} :
    (u == v) = true ↔ ∃ k, u.key? = some k ∧ v.key? = some k := by
  change (u.compare? v == some .eq) = true ↔ _
  rw [beq_iff_eq]
  unfold compare?
  split
  · next a b ha hb =>
      rw [Option.some.injEq, compareKeys_eq_eq_iff, ha, hb]
      constructor
      · rintro rfl
        exact ⟨a, rfl, rfl⟩
      · rintro ⟨k, hk, hk'⟩
        rw [Option.some.inj hk, Option.some.inj hk']
  · next hnone =>
      constructor
      · intro h
        exact absurd h (by simp)
      · rintro ⟨k, hk, hk'⟩
        exact absurd hk' (hnone k k hk)

theorem finite_beq_finite
    {x y : FiniteBinary} :
    (finite x == finite y) = true ↔ x.units = y.units := by
  rw [beq_iff_key?]
  simp only [key?, Option.some.injEq, exists_eq_left', Prod.mk.injEq, true_and]
  exact eq_comm

theorem beq_comm (u v : Binary64) : (u == v) = (v == u) := by
  rw [Bool.eq_iff_iff, beq_iff_key?, beq_iff_key?]
  constructor
  · rintro ⟨k, hu, hv⟩
    exact ⟨k, hv, hu⟩
  · rintro ⟨k, hv, hu⟩
    exact ⟨k, hu, hv⟩

theorem exists_key?
    {u : Binary64} (hu : u ≠ .nan) :
    ∃ k, u.key? = some k := by
  unfold key?
  split
  · exact absurd rfl hu
  · exact ⟨_, rfl⟩
  · exact ⟨_, rfl⟩

theorem exists_compare?
    {u v : Binary64} (hu : u ≠ .nan) (hv : v ≠ .nan) :
    ∃ o, u.compare? v = some o := by
  obtain ⟨k, hk⟩ := exists_key? hu
  obtain ⟨l, hl⟩ := exists_key? hv
  refine ⟨compareKeys k l, ?_⟩
  unfold compare?
  rw [hk, hl]

theorem ofQuotient_ne_nan (negative : Bool) (num den : Nat) :
    ofQuotient negative num den ≠ .nan := by
  unfold ofQuotient
  split
  · exact Binary64.noConfusion
  · split
    · unfold ofParts
      split
      · exact Binary64.noConfusion
      · exact Binary64.noConfusion
    · exact Binary64.noConfusion

end Binary64
end Numeric

/-! ## Numbers -/

namespace Value

/-- A number: an integer, a decimal, or a floating-point number other than not-a-number. -/
def IsNumber : Value → Prop
  | int _ | decimal _ => True
  | float x => x ≠ .nan
  | _ => False

def isFloat : Value → Bool
  | float _ => true
  | _ => false

def isDecimal : Value → Bool
  | decimal _ => true
  | _ => false

/-- A whole number that both conversions leave as it is: an integer of at most fifty-three bits, or
a floating-point number without a fraction. -/
def IsWhole : Value → Prop
  | int n => n.toInt.natAbs < significandLimit
  | float (.finite x) => x.isWhole = true
  | _ => False

instance (v : Value) : Decidable v.IsNumber :=
  match v with
  | int _ | decimal _ => .isTrue trivial
  | float x => inferInstanceAs (Decidable (x ≠ .nan))
  | nil | bool _ | str _ | date _ | dateTime _ | list _ | map _ => .isFalse id

instance (v : Value) : Decidable v.IsWhole :=
  match v with
  | int n => inferInstanceAs (Decidable (n.toInt.natAbs < significandLimit))
  | float (.finite x) => inferInstanceAs (Decidable (x.isWhole = true))
  | float .nan | float (.infinity _) => .isFalse id
  | nil | bool _ | str _ | date _ | dateTime _ | decimal _ | list _ | map _ => .isFalse id

section

variable {a b : Value}

theorem decimalBeside?_of_isNumber (ha : a.IsNumber) : a.decimalBeside? b = a.toDecimal? := by
  unfold decimalBeside?
  split
  · exact ha.elim
  · rfl

theorem compare?_of_isNumber (ha : a.IsNumber) : a.compare? b = a.compareNumbers? b := by
  unfold compare?
  split
  · exact ha.elim
  · exact ha.elim
  · exact ha.elim
  · rfl

theorem IsNumber.cases
    (ha : a.IsNumber) :
    (∃ n, a = int n) ∨ (∃ d, a = decimal d) ∨ ∃ x, a = float x ∧ x ≠ .nan := by
  unfold IsNumber at ha
  split at ha
  · next n => exact .inl ⟨n, rfl⟩
  · next d => exact .inr (.inl ⟨d, rfl⟩)
  · next x => exact .inr (.inr ⟨x, rfl, ha⟩)
  · exact ha.elim

theorem exists_toBinary64? (ha : a.IsNumber) : ∃ u, a.toBinary64? = some u ∧ u ≠ .nan := by
  rcases ha.cases with ⟨n, rfl⟩ | ⟨d, rfl⟩ | ⟨x, rfl, hx⟩
  · exact ⟨_, rfl, Binary64.ofQuotient_ne_nan _ _ _⟩
  · exact ⟨_, rfl, Binary64.ofQuotient_ne_nan _ _ _⟩
  · exact ⟨x, rfl, hx⟩

/-- Numbers are ordered by their decimal forms, or else by their floating-point forms. -/
theorem compare?_cases
    (ha : a.IsNumber) (hb : b.IsNumber) :
    (∃ x y, a.toDecimal? = some x ∧ b.toDecimal? = some y ∧ a.compare? b = some (x.compare y)) ∨
      (a.toDecimal? = none ∨ b.toDecimal? = none) ∧
        ∃ u v o, a.toBinary64? = some u ∧ b.toBinary64? = some v ∧ u.compare? v = some o ∧
          a.compare? b = some o := by
  rw [compare?_of_isNumber ha]
  unfold compareNumbers?
  rw [decimalBeside?_of_isNumber ha, decimalBeside?_of_isNumber hb]
  split
  · next x y hx hy => exact .inl ⟨x, y, hx, hy, rfl⟩
  · next hforms =>
      -- One decimal form is missing, and the floating-point forms of two numbers are comparable.
      right
      constructor
      · rcases hx : a.toDecimal? with _ | x
        · exact .inl rfl
        · rcases hy : b.toDecimal? with _ | y
          · exact .inr rfl
          · exact (hforms x y hx hy).elim
      · obtain ⟨u, hu, hu'⟩ := exists_toBinary64? ha
        obtain ⟨v, hv, hv'⟩ := exists_toBinary64? hb
        obtain ⟨o, ho⟩ := Binary64.exists_compare? hu' hv'
        refine ⟨u, v, o, hu, hv, ho, ?_⟩
        rw [hu, hv]
        exact ho

theorem exists_compare?
    (ha : a.IsNumber) (hb : b.IsNumber) :
    ∃ o, a.compare? b = some o := by
  rcases compare?_cases ha hb with ⟨x, y, -, -, h⟩ | ⟨-, u, v, o, -, -, -, h⟩
  · exact ⟨_, h⟩
  · exact ⟨o, h⟩

/-- Without a floating-point number, equality is that of the decimal forms. -/
theorem looseEq_of_not_isFloat
    (ha : a.IsNumber) (hb : b.IsNumber) (hfa : a.isFloat = false) (hfb : b.isFloat = false) :
    ∃ x y, a.toDecimal? = some x ∧ b.toDecimal? = some y ∧ a.looseEq b = (x == y) := by
  rcases ha.cases with ⟨m, rfl⟩ | ⟨d, rfl⟩ | ⟨x, rfl, -⟩
  · rcases hb.cases with ⟨n, rfl⟩ | ⟨e, rfl⟩ | ⟨y, rfl, -⟩
    · exact ⟨.ofInt64 m, .ofInt64 n, rfl, rfl, (Decimal.ofInt64_beq_ofInt64 m n).symm⟩
    · exact ⟨.ofInt64 m, e, rfl, rfl, rfl⟩
    · exact absurd hfb (by simp [isFloat])
  · rcases hb.cases with ⟨n, rfl⟩ | ⟨e, rfl⟩ | ⟨y, rfl, -⟩
    · exact ⟨d, .ofInt64 n, rfl, rfl, Decimal.beq_comm (.ofInt64 n) d⟩
    · exact ⟨d, e, rfl, rfl, rfl⟩
    · exact absurd hfb (by simp [isFloat])
  · exact absurd hfa (by simp [isFloat])

/-- Beside a floating-point number, and without a decimal, equality is that of the floating-point
forms. -/
theorem looseEq_of_isFloat
    (ha : a.IsNumber) (hb : b.IsNumber) (hfloat : a.isFloat ∨ b.isFloat)
    (hda : a.isDecimal = false) (hdb : b.isDecimal = false) :
    ∃ u v, a.toBinary64? = some u ∧ b.toBinary64? = some v ∧ a.looseEq b = (u == v) := by
  rcases ha.cases with ⟨m, rfl⟩ | ⟨d, rfl⟩ | ⟨x, rfl, -⟩
  · rcases hb.cases with ⟨n, rfl⟩ | ⟨e, rfl⟩ | ⟨y, rfl, -⟩
    · exact absurd hfloat (by simp [isFloat])
    · exact absurd hdb (by simp [isDecimal])
    · exact ⟨.ofInt m.toInt, y, rfl, rfl, rfl⟩
  · exact absurd hda (by simp [isDecimal])
  · rcases hb.cases with ⟨n, rfl⟩ | ⟨e, rfl⟩ | ⟨y, rfl, -⟩
    · exact ⟨x, .ofInt n.toInt, rfl, rfl, Binary64.beq_comm (.ofInt n.toInt) x⟩
    · exact absurd hdb (by simp [isDecimal])
    · exact ⟨x, y, rfl, rfl, rfl⟩

/-- A floating-point number is never equal to a decimal. -/
theorem looseEq_of_isFloat_isDecimal
    (h : a.isFloat ∧ b.isDecimal ∨ a.isDecimal ∧ b.isFloat) :
    a.looseEq b = false := by
  rcases h with ⟨ha, hb⟩ | ⟨ha, hb⟩
  · unfold isFloat at ha
    unfold isDecimal at hb
    split at ha
    · split at hb
      · rfl
      · exact absurd hb (by simp)
    · exact absurd ha (by simp)
  · unfold isDecimal at ha
    unfold isFloat at hb
    split at ha
    · split at hb
      · rfl
      · exact absurd hb (by simp)
    · exact absurd ha (by simp)

theorem IsWhole.isDecimal_eq_false (ha : a.IsWhole) : a.isDecimal = false := by
  unfold isDecimal
  split
  · exact ha.elim
  · rfl

/-- If two numbers have decimal forms, these are equal just where the floating-point forms are. -/
def ConversionsAgree (a b : Value) : Prop :=
  ∀ x y u v, a.toDecimal? = some x → b.toDecimal? = some y →
    a.toBinary64? = some u → b.toBinary64? = some v → (u == v) = (x == y)

/-- Both forms of a whole number are its value, each in its own units. -/
theorem IsWhole.exists_units
    (ha : a.IsWhole) :
    ∃ k : Int, (∀ x, a.toDecimal? = some x → x.units = k * tenPow 28) ∧
      ∃ u : FiniteBinary, a.toBinary64? = some (.finite u) ∧ u.units = k * (twoPow 1074 : Nat) := by
  unfold IsWhole at ha
  split at ha
  · next n =>
      obtain ⟨u, hu, hunits⟩ := Binary64.ofInt_eq_finite ha
      refine ⟨n.toInt, ?_, u, congrArg some hu, hunits⟩
      intro x hx
      rw [← Option.some.inj hx, Decimal.units_ofInt64]
  · next u =>
      obtain ⟨m, hunits, hdecimal⟩ := FiniteBinary.exists_magnitude_of_isWhole ha
      refine ⟨if u.negative then -(m : Int) else m, ?_, u, rfl,
        FiniteBinary.units_of_magnitude hunits⟩
      intro x hx
      exact Decimal.units_of_ofParts? (hdecimal.symm.trans hx)
  · exact ha.elim

/-- Whole numbers are as equal in one form as in the other. -/
theorem conversionsAgree_of_isWhole
    (ha : a.IsWhole) (hb : b.IsWhole) :
    ConversionsAgree a b := by
  obtain ⟨k, hk, u, hu, hku⟩ := ha.exists_units
  obtain ⟨l, hl, v, hv, hlv⟩ := hb.exists_units
  intro x y u' v' hx hy hu' hv'
  have htwo : ((twoPow 1074 : Nat) : Int) ≠ 0 :=
    Int.natCast_ne_zero.mpr (Nat.ne_of_gt (twoPow_pos 1074))
  have hten : ((tenPow 28 : Nat) : Int) ≠ 0 := by decide
  have hbinary : (u' == v') = true ↔ k = l := by
    rw [← Option.some.inj (hu.symm.trans hu'), ← Option.some.inj (hv.symm.trans hv'),
      Binary64.finite_beq_finite, hku, hlv, Int.mul_eq_mul_right_iff htwo]
  have hdecimal : (x == y) = true ↔ k = l := by
    rw [Decimal.beq_iff_units, hk x hx, hl y hy, Int.mul_eq_mul_right_iff hten]
  rw [Bool.eq_iff_iff, hbinary, hdecimal]

end
end Value

/-! ## Tests of two numbers -/

namespace Condition

/-- The outcomes of the tests of two operands, by the operator between them. -/
def testsOf (ctx : Context) (left right op : String) : Except Error Bool :=
  evalTest ctx [left, op, right]

section

variable (test : String → Except Error Bool)

/-- The test with this operator comes out true. -/
def Holds (op : String) : Prop :=
  test op = .ok true

/-- The tests of order have outcomes, which are those of one ordering. -/
def Ordered : Prop :=
  ∃ o : Ordering, test "<" = .ok (o == .lt) ∧ test ">" = .ok (o == .gt) ∧
    test "<=" = .ok (o != .gt) ∧ test ">=" = .ok (o != .lt)

/-- Exactly one of the tests `<`, `==` and `>` holds, and `<=` holds just where one of the first two
does. -/
def Coherent : Prop :=
  (Holds test "<" ∧ ¬Holds test "==" ∧ ¬Holds test ">" ∨
    ¬Holds test "<" ∧ Holds test "==" ∧ ¬Holds test ">" ∨
    ¬Holds test "<" ∧ ¬Holds test "==" ∧ Holds test ">") ∧
  (Holds test "<=" ↔ Holds test "<" ∨ Holds test "==")

variable {test}

theorem holds_iff_toOption
    {op : String} :
    Holds test op ↔ (test op).toOption = some true := by
  unfold Holds
  rcases test op with e | r
  · simp [Except.toOption]
  · simp [Except.toOption]

end

instance (test : String → Except Error Bool) (op : String) : Decidable (Holds test op) :=
  decidable_of_iff _ holds_iff_toOption.symm

instance (test : String → Except Error Bool) : Decidable (Coherent test) :=
  inferInstanceAs (Decidable (_ ∧ _))

/-- An integer of fifty-four bits is equal to the floating-point number it is rounded to, and
greater; two floating-point numbers that differ in the last bit have neither order nor equality. -/
theorem not_coherent_of_rounding :
    let long : Value := .int 9007199254740993
    let rounded : Value := .float (.ofInt 9007199254740992)
    let close : Value := .float (.ofParts false 4503599627370497 (-52))
    let one : Value := .float (.ofInt 1)
    let ctx : Context :=
      .new (.map [("long", long), ("rounded", rounded), ("close", close), ("one", one)]) {}
    let tests := testsOf ctx "long" "rounded"
    let tests' := testsOf ctx "close" "one"
    (long.IsNumber ∧ rounded.IsNumber ∧ close.IsNumber ∧ one.IsNumber) ∧
      (ctx.evaluate "long" = .ok long ∧ ctx.evaluate "rounded" = .ok rounded ∧
        ctx.evaluate "close" = .ok close ∧ ctx.evaluate "one" = .ok one) ∧
      (Holds tests "==" ∧ Holds tests ">" ∧ ¬Coherent tests) ∧
      (¬Holds tests' "<" ∧ ¬Holds tests' "==" ∧ ¬Holds tests' ">" ∧ ¬Coherent tests') := by
  intro long rounded close one ctx tests tests'
  refine ⟨by decide +kernel, ⟨rfl, rfl, rfl, rfl⟩, ?_, ?_⟩
  · decide +kernel
  · decide +kernel

section

variable {ctx : Context} {left right : String} {a b : Value} {o : Ordering}

/-- Tests of two operands compare their values. -/
theorem testsOf_eq
    (hleft : ctx.evaluate left = .ok a) (hright : ctx.evaluate right = .ok b) :
    testsOf ctx left right = (compareBy · a b) := by
  funext op
  simp only [testsOf, evalTest, hleft, hright]
  rfl

theorem ordered_eq_ok
    (h : a.compare? b = some o) (holds : Ordering → Bool) :
    Value.ordered holds a b = .ok (holds o) := by
  rw [Value.ordered, h]

theorem ordered_of_compare? (h : a.compare? b = some o) : Ordered (compareBy · a b) :=
  ⟨o, ordered_eq_ok h (· == .lt), ordered_eq_ok h (· == .gt), ordered_eq_ok h (· != .gt),
    ordered_eq_ok h (· != .lt)⟩

/-- Order and equality are coherent just where the ties of the order are the equal values. -/
theorem coherent_iff
    (h : a.compare? b = some o) :
    Coherent (compareBy · a b) ↔ (a.looseEq b = true ↔ o = .eq) := by
  have hless : compareBy "<" a b = .ok (o == .lt) := ordered_eq_ok h (· == .lt)
  have hgreater : compareBy ">" a b = .ok (o == .gt) := ordered_eq_ok h (· == .gt)
  have hatMost : compareBy "<=" a b = .ok (o != .gt) := ordered_eq_ok h (· != .gt)
  have hequal : compareBy "==" a b = .ok (a.looseEq b) := rfl
  unfold Coherent Holds
  simp only [hless, hgreater, hatMost, hequal, Except.ok.injEq]
  rcases o with _ | _ | _
  · simp
  · simp
  · simp

/-- Without a floating-point number, no conversion rounds. -/
theorem coherent_of_not_isFloat
    (ha : a.IsNumber) (hb : b.IsNumber) (hfa : a.isFloat = false) (hfb : b.isFloat = false) :
    Coherent (compareBy · a b) := by
  obtain ⟨x, y, hx, hy, hequal⟩ := Value.looseEq_of_not_isFloat ha hb hfa hfb
  rcases Value.compare?_cases ha hb with ⟨x', y', hx', hy', hcompare⟩ | ⟨hnone, -⟩
  · rw [coherent_iff hcompare, hequal, Option.some.inj (hx'.symm.trans hx),
      Option.some.inj (hy'.symm.trans hy)]
    exact Decimal.compare_eq_eq_iff.symm
  · rw [hx, hy] at hnone
    exact absurd hnone (by simp)

/-- Beside a floating-point number, coherence is that the two forms have the same ties. -/
theorem coherent_iff_conversionsAgree
    (ha : a.IsNumber) (hb : b.IsNumber) (hfloat : a.isFloat ∨ b.isFloat)
    (hda : a.isDecimal = false) (hdb : b.isDecimal = false) :
    Coherent (compareBy · a b) ↔ a.ConversionsAgree b := by
  obtain ⟨u, v, hu, hv, hequal⟩ := Value.looseEq_of_isFloat ha hb hfloat hda hdb
  rcases Value.compare?_cases ha hb with
    ⟨x, y, hx, hy, hcompare⟩ | ⟨hnone, u', v', o, hu', hv', ho, hcompare⟩
  · rw [coherent_iff hcompare, hequal, Decimal.compare_eq_eq_iff, ← Bool.eq_iff_iff]
    constructor
    · intro h x' y' u' v' hx' hy' hu' hv'
      rw [← Option.some.inj (hx.symm.trans hx'), ← Option.some.inj (hy.symm.trans hy'),
        ← Option.some.inj (hu.symm.trans hu'), ← Option.some.inj (hv.symm.trans hv')]
      exact h
    · intro h
      exact h x y u v hx hy hu hv
  · rw [coherent_iff hcompare, hequal]
    constructor
    · intro _ x y _ _ hx hy
      rw [hx, hy] at hnone
      exact absurd hnone (by simp)
    · intro _
      rw [Option.some.inj (hu'.symm.trans hu), Option.some.inj (hv'.symm.trans hv)] at ho
      change (u.compare? v == some .eq) = true ↔ o = .eq
      rw [ho, beq_iff_eq, Option.some.injEq]

/-- A floating-point number beside a decimal is coherent with it where one of the two is less. -/
theorem coherent_of_untied
    (ha : a.IsNumber) (hb : b.IsNumber)
    (hforms : a.isFloat ∧ b.isDecimal ∨ a.isDecimal ∧ b.isFloat)
    (hapart : Holds (compareBy · a b) "<" ∨ Holds (compareBy · a b) ">") :
    Coherent (compareBy · a b) := by
  obtain ⟨o, ho⟩ := Value.exists_compare? ha hb
  have hless : compareBy "<" a b = .ok (o == .lt) := ordered_eq_ok ho (· == .lt)
  have hgreater : compareBy ">" a b = .ok (o == .gt) := ordered_eq_ok ho (· == .gt)
  rw [coherent_iff ho, Value.looseEq_of_isFloat_isDecimal hforms]
  have huntied : o ≠ .eq := by
    rintro rfl
    simp [Holds, hless, hgreater] at hapart
  simp [huntied]

theorem coherent_of_isWhole
    (ha : a.IsNumber) (hb : b.IsNumber) (hwa : a.IsWhole) (hwb : b.IsWhole) :
    Coherent (compareBy · a b) := by
  by_cases hfloat : a.isFloat ∨ b.isFloat
  · exact (coherent_iff_conversionsAgree ha hb hfloat hwa.isDecimal_eq_false
      hwb.isDecimal_eq_false).mpr (Value.conversionsAgree_of_isWhole hwa hwb)
  · simp only [not_or, Bool.not_eq_true] at hfloat
    exact coherent_of_not_isFloat ha hb hfloat.1 hfloat.2

/-- Tests of two numbers always have outcomes, and the tests of order are those of one ordering.
Equality fits this ordering between integers and decimals, and between whole numbers; beside a
floating-point number it fits just where the two conversions leave the same numbers apart.  Between
a floating-point number and a decimal it fits where one of them is less; their ties are left out. -/
theorem order_and_equality_of_numbers
    (hleft : ctx.evaluate left = .ok a) (hright : ctx.evaluate right = .ok b)
    (ha : a.IsNumber) (hb : b.IsNumber) :
    let test := testsOf ctx left right
    Ordered test ∧
      (a.isFloat = false → b.isFloat = false → Coherent test) ∧
      (a.IsWhole → b.IsWhole → Coherent test) ∧
      (a.isFloat ∨ b.isFloat → a.isDecimal = false → b.isDecimal = false →
        (Coherent test ↔ a.ConversionsAgree b)) ∧
      (a.isFloat ∧ b.isDecimal ∨ a.isDecimal ∧ b.isFloat →
        Holds test "<" ∨ Holds test ">" → Coherent test) := by
  intro test
  have htest : test = (compareBy · a b) := testsOf_eq hleft hright
  obtain ⟨o, ho⟩ := Value.exists_compare? ha hb
  rw [htest]
  exact ⟨ordered_of_compare? ho, coherent_of_not_isFloat ha hb, coherent_of_isWhole ha hb,
    coherent_iff_conversionsAgree ha hb, coherent_of_untied ha hb⟩

end

/-- A price beside an integer and beside a smaller floating-point number, an integer beside a whole
floating-point number, and a floating-point number that is not one but is ordered as if it were. -/
theorem order_and_equality_of_numbers_price :
    let price : Value := .decimal ⟨false, 250, 2, by decide, by decide⟩
    let whole : Value := .float (.ofInt (-3))
    let close : Value := .float (.ofParts false 4503599627370497 (-52))
    let ctx : Context := .new (.map [("price", price), ("whole", whole), ("close", close)]) {}
    (ctx.evaluate "price" = .ok price ∧ ctx.evaluate "whole" = .ok whole ∧
        ctx.evaluate "close" = .ok close ∧ ctx.evaluate "1" = .ok (.int 1)) ∧
      (price.IsNumber ∧ whole.IsNumber ∧ close.IsNumber ∧ (Value.int 1).IsNumber) ∧
      Coherent (testsOf ctx "price" "1") ∧ Coherent (testsOf ctx "1" "whole") ∧
      (Holds (testsOf ctx "price" "close") ">" ∧ Coherent (testsOf ctx "price" "close")) ∧
      Ordered (testsOf ctx "close" "1") ∧ ¬close.ConversionsAgree (.int 1) := by
  intro price whole close ctx
  have hprice : ctx.evaluate "price" = .ok price := rfl
  have hwhole : ctx.evaluate "whole" = .ok whole := rfl
  have hclose : ctx.evaluate "close" = .ok close := rfl
  have hone : ctx.evaluate "1" = .ok (.int 1) := rfl
  have hnumbers : price.IsNumber ∧ whole.IsNumber ∧ close.IsNumber ∧ (Value.int 1).IsNumber := by
    decide +kernel
  obtain ⟨hp, hw, hc, h1⟩ := hnumbers
  have hpriceOne := order_and_equality_of_numbers hprice hone hp h1
  have honeWhole := order_and_equality_of_numbers hone hwhole h1 hw
  have hcloseOne := order_and_equality_of_numbers hclose hone hc h1
  obtain ⟨-, -, -, -, huntied⟩ := order_and_equality_of_numbers hprice hclose hp hc
  have hgreater : Holds (testsOf ctx "price" "close") ">" := by decide +kernel
  have hdiffer : ¬Coherent (testsOf ctx "close" "1") := by decide +kernel
  refine ⟨⟨hprice, hwhole, hclose, hone⟩, ⟨hp, hw, hc, h1⟩, hpriceOne.2.1 rfl rfl,
    honeWhole.2.2.1 (by decide +kernel) (by decide +kernel),
    ⟨hgreater, huntied (.inr ⟨rfl, rfl⟩) (.inr hgreater)⟩, hcloseOne.1, ?_⟩
  intro hagree
  exact hdiffer ((hcloseOne.2.2.2.1 (.inl rfl) rfl rfl).mpr hagree)

end Condition
end Liquid
