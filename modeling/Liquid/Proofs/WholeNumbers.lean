import Liquid.Numeric.Conversion

/-!
# Whole numbers in the two forms

An integer of at most fifty-three bits is a floating-point number, and a whole floating-point number
that is not too large is a decimal: neither conversion rounds.  The first is because the significand
has room for every bit, the second because every halving is exact while the number stays whole.
-/

namespace Liquid
namespace Numeric

theorem twoPow_pos (e : Nat) : 0 < twoPow e :=
  Nat.two_pow_pos e

theorem twoPow_mul_twoPow (k l : Nat) : twoPow k * twoPow l = twoPow (k + l) :=
  (Nat.pow_add 2 k l).symm

/-! ## Integers as floating-point numbers -/

theorem roundHalfEven_one (n : Nat) : roundHalfEven n 1 = n := by
  unfold roundHalfEven
  simp only [Nat.mod_one, Nat.div_one, Nat.mul_zero, Nat.lt_one_iff, if_true]

theorem floorLogTwo_one
    {n : Nat} (hn : n ≠ 0) :
    floorLogTwo n 1 = n.log2 := by
  have hlog : Nat.log2 1 = 0 := by decide
  have hle : 1 * Nat.pow 2 n.log2 ≤ n * Nat.pow 2 0 := by
    simpa using Nat.log2_self_le hn
  unfold floorLogTwo scaleByTwo twoPow
  simp only [hlog, Int.natCast_zero, Int.sub_zero, Int.neg_neg, Int.toNat_neg_natCast,
    Int.toNat_natCast]
  rw [if_pos hle]

section

variable {n k : Nat}

/-- The significand of an integer that is `k` bits short of the full fifty-three. -/
theorem significand_bounds
    (hn : n ≠ 0) (hk : n.log2 + k = 52) :
    significandLimit ≤ 2 * (n * twoPow k) ∧ n * twoPow k < significandLimit := by
  unfold twoPow
  constructor
  · calc significandLimit = 2 * (2 ^ n.log2 * 2 ^ k) := by rw [← Nat.pow_add, hk]
      _ ≤ 2 * (n * 2 ^ k) :=
        Nat.mul_le_mul_left 2 (Nat.mul_le_mul_right _ (Nat.log2_self_le hn))
  · calc n * 2 ^ k < 2 ^ (n.log2 + 1) * 2 ^ k :=
        Nat.mul_lt_mul_of_pos_right Nat.lt_log2_self (Nat.two_pow_pos k)
      _ = significandLimit := by rw [← Nat.pow_add, Nat.add_right_comm, hk]

/-- Such an integer is shifted until its significand is full, and nothing is rounded. -/
theorem BinaryFormat.round?_double_one
    (hn : n ≠ 0) (hk : n.log2 + k = 52) :
    double.round? n 1 = some (n * twoPow k, -(k : Int)) := by
  have hexponent : max (-1074) ((n.log2 : Int) + 1 - (53 : Nat)) = -(k : Int) := by omega
  have hscaled : scaleByTwo n 1 k = (n * twoPow k, 1) := by
    simp only [scaleByTwo, Int.toNat_natCast, Int.toNat_neg_natCast]
    rfl
  have hshort : (n * twoPow k == twoPow 53) = false :=
    beq_eq_false_iff_ne.mpr (Nat.ne_of_lt (significand_bounds hn hk).2)
  have hrange : -(k : Int) ≤ 971 := by omega
  unfold round? double
  simp only [floorLogTwo_one hn, hexponent, Int.neg_neg, hscaled, roundHalfEven_one, hshort]
  exact if_pos hrange

end

/-- The value of a finite number whose magnitude is the integer `m`. -/
theorem FiniteBinary.units_of_magnitude
    {x : FiniteBinary} {m p : Nat}
    (hx : x.significand * twoPow (x.exponent + 1074).toNat = m * p) :
    x.units = (if x.negative then -(m : Int) else m) * p := by
  simp only [units, hx]
  split
  · rw [Int.natCast_mul, Int.neg_mul]
  · rw [Int.natCast_mul]

/-- An integer of at most fifty-three bits keeps its value. -/
theorem Binary64.ofInt_eq_finite
    {n : Int} (hn : n.natAbs < significandLimit) :
    ∃ x : FiniteBinary, ofInt n = .finite x ∧ x.units = n * (twoPow 1074 : Nat) := by
  by_cases hzero : n = 0
  · subst hzero
    exact ⟨.zero false, rfl, (Int.zero_mul _).symm⟩
  · have habs : n.natAbs ≠ 0 := Int.natAbs_ne_zero.mpr hzero
    obtain ⟨k, hk⟩ : ∃ k, n.natAbs.log2 + k = 52 := by
      have hlog : n.natAbs.log2 < 53 := (Nat.log2_lt habs).mpr hn
      exact ⟨52 - n.natAbs.log2, by omega⟩
    obtain ⟨hlow, hhigh⟩ := significand_bounds habs hk
    have hcanonical : IsCanonical (n.natAbs * twoPow k) (-(k : Int)) :=
      ⟨hhigh, by omega, by omega, .inl hlow⟩
    have hunits : n.natAbs * twoPow k * twoPow (-(k : Int) + 1074).toNat =
        n.natAbs * twoPow 1074 := by
      have hexponents : k + (-(k : Int) + 1074).toNat = 1074 := by omega
      rw [Nat.mul_assoc, twoPow_mul_twoPow, hexponents]
    refine ⟨⟨decide (n < 0), n.natAbs * twoPow k, -(k : Int), hcanonical⟩, ?_, ?_⟩
    · unfold ofInt ofQuotient
      rw [if_neg (by simpa using hzero), BinaryFormat.round?_double_one habs hk]
      exact dif_pos hcanonical
    · rw [FiniteBinary.units_of_magnitude hunits]
      congr 1
      by_cases hneg : n < 0
      · rw [if_pos (decide_eq_true hneg)]
        omega
      · rw [if_neg (by simpa using hneg)]
        omega

/-! ## Whole floating-point numbers as decimals -/

namespace Decimal

theorem halve_double (m : Nat) : halve (m * 2, 0) = (m, 0) := by
  simp only [halve, Nat.mul_mod_left, beq_self_eq_true, if_true, Nat.mul_div_cancel m Nat.two_pos]

/-- Halvings that leave a whole number are exact. -/
theorem repeat_halve (m h : Nat) : Nat.repeat halve h (m * twoPow h, 0) = (m, 0) := by
  induction h generalizing m with
  | zero => exact congrArg (·, 0) (Nat.mul_one m)
  | succ h ih =>
      have hpow : m * twoPow (h + 1) = m * 2 * twoPow h := by
        unfold twoPow
        rw [Nat.mul_assoc, Nat.mul_comm 2]
        rfl
      rw [Nat.repeat, hpow, ih, halve_double]

theorem ofHalvings_mul_twoPow (m h : Nat) : ofHalvings (m * twoPow h) h = (m, 0) := by
  unfold ofHalvings
  rw [repeat_halve]
  simp only [Nat.zero_sub, dropDigits, Nat.zero_min, ite_self, limitBits, stripZeros]

end Decimal

/-- A whole number has the decimal of its own value, where that is in range. -/
theorem FiniteBinary.exists_magnitude_of_isWhole
    {x : FiniteBinary} (hx : x.isWhole = true) :
    ∃ m : Nat, x.significand * twoPow (x.exponent + 1074).toNat = m * twoPow 1074 ∧
      Decimal.ofFinite? x = Decimal.ofParts? x.negative m 0 := by
  unfold Decimal.ofFinite?
  by_cases hexponent : x.exponent < 0
  · obtain ⟨h, hh⟩ : ∃ h : Nat, x.exponent = -h := ⟨x.exponent.natAbs, by omega⟩
    have hrange := x.canonical.2.1
    have hexponents : h + (-(h : Int) + 1074).toNat = 1074 := by omega
    obtain ⟨m, hm⟩ : ∃ m, x.significand = m * twoPow h := by
      have hdvd : twoPow h ∣ x.significand := by
        apply Nat.dvd_of_mod_eq_zero
        simpa [isWhole, magnitude, scaleByTwo, hh, twoPow] using hx
      obtain ⟨m, hm⟩ := hdvd
      exact ⟨m, by rw [hm, Nat.mul_comm]⟩
    refine ⟨m, ?_, ?_⟩
    · rw [hm, hh, Nat.mul_assoc, twoPow_mul_twoPow, hexponents]
    · rw [if_pos hexponent, hm, hh, Int.natAbs_neg, Int.natAbs_natCast,
        Decimal.ofHalvings_mul_twoPow]
  · refine ⟨x.significand * twoPow x.exponent.toNat, ?_, if_neg hexponent⟩
    have hexponents : (x.exponent + 1074).toNat = x.exponent.toNat + 1074 := by omega
    rw [hexponents, Nat.mul_assoc, twoPow_mul_twoPow]

end Numeric
end Liquid
