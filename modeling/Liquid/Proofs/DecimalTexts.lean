import Mathlib.Tactic.Ring
import Liquid.Datum
import Liquid.Proofs.Digits
import Liquid.Proofs.ExactOrder
import Liquid.Proofs.Trim

/-!
# Decimals as texts

In structured data a decimal is its text.  Reading the text gives back a decimal of the same value:
all digits of the mantissa fit, and so do all digits after the point.  Beside a number the text is
therefore ordered as the decimal itself, whatever blanks stand around it.
-/

namespace Liquid

open Numeric Text

theorem Text.not_isBlank_of_isDigit
    {c : Char} (hc : c.isDigit) :
    ¬isBlank c := by
  intro hblank
  have hmem := toNat_mem_blankNumbers hblank
  obtain ⟨hlow, hhigh⟩ := toNat_of_isDigit hc
  simp only [blankNumbers, List.mem_cons, List.not_mem_nil, or_false] at hmem
  omega

namespace Numeric.Decimal

/-! ## Reading digits -/

variable {point seen : Bool} {mantissa scale : Nat}

/-- A digit that fits is added to the mantissa, and to the scale if it stands after the point. -/
theorem scan_digit
    {c : Char} (hc : c.isDigit) (hfits : 10 * mantissa + natOfDigits [c] < mantissaLimit)
    (hscale : point = true → scale < maxScale) (rest : List Char) :
    scan point seen mantissa scale (c :: rest) =
      scan point true (10 * mantissa + natOfDigits [c]) (if point then scale + 1 else scale)
        rest := by
  have hroom : (point && (scale == maxScale ||
      decide (mantissaLimit ≤ 10 * mantissa + natOfDigits [c]))) = false := by
    rw [Bool.and_eq_false_imp]
    intro hpoint
    have := hscale hpoint
    rw [Bool.or_eq_false_iff, beq_eq_false_iff_ne, decide_eq_false_iff_not]
    omega
  rw [scan, if_pos hc]
  simp only [hroom, hfits, Bool.false_eq_true, if_false, if_true]

theorem scan_digits
    {ds : List Char} (hds : AllDigits ds)
    (hfits : mantissa * 10 ^ ds.length + natOfDigits ds < mantissaLimit)
    (hscale : point = true → scale + ds.length ≤ maxScale) (rest : List Char) :
    scan point seen mantissa scale (ds ++ rest) =
      scan point (seen || !ds.isEmpty) (mantissa * 10 ^ ds.length + natOfDigits ds)
        (if point then scale + ds.length else scale) rest := by
  induction ds generalizing seen mantissa scale with
  | nil =>
      have hnone : mantissa * 10 ^ ([] : List Char).length + natOfDigits [] = mantissa := by
        rw [List.length_nil, Nat.pow_zero, Nat.mul_one]
        rfl
      rw [hnone, List.nil_append, List.isEmpty_nil, Bool.not_true, Bool.or_false, List.length_nil,
        Nat.add_zero, ite_self]
  | cons c ds ih =>
      obtain ⟨hc, hds⟩ := List.forall_mem_cons.mp hds
      have hvalue : mantissa * 10 ^ (c :: ds).length + natOfDigits (c :: ds) =
          (10 * mantissa + natOfDigits [c]) * 10 ^ ds.length + natOfDigits ds := by
        have hfirst : natOfDigits (c :: ds) = natOfDigits [c] * 10 ^ ds.length + natOfDigits ds :=
          natOfDigits_append [c] ds
        rw [hfirst, List.length_cons]
        ring
      rw [hvalue] at hfits ⊢
      have hshort : 10 * mantissa + natOfDigits [c] < mantissaLimit := by
        have hle := Nat.le_mul_of_pos_right (10 * mantissa + natOfDigits [c])
          (Nat.pow_pos (by decide) : 0 < 10 ^ ds.length)
        omega
      rw [List.length_cons] at hscale
      have hroom : point = true → scale < maxScale := by
        intro hpoint
        have := hscale hpoint
        omega
      rw [List.cons_append, scan_digit hc hshort hroom, ih hds hfits, List.isEmpty_cons,
        Bool.not_false, Bool.or_true, Bool.true_or, List.length_cons]
      · cases point
        · rfl
        · simp only [if_true, Nat.add_assoc, Nat.add_comm 1]
      · intro hpoint
        rw [if_pos hpoint]
        have := hscale hpoint
        omega

theorem scan_point (rest : List Char) :
    scan false seen mantissa scale ('.' :: rest) = scan true seen mantissa scale rest := by
  rfl

/-! ## The text of a decimal -/

/-- A number in positional form: digits, and after them, if any stand after the point, the point
and these. -/
theorem exists_fixedPoint (mantissa scale : Nat) :
    ∃ whole fraction, whole ≠ [] ∧ AllDigits whole ∧ AllDigits fraction ∧
      fraction.length = scale ∧ natOfDigits (whole ++ fraction) = mantissa ∧
        fixedPoint mantissa scale = if scale = 0 then whole else whole ++ '.' :: fraction := by
  have hlength := width_le_length_paddedDigits (scale + 1) mantissa
  have hdigits := allDigits_paddedDigits (scale + 1) mantissa
  have hvalue := natOfDigits_paddedDigits (scale + 1) mantissa
  generalize hds : paddedDigits (scale + 1) mantissa = ds at hlength hdigits hvalue
  refine ⟨ds.take (ds.length - scale), ds.drop (ds.length - scale), ?_, ?_, ?_, ?_, ?_, ?_⟩
  · rw [Ne, List.take_eq_nil_iff, not_or]
    refine ⟨by omega, ?_⟩
    rintro rfl
    simp at hlength
  · exact fun c hc => hdigits c (List.mem_of_mem_take hc)
  · exact fun c hc => hdigits c (List.mem_of_mem_drop hc)
  · rw [List.length_drop]
    omega
  · rw [List.take_append_drop, hvalue]
  · simp only [fixedPoint, hds, beq_iff_eq]
    split
    · next hzero => rw [hzero, Nat.sub_zero, List.take_length]
    · rfl

/-- What is written in positional form is read back. -/
theorem scan_fixedPoint
    (hmantissa : mantissa < mantissaLimit) (hscale : scale ≤ maxScale) :
    scan false false 0 0 (fixedPoint mantissa scale) = some (mantissa, scale) := by
  obtain ⟨whole, fraction, hne, hwhole, hfraction, hlength, hvalue, htext⟩ :=
    exists_fixedPoint mantissa scale
  have hseen : (false || !whole.isEmpty) = true := by
    simpa using hne
  rw [natOfDigits_append] at hvalue
  have hshort : 0 * 10 ^ whole.length + natOfDigits whole < mantissaLimit := by
    have hle := Nat.le_mul_of_pos_right (natOfDigits whole)
      (Nat.pow_pos (by decide) : 0 < 10 ^ fraction.length)
    omega
  have hread (rest : List Char) : scan false false 0 0 (whole ++ rest) =
      scan false true (natOfDigits whole) 0 rest := by
    rw [scan_digits hwhole hshort (fun h => absurd h Bool.false_ne_true), hseen, Nat.zero_mul,
      Nat.zero_add]
    rfl
  by_cases hzero : scale = 0
  · have hnone : fraction = [] := List.eq_nil_of_length_eq_zero (hlength.trans hzero)
    rw [hnone, List.length_nil, Nat.pow_zero, Nat.mul_one] at hvalue
    have hwholeValue : natOfDigits whole = mantissa := hvalue
    rw [htext, if_pos hzero, ← List.append_nil whole, hread, hwholeValue, hzero]
    rfl
  · have hroom : 0 + fraction.length ≤ maxScale := by rwa [Nat.zero_add, hlength]
    rw [htext, if_neg hzero, hread, scan_point, ← List.append_nil fraction,
      scan_digits hfraction (hvalue ▸ hmantissa) (fun _ => hroom), hvalue, if_pos rfl, Nat.zero_add,
      hlength]
    rfl

theorem exists_digit_fixedPoint (mantissa scale : Nat) :
    ∃ c rest, fixedPoint mantissa scale = c :: rest ∧ c.isDigit := by
  obtain ⟨whole, fraction, hne, hwhole, -, -, -, htext⟩ := exists_fixedPoint mantissa scale
  obtain ⟨c, rest, rfl⟩ := List.exists_cons_of_ne_nil hne
  rw [htext]
  split
  · exact ⟨c, rest, rfl, hwhole c List.mem_cons_self⟩
  · exact ⟨c, _, rfl, hwhole c List.mem_cons_self⟩

theorem isDigit_getLast?_fixedPoint
    {c : Char} (hc : c ∈ (fixedPoint mantissa scale).getLast?) :
    c.isDigit := by
  obtain ⟨whole, fraction, hne, hwhole, hfraction, hlength, -, htext⟩ :=
    exists_fixedPoint mantissa scale
  rw [htext] at hc
  split at hc
  · exact hwhole c (List.mem_of_getLast? hc)
  · next hscale =>
      have hsome : fraction ≠ [] := by
        rintro rfl
        exact hscale hlength.symm
      rw [List.getLast?_append_of_ne_nil _ (List.cons_ne_nil _ _),
        List.getLast?_cons_of_ne_nil hsome] at hc
      exact hfraction c (List.mem_of_getLast? hc)

theorem splitSign_toChars (d : Decimal) :
    splitSign d.toChars = (d.negative, fixedPoint d.mantissa d.scale) := by
  obtain ⟨c, rest, htext, hc⟩ := exists_digit_fixedPoint d.mantissa d.scale
  unfold toChars
  cases d.negative with
  | true => rfl
  | false =>
      simp only [htext, Bool.false_eq_true, if_false]
      exact splitSign_of_isDigit hc rest

/-- No blank stands around the text of a decimal. -/
theorem trimmed_toChars (d : Decimal) : Trimmed d.toChars := by
  obtain ⟨c, rest, htext, hc⟩ := exists_digit_fixedPoint d.mantissa d.scale
  have hlast {c : Char} (hc : c ∈ (fixedPoint d.mantissa d.scale).getLast?) : ¬isBlank c :=
    not_isBlank_of_isDigit (isDigit_getLast?_fixedPoint hc)
  have hne : fixedPoint d.mantissa d.scale ≠ [] := by
    rw [htext]
    exact List.cons_ne_nil c rest
  unfold toChars
  cases d.negative with
  | true =>
      refine ⟨?_, ?_⟩
      · rintro _ ⟨⟩
        decide
      · intro c hc
        simp only [if_true, List.getLast?_cons_of_ne_nil hne] at hc
        exact hlast hc
  | false =>
      refine ⟨?_, fun c hc => hlast hc⟩
      simp only [htext, Bool.false_eq_true, if_false, List.head?_cons]
      rintro _ ⟨⟩
      exact not_isBlank_of_isDigit hc

/-- The text of a decimal is read as a decimal of the same value; only a minus sign before zero is
lost. -/
theorem exists_ofChars?_toChars (d : Decimal) :
    ∃ e, ofChars? d.toChars = some e ∧ e.units = d.units := by
  have hpositional : ofPositional? d.toChars =
      ofParts? (d.negative && d.mantissa != 0) d.mantissa d.scale := by
    rw [ofPositional?, splitSign_toChars]
    simp only [scan_fixedPoint d.mantissa_lt d.scale_le]
  have hparts : ofParts? (d.negative && d.mantissa != 0) d.mantissa d.scale =
      some ⟨d.negative && d.mantissa != 0, d.mantissa, d.scale, d.mantissa_lt, d.scale_le⟩ :=
    dif_pos ⟨d.mantissa_lt, d.scale_le⟩
  rw [ofChars?, hpositional, hparts]
  refine ⟨_, rfl, ?_⟩
  unfold units signedMantissa
  by_cases hzero : d.mantissa = 0
  · simp [hzero]
  · simp [hzero]

end Numeric.Decimal

/-! ## Order beside a number -/

namespace Value

variable {n : Value} {y : Decimal}

theorem isNumber_of_toDecimal?
    (hn : n.toDecimal? = some y) :
    n.IsNumber := by
  unfold toDecimal? at hn
  split at hn
  · trivial
  · next x =>
      rintro rfl
      exact absurd hn (by simp [Decimal.ofBinary64?])
  · trivial
  · exact absurd hn (by simp)

theorem compare?_decimal
    (hn : n.toDecimal? = some y) (d : Decimal) :
    n.compare? (decimal d) = some (y.compare d) := by
  have hd : (decimal d).decimalBeside? n = some d := rfl
  rw [compare?_of_isNumber (isNumber_of_toDecimal? hn), compareNumbers?,
    decimalBeside?_of_isNumber (isNumber_of_toDecimal? hn), hn, hd]

/-- Beside a number with a decimal form, a text is ordered as the decimal that is read from it. -/
theorem compare?_str
    (hn : n.toDecimal? = some y) {s : String} {e : Decimal}
    (he : Decimal.ofChars? (trimChars s.toList) = some e) :
    n.compare? (str s) = some (y.compare e) := by
  have hs : (str s).decimalBeside? n = some e := by
    simp only [decimalBeside?, hn, he]
  rw [compare?_of_isNumber (isNumber_of_toDecimal? hn), compareNumbers?,
    decimalBeside?_of_isNumber (isNumber_of_toDecimal? hn), hn, hs]

/-- The text of a decimal, between any blanks, has the order of the decimal. -/
theorem compare?_display
    (hn : n.toDecimal? = some y) (d : Decimal) {l r : String} (hl : AllBlank l.toList)
    (hr : AllBlank r.toList) :
    n.compare? (str (l ++ d.display ++ r)) = n.compare? (decimal d) := by
  obtain ⟨e, he, hunits⟩ := d.exists_ofChars?_toChars
  have htrim : trimChars (l ++ d.display ++ r).toList = d.toChars := by
    rw [String.toList_append, String.toList_append, Decimal.display, String.toList_ofList]
    exact trimChars_append hl hr d.trimmed_toChars
  rw [compare?_decimal hn, compare?_str hn (htrim ▸ he), Decimal.compare, Decimal.compare, hunits]

end Value

namespace Condition

/-- In structured data a decimal is its text.  Beside every number with a decimal form, on either
side and between any blanks, the tests of order of the text come out as those of the decimal. -/
theorem text_orders_as_decimal (d : Decimal) :
    (Datum.decimal d).toValue = .ok (.str d.display) ∧
      ∀ n : Value, n.toDecimal?.isSome → ∀ l r : String, AllBlank l.toList → AllBlank r.toList →
        SameTests orderOperators n (.str (l ++ d.display ++ r)) n (.decimal d) ∧
          SameTests orderOperators (.str (l ++ d.display ++ r)) n (.decimal d) n := by
  refine ⟨rfl, ?_⟩
  intro n hn l r hl hr
  obtain ⟨y, hy⟩ := Option.isSome_iff_exists.mp hn
  have hdecimal := Value.compare?_decimal hy d
  have htext := (Value.compare?_display hy d hl hr).trans hdecimal
  have hdecimal' : (Value.decimal d).compare? n = some (y.compare d).swap := by
    rw [Value.compare?_swap, hdecimal]
    rfl
  have htext' : (Value.str (l ++ d.display ++ r)).compare? n = some (y.compare d).swap := by
    rw [Value.compare?_swap, htext]
    rfl
  exact ⟨sameTests_of_compare? htext hdecimal, sameTests_of_compare? htext' hdecimal'⟩

/-- The longest text that a decimal has, between blanks, beside an integer and a floating-point
number; and a zero with a minus sign, which is read without it. -/
theorem text_orders_as_decimal_longest :
    let longest : Decimal := ⟨true, 79228162514264337593543950335, 28, by decide, by decide⟩
    let zero : Decimal := ⟨true, 0, 2, by decide, by decide⟩
    let half : Value := .float (.finite ⟨false, 4503599627370496, -53, by decide⟩)
    longest.display = "-7.9228162514264337593543950335" ∧ zero.display = "-0.00" ∧
      half.toDecimal? = some ⟨false, 5, 1, by decide, by decide⟩ ∧
      AllBlank " \t".toList ∧ AllBlank "\n".toList ∧
      compareBy "<" (.str (" \t" ++ longest.display ++ "\n")) (.int (-7)) = .ok true ∧
      compareBy ">" half (.str (" \t" ++ longest.display ++ "\n")) = .ok true ∧
      compareBy ">=" (.str ("" ++ zero.display ++ "")) (.int 0) = .ok true := by
  intro longest zero half
  have hhalf : half.toDecimal? = some ⟨false, 5, 1, by decide, by decide⟩ := by decide +kernel
  have hleft : AllBlank " \t".toList := by decide +kernel
  have hright : AllBlank "\n".toList := by decide +kernel
  have hnone : AllBlank "".toList := by decide +kernel
  have hlongest := (text_orders_as_decimal longest).2
  have hzero := (text_orders_as_decimal zero).2
  have hless : (Value.decimal longest).compare? (.int (-7)) = some .lt := by decide +kernel
  have hgreater : half.compare? (.decimal longest) = some .gt := by decide +kernel
  have hequal : (Value.decimal zero).compare? (.int 0) = some .eq := by decide +kernel
  refine ⟨by decide +kernel, by decide +kernel, hhalf, hleft, hright, ?_, ?_, ?_⟩
  · rw [(hlongest (.int (-7)) rfl _ _ hleft hright).2.compareBy_eq (by decide)]
    exact ordered_eq_ok hless (· == .lt)
  · rw [(hlongest half (by rw [hhalf]; rfl) _ _ hleft hright).1.compareBy_eq (by decide)]
    exact ordered_eq_ok hgreater (· == .gt)
  · rw [(hzero (.int 0) rfl _ _ hnone hnone).2.compareBy_eq (by decide)]
    exact ordered_eq_ok hequal (· != .lt)

end Condition
end Liquid
