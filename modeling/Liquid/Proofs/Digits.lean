import Mathlib.Data.String.Basic
import Liquid.Text.Digits

/-!
# Digits as texts and as numbers

What a run of decimal digits denotes, and the order of such runs as texts: runs of one length are
ordered as the numbers that they denote, and zeros at the end of one make no difference unless the
runs are equal but for them.
-/

namespace Liquid

/-! ## Orders of parts -/

theorem compare_congr
    {a b c d : Nat} (hlt : a < b ↔ c < d) (hgt : b < a ↔ d < c) :
    compare a b = compare c d := by
  rcases Nat.lt_trichotomy a b with h | h | h
  · rw [Nat.compare_eq_lt.mpr h, Nat.compare_eq_lt.mpr (hlt.mp h)]
  · have heq : c = d := by omega
    rw [Nat.compare_eq_eq.mpr h, Nat.compare_eq_eq.mpr heq]
  · rw [Nat.compare_eq_gt.mpr h, Nat.compare_eq_gt.mpr (hgt.mp h)]

/-- Numbers are ordered by their quotients, and by their remainders where these are equal. -/
theorem compare_mul_add
    {k r s : Nat} (hr : r < k) (hs : s < k) (x y : Nat) :
    compare (x * k + r) (y * k + s) = (compare x y).then (compare r s) := by
  have hless {x y r s : Nat} (h : x < y) (hr : r < k) : x * k + r < y * k + s := by
    have hmul : (x + 1) * k ≤ y * k := Nat.mul_le_mul_right k h
    rw [Nat.add_mul, Nat.one_mul] at hmul
    omega
  rcases Nat.lt_trichotomy x y with h | rfl | h
  · rw [Nat.compare_eq_lt.mpr h, Nat.compare_eq_lt.mpr (hless h hr), Ordering.lt_then]
  · rw [Nat.compare_eq_eq.mpr rfl, Ordering.eq_then]
    exact compare_congr (by omega) (by omega)
  · rw [Nat.compare_eq_gt.mpr h, Nat.compare_eq_gt.mpr (hless h hs), Ordering.gt_then]

/-- Lists whose first parts have one length are ordered by these, and then by the rest. -/
theorem compare_append
    {α : Type} [Ord α] {front front' : List α} (h : front.length = front'.length)
    (back back' : List α) :
    compare (front ++ back) (front' ++ back') =
      (compare front front').then (compare back back') := by
  induction front generalizing front' with
  | nil =>
      obtain rfl := List.eq_nil_of_length_eq_zero h.symm
      rw [List.compare_nil_nil, Ordering.eq_then]
      rfl
  | cons a front ih =>
      cases front' with
      | nil => exact absurd h (Nat.succ_ne_zero _)
      | cons b front' =>
          rw [List.cons_append, List.cons_append, List.compare_cons_cons, List.compare_cons_cons,
            ih (Nat.succ.inj h), Ordering.then_assoc]

theorem compare_char (c d : Char) : compare c d = compare c.toNat d.toNat := by
  have hlt (c d : Char) : c < d ↔ c.toNat < d.toNat := UInt32.lt_iff_toNat_lt
  rcases Nat.lt_trichotomy c.toNat d.toNat with h | h | h
  · rw [Nat.compare_eq_lt.mpr h]
    exact compareOfLessAndEq_eq_lt.mpr ((hlt c d).mpr h)
  · rw [Nat.compare_eq_eq.mpr h, Char.toNat_inj.mp h]
    exact Std.ReflCmp.compare_self
  · rw [Nat.compare_eq_gt.mpr h, Std.OrientedCmp.gt_iff_lt]
    exact compareOfLessAndEq_eq_lt.mpr ((hlt d c).mpr h)

theorem lt_of_compare_eq_lt
    {cs ds : List Char} (h : compare cs ds = .lt) :
    cs < ds := by
  induction cs generalizing ds with
  | nil =>
      cases ds with
      | nil => exact absurd h (by decide)
      | cons d ds => exact List.nil_lt_cons d ds
  | cons c cs ih =>
      cases ds with
      | nil => exact absurd h (by rw [List.compare_cons_nil]; decide)
      | cons d ds =>
          rw [List.compare_cons_cons, Ordering.then_eq_lt] at h
          rw [List.cons_lt_cons_iff]
          rcases h with h | ⟨heq, h⟩
          · exact .inl (compareOfLessAndEq_eq_lt.mp h)
          · exact .inr ⟨Std.LawfulEqOrd.eq_of_compare heq, ih h⟩

/-- Texts are ordered by their characters from the first on. -/
theorem compare_ofList (cs ds : List Char) :
    compare (String.ofList cs) (String.ofList ds) = compare cs ds := by
  have hless {cs ds : List Char} (h : compare cs ds = .lt) :
      compare (String.ofList cs) (String.ofList ds) = .lt := by
    apply compareOfLessAndEq_eq_lt.mpr
    rw [String.lt_iff_toList_lt, String.toList_ofList, String.toList_ofList]
    exact lt_of_compare_eq_lt h
  cases h : compare cs ds with
  | lt => exact hless h
  | eq =>
      rw [Std.LawfulEqOrd.eq_of_compare h]
      exact Std.ReflCmp.compare_self
  | gt =>
      rw [Std.OrientedCmp.gt_iff_lt] at h ⊢
      exact hless h

namespace Text

def AllDigits (cs : List Char) : Prop :=
  ∀ c ∈ cs, c.isDigit

/-- Before a digit there is no sign to be taken off. -/
theorem splitSign_of_isDigit
    {c : Char} (hc : c.isDigit) (rest : List Char) :
    splitSign (c :: rest) = (false, c :: rest) := by
  unfold splitSign
  split
  · next h =>
      obtain ⟨rfl, -⟩ := List.cons.inj h
      exact absurd hc (by decide)
  · next h =>
      obtain ⟨rfl, -⟩ := List.cons.inj h
      exact absurd hc (by decide)
  · rfl

/-! ## Denoted numbers -/

theorem natOfDigits_append (cs ds : List Char) :
    natOfDigits (cs ++ ds) = natOfDigits cs * 10 ^ ds.length + natOfDigits ds := by
  rw [natOfDigits, Nat.ofDigitChars_append, Nat.ofDigitChars_eq_ofDigitChars_zero, Nat.mul_comm]
  rfl

theorem natOfDigits_cons (c : Char) (cs : List Char) :
    natOfDigits (c :: cs) = (c.toNat - 48) * 10 ^ cs.length + natOfDigits cs := by
  have hdigit : natOfDigits [c] = c.toNat - 48 := by
    simp [natOfDigits, Nat.ofDigitChars_cons]
  rw [← hdigit]
  exact natOfDigits_append [c] cs

theorem toNat_of_isDigit
    {c : Char} (hc : c.isDigit) :
    48 ≤ c.toNat ∧ c.toNat ≤ 57 :=
  Char.isDigit_iff_toNat.mp hc

theorem natOfDigits_lt
    {cs : List Char} (hcs : AllDigits cs) :
    natOfDigits cs < 10 ^ cs.length := by
  induction cs with
  | nil => exact Nat.one_pos
  | cons c cs ih =>
      obtain ⟨hc, hrest⟩ := List.forall_mem_cons.mp hcs
      have hdigit : c.toNat - 48 + 1 ≤ 10 := by
        have := toNat_of_isDigit hc
        omega
      calc natOfDigits (c :: cs)
          = (c.toNat - 48) * 10 ^ cs.length + natOfDigits cs := natOfDigits_cons c cs
        _ < (c.toNat - 48) * 10 ^ cs.length + 10 ^ cs.length :=
            Nat.add_lt_add_left (ih hrest) _
        _ = (c.toNat - 48 + 1) * 10 ^ cs.length := (Nat.succ_mul _ _).symm
        _ ≤ 10 * 10 ^ cs.length := Nat.mul_le_mul_right _ hdigit
        _ = 10 ^ (c :: cs).length := by rw [List.length_cons, Nat.pow_succ, Nat.mul_comm]

/-- Runs of digits of one length are ordered as the numbers that they denote. -/
theorem compare_digits
    {cs ds : List Char} (hcs : AllDigits cs) (hds : AllDigits ds) (h : cs.length = ds.length) :
    compare cs ds = compare (natOfDigits cs) (natOfDigits ds) := by
  induction cs generalizing ds with
  | nil =>
      obtain rfl := List.eq_nil_of_length_eq_zero h.symm
      rfl
  | cons c cs ih =>
      cases ds with
      | nil => exact absurd h (Nat.succ_ne_zero _)
      | cons d ds =>
          obtain ⟨hc, hcs⟩ := List.forall_mem_cons.mp hcs
          obtain ⟨hd, hds⟩ := List.forall_mem_cons.mp hds
          have hlength : cs.length = ds.length := Nat.succ.inj h
          have hfirst : compare c d = compare (c.toNat - 48) (d.toNat - 48) := by
            have := toNat_of_isDigit hc
            have := toNat_of_isDigit hd
            rw [compare_char]
            exact compare_congr (by omega) (by omega)
          have hrest := natOfDigits_lt hds
          rw [← hlength] at hrest
          rw [List.compare_cons_cons, ih hcs hds hlength, hfirst, natOfDigits_cons,
            natOfDigits_cons, ← hlength, compare_mul_add (natOfDigits_lt hcs) hrest]

theorem eq_of_natOfDigits_eq
    {cs ds : List Char} (hcs : AllDigits cs) (hds : AllDigits ds) (h : cs.length = ds.length)
    (heq : natOfDigits cs = natOfDigits ds) :
    cs = ds := by
  apply Std.LawfulEqOrd.eq_of_compare
  rw [compare_digits hcs hds h, heq]
  exact Nat.compare_eq_eq.mpr rfl

/-! ## Zeros at the end -/

theorem AllDigits.append
    {cs ds : List Char} (hcs : AllDigits cs) (hds : AllDigits ds) :
    AllDigits (cs ++ ds) := by
  intro c hc
  rcases List.mem_append.mp hc with hc | hc
  · exact hcs c hc
  · exact hds c hc

theorem allDigits_zeros (n : Nat) : AllDigits (List.replicate n '0') := by
  intro c hc
  rw [List.eq_of_mem_replicate hc]
  decide

theorem natOfDigits_zeros (n : Nat) : natOfDigits (List.replicate n '0') = 0 := by
  rw [natOfDigits, Nat.ofDigitChars_replicate_zero, Nat.mul_zero]

/-- No run of digits comes before the zeros of the same length. -/
theorem compare_zeros
    {ds : List Char} (hds : AllDigits ds) {n : Nat} (h : n = ds.length)
    (hne : List.replicate n '0' ≠ ds) :
    compare (List.replicate n '0') ds = .lt := by
  have hlength : (List.replicate n '0').length = ds.length := by rw [List.length_replicate, h]
  have hpos : natOfDigits ds ≠ 0 := by
    intro hzero
    refine hne (eq_of_natOfDigits_eq (allDigits_zeros n) hds hlength ?_)
    rw [natOfDigits_zeros, hzero]
  rw [compare_digits (allDigits_zeros n) hds hlength, natOfDigits_zeros]
  exact Nat.compare_eq_lt.mpr (Nat.pos_of_ne_zero hpos)

/-- Two runs that differ when they are filled up with zeros to one length are ordered as they are
then. -/
theorem compare_append_zeros
    {cs ds : List Char} (hcs : AllDigits cs) (hds : AllDigits ds) {m n : Nat}
    (h : cs.length + m = ds.length + n)
    (hne : cs ++ List.replicate m '0' ≠ ds ++ List.replicate n '0') :
    compare (cs ++ List.replicate m '0') (ds ++ List.replicate n '0') = compare cs ds := by
  induction cs generalizing ds with
  | nil =>
      cases ds with
      | nil =>
          obtain rfl : m = n := by simpa using h
          exact absurd rfl hne
      | cons d ds =>
          rw [List.compare_nil_cons]
          refine compare_zeros (hds.append (allDigits_zeros n)) ?_ hne
          rw [List.length_append, List.length_replicate, ← h, List.length_nil, Nat.zero_add]
  | cons c cs ih =>
      cases ds with
      | nil =>
          rw [List.compare_cons_nil, Std.OrientedCmp.gt_iff_lt]
          refine compare_zeros (hcs.append (allDigits_zeros m)) ?_ hne.symm
          rw [List.length_append, List.length_replicate, h, List.length_nil, Nat.zero_add]
      | cons d ds =>
          obtain ⟨-, hcs⟩ := List.forall_mem_cons.mp hcs
          obtain ⟨-, hds⟩ := List.forall_mem_cons.mp hds
          rw [List.length_cons, List.length_cons] at h
          rw [List.cons_append, List.cons_append, List.compare_cons_cons, List.compare_cons_cons]
          by_cases heq : c = d
          · rw [heq, List.cons_append, List.cons_append, Ne, List.cons_inj_right] at hne
            rw [ih hcs hds (by omega) hne]
          · have hfirst : compare c d ≠ .eq := fun h => heq (Std.LawfulEqOrd.eq_of_compare h)
            cases hfirst' : compare c d with
            | eq => exact absurd hfirst' hfirst
            | lt => rfl
            | gt => rfl

/-! ## Digits of a given width -/

theorem allDigits_paddedDigits (width n : Nat) : AllDigits (paddedDigits width n) := by
  apply AllDigits.append (allDigits_zeros _)
  intro c hc
  exact Nat.isDigit_of_mem_toDigits (by decide) (by decide) hc

theorem natOfDigits_paddedDigits (width n : Nat) : natOfDigits (paddedDigits width n) = n := by
  rw [paddedDigits, natOfDigits_append, natOfDigits_zeros, Nat.zero_mul, Nat.zero_add]
  exact Nat.ofDigitChars_ten_toDigits

theorem width_le_length_paddedDigits (width n : Nat) :
    width ≤ (paddedDigits width n).length := by
  rw [paddedDigits, List.length_append, List.length_replicate]
  omega

theorem length_paddedDigits
    {width n : Nat} (hwidth : 0 < width) (hn : n < 10 ^ width) :
    (paddedDigits width n).length = width := by
  have hdigits : (digitsOf n).length ≤ width :=
    (Nat.length_toDigits_le_iff (by decide) hwidth).mpr hn
  rw [paddedDigits, List.length_append, List.length_replicate]
  omega

theorem compare_paddedDigits
    {width m n : Nat} (hwidth : 0 < width) (hm : m < 10 ^ width) (hn : n < 10 ^ width) :
    compare (paddedDigits width m) (paddedDigits width n) = compare m n := by
  have hlength : (paddedDigits width m).length = (paddedDigits width n).length := by
    rw [length_paddedDigits hwidth hm, length_paddedDigits hwidth hn]
  rw [compare_digits (allDigits_paddedDigits width m) (allDigits_paddedDigits width n) hlength,
    natOfDigits_paddedDigits, natOfDigits_paddedDigits]

/-- Zeros at the end of digits multiply the number. -/
theorem paddedDigits_append_zeros
    {width zeros n : Nat} (hwidth : 0 < width) (hn : n < 10 ^ width) :
    paddedDigits width n ++ List.replicate zeros '0' =
      paddedDigits (width + zeros) (n * 10 ^ zeros) := by
  have hpower : n * 10 ^ zeros < 10 ^ (width + zeros) := by
    rw [Nat.pow_add]
    exact Nat.mul_lt_mul_of_pos_right hn (Nat.pow_pos (by decide))
  apply eq_of_natOfDigits_eq
  · exact (allDigits_paddedDigits width n).append (allDigits_zeros zeros)
  · exact allDigits_paddedDigits _ _
  · rw [List.length_append, List.length_replicate, length_paddedDigits hwidth hn,
      length_paddedDigits (Nat.add_pos_left hwidth zeros) hpower]
  · rw [natOfDigits_append, natOfDigits_paddedDigits, natOfDigits_paddedDigits, natOfDigits_zeros,
      List.length_replicate, Nat.add_zero]

/-! ## Digits of a number -/

theorem allDigits_digitsOf (n : Nat) : AllDigits (digitsOf n) :=
  fun _ hc => Nat.isDigit_of_mem_toDigits (by decide) (by decide) hc

theorem natOfDigits_digitsOf (n : Nat) : natOfDigits (digitsOf n) = n :=
  Nat.ofDigitChars_ten_toDigits

theorem digitsOf_ne_nil (n : Nat) : digitsOf n ≠ [] := by
  intro hnil
  have hlength : 0 < (digitsOf n).length := Nat.length_toDigits_pos
  rw [hnil] at hlength
  exact absurd hlength (by decide)

theorem isDigits_digitsOf (n : Nat) : isDigits (digitsOf n) = true := by
  have hall : ∀ c ∈ digitsOf n, c.isDigit := allDigits_digitsOf n
  simpa [isDigits, digitsOf_ne_nil] using hall

theorem nat?_digitsOf (n : Nat) : nat? (digitsOf n) = some n := by
  unfold nat?
  split
  next rest hplus =>
    have hsign : '+' ∈ digitsOf n := hplus ▸ List.mem_cons_self
    exact absurd (allDigits_digitsOf n '+' hsign) (by decide)
  next => rw [if_pos (isDigits_digitsOf n), natOfDigits_digitsOf]

theorem toList_toString (n : Nat) : (toString n).toList = digitsOf n := by
  rw [Nat.toString_eq_repr, Nat.toList_repr]
  rfl

/-- The text of an integer: the digits of its absolute value, after a minus sign if it is
negative. -/
theorem toList_toString_int (n : Int) :
    (toString n).toList = if n < 0 then '-' :: digitsOf n.natAbs else digitsOf n.natAbs := by
  cases n with
  | ofNat k =>
      have hnonneg : ¬Int.ofNat k < 0 := (Int.natCast_nonneg k).not_gt
      rw [if_neg hnonneg]
      exact toList_toString k
  | negSucc k =>
      have hminus : (toString (Int.negSucc k)).toList = '-' :: (toString (k + 1)).toList := by
        rw [Int.toString_eq_repr, Int.repr, String.toList_append]
        rfl
      rw [if_pos (Int.negSucc_lt_zero k), hminus, toList_toString, Int.natAbs_negSucc]

theorem int?_toString (n : Int) : int? (toString n).toList = some n := by
  have hvalue := natOfDigits_digitsOf n.natAbs
  rw [toList_toString_int]
  split
  next hneg =>
    simp only [int?, splitSign, isDigits_digitsOf, if_true, hvalue]
    congr 1
    omega
  next hnonneg =>
    obtain ⟨c, rest, hdigits⟩ := List.exists_cons_of_ne_nil (digitsOf_ne_nil n.natAbs)
    have hc : c.isDigit := allDigits_digitsOf n.natAbs c (hdigits ▸ List.mem_cons_self)
    have hsign : splitSign (digitsOf n.natAbs) = (false, digitsOf n.natAbs) := by
      rw [hdigits]
      exact splitSign_of_isDigit hc rest
    simp only [int?, hsign, isDigits_digitsOf, if_true, hvalue, Bool.false_eq_true, if_false]
    congr 1
    omega

theorem int64?_toString (n : Int64) : int64? (toString n.toInt).toList = some n := by
  have hfits : Int64.minValue.toInt ≤ n.toInt ∧ n.toInt ≤ Int64.maxValue.toInt :=
    ⟨n.minValue_le_toInt, n.toInt_le⟩
  rw [int64?, int?_toString]
  simp only [if_pos hfits, Int64.ofInt_toInt]

end Text
end Liquid
