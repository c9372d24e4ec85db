import Liquid.Condition
import Liquid.Proofs.Trim

/-!
# What a condition looks at

A condition looks at a context only to evaluate the operands of its tests.  Where these have the same
values, or fail alike, so does the condition.
-/

namespace Liquid
namespace Condition

/-- The operands of a test that are evaluated; the operator is not, and a test that is malformed
evaluates none. -/
def testOperands : List String → List String
  | [operand] => [operand]
  | [left, _, right] => [left, right]
  | _ => []

/-- The operands that a condition may evaluate, in order. -/
def mentions (s : String) : List String :=
  (alternatives s).flatten.flatMap testOperands

theorem mem_mentions_iff
    {s operand : String} :
    operand ∈ mentions s ↔
      ∃ alternative ∈ alternatives s, ∃ test ∈ alternative, operand ∈ testOperands test := by
  simp only [mentions, List.mem_flatMap, List.mem_flatten]
  constructor
  · rintro ⟨test, ⟨alternative, halternative, htest⟩, hoperand⟩
    exact ⟨alternative, halternative, test, htest, hoperand⟩
  · rintro ⟨alternative, halternative, test, htest, hoperand⟩
    exact ⟨test, ⟨alternative, halternative, htest⟩, hoperand⟩

/-! ## Contexts in which the operands come to the same -/

section

variable {ctx ctx' : Context}

theorem evalTest_congr
    {test : List String}
    (h : ∀ operand ∈ testOperands test, ctx.evaluate operand = ctx'.evaluate operand) :
    evalTest ctx test = evalTest ctx' test := by
  unfold evalTest
  split
  · next operand => rw [h operand List.mem_cons_self]
  · next left op right =>
      have hleft := h left List.mem_cons_self
      have hright := h right (List.mem_cons_of_mem left List.mem_cons_self)
      rw [hleft, hright]
  · rfl

theorem evalAll_congr
    {tests : List (List String)}
    (h : ∀ test ∈ tests, ∀ operand ∈ testOperands test,
      ctx.evaluate operand = ctx'.evaluate operand) :
    evalAll ctx tests = evalAll ctx' tests := by
  induction tests with
  | nil => rfl
  | cons test rest ih =>
      have htest := evalTest_congr (h test List.mem_cons_self)
      have hrest := ih fun other hother => h other (List.mem_cons_of_mem test hother)
      simp only [evalAll, htest, hrest]

theorem evalAny_congr
    {tests : List (List (List String))}
    (h : ∀ alternative ∈ tests, ∀ test ∈ alternative, ∀ operand ∈ testOperands test,
      ctx.evaluate operand = ctx'.evaluate operand) :
    evalAny ctx tests = evalAny ctx' tests := by
  induction tests with
  | nil => rfl
  | cons alternative rest ih =>
      have halternative := evalAll_congr (h alternative List.mem_cons_self)
      have hrest := ih fun other hother => h other (List.mem_cons_of_mem alternative hother)
      simp only [evalAny, halternative, hrest]

/-- The outcome of a condition follows from those of the operands that it mentions. -/
theorem eval_congr
    {s : String} (h : ∀ operand ∈ mentions s, ctx.evaluate operand = ctx'.evaluate operand) :
    eval ctx s = eval ctx' s := by
  apply evalAny_congr
  intro alternative halternative test htest operand hoperand
  exact h operand (mem_mentions_iff.mpr ⟨alternative, halternative, test, htest, hoperand⟩)

end

/-! ## Operands as parts of the condition -/

/-- What stands in a part of a list that is split stands in the list. -/
theorem mem_of_mem_splitOn
    {α : Type} [BEq α] {sep a : α} {part l : List α} (hpart : part ∈ l.splitOn sep)
    (ha : a ∈ part) :
    a ∈ l := by
  unfold List.splitOn at hpart
  induction l generalizing part with
  | nil =>
      rw [List.splitOnP_nil, List.mem_singleton] at hpart
      rwa [hpart] at ha
  | cons x rest ih =>
      rw [List.splitOnP_cons_eq_if_modifyHead] at hpart
      split at hpart
      · rcases List.mem_cons.mp hpart with rfl | hpart
        · exact absurd ha List.not_mem_nil
        · exact List.mem_cons_of_mem x (ih hpart ha)
      · obtain ⟨first, others, hparts⟩ := List.exists_cons_of_ne_nil
          (List.splitOnP_ne_nil (· == sep) rest)
        rw [hparts] at hpart ih
        rcases List.mem_cons.mp hpart with rfl | hpart
        · rcases List.mem_cons.mp ha with rfl | ha
          · exact List.mem_cons_self
          · exact List.mem_cons_of_mem x (ih List.mem_cons_self ha)
        · exact List.mem_cons_of_mem x (ih (List.mem_cons_of_mem first hpart) ha)

theorem mem_of_mem_testOperands
    {test : List String} {operand : String} (h : operand ∈ testOperands test) :
    operand ∈ test := by
  unfold testOperands at h
  split at h
  · exact h
  · next left op right =>
      rcases List.mem_cons.mp h with rfl | h
      · exact List.mem_cons_self
      · exact List.mem_cons_of_mem left (List.mem_cons_of_mem op h)
  · exact absurd h List.not_mem_nil

theorem mem_operands_of_mem_mentions
    {s operand : String} (h : operand ∈ mentions s) :
    operand ∈ operands s := by
  obtain ⟨alternative, halternative, test, htest, hoperand⟩ := mem_mentions_iff.mp h
  obtain ⟨part, hpart, rfl⟩ := List.mem_map.mp halternative
  exact mem_of_mem_splitOn hpart (mem_of_mem_splitOn htest (mem_of_mem_testOperands hoperand))

/-- An operand starts with the character at which it is taken and has no blank at its end. -/
theorem trimmed_takeOperand
    {c : Char} (hc : ¬Text.isBlank c) (rest : List Char) :
    Text.Trimmed (takeOperand c rest).1 := by
  unfold takeOperand
  split
  · constructor
    · intro d hd
      obtain rfl : c = d := by simpa using hd
      exact hc
    · intro d hd
      simp only [List.getLast?_concat] at hd
      obtain rfl : c = d := Option.some.inj hd
      exact hc
  · constructor
    · intro d hd
      obtain rfl : c = d := by simpa using hd
      exact hc
    · intro d hd
      have hmem : d ∈ c :: rest.takeWhile (!Text.isBlank ·) := List.mem_of_getLast? hd
      rcases List.mem_cons.mp hmem with rfl | hmem
      · exact hc
      · simpa using List.mem_takeWhile_imp hmem

theorem trimmed_of_mem_operandsOf
    {cs operand : List Char} (h : operand ∈ operandsOf cs) :
    Text.Trimmed operand := by
  induction cs using operandsOf.induct with
  | case1 cs hcs =>
      rw [operandsOf] at h
      split at h
      · exact absurd h List.not_mem_nil
      · next c rest hne => exact absurd (hcs.symm.trans hne) (by simp)
  | case2 cs c rest hcs ih =>
      have hhead : c ∈ (cs.dropWhile Text.isBlank).head? := by
        rw [hcs]
        exact Option.mem_some_self c
      have hc : ¬Text.isBlank c := Text.not_of_mem_head?_dropWhile hhead
      rw [operandsOf] at h
      split at h
      · exact absurd h List.not_mem_nil
      · next d others hd =>
          obtain ⟨rfl, rfl⟩ := List.cons.inj (hcs.symm.trans hd)
          rcases List.mem_cons.mp h with rfl | h
          · exact trimmed_takeOperand hc rest
          · exact ih h

/-- The operands of a condition have no blanks around them. -/
theorem trim_of_mem_mentions
    {s operand : String} (h : operand ∈ mentions s) :
    Text.trim operand = operand := by
  obtain ⟨chars, hchars, rfl⟩ := List.mem_map.mp (mem_operands_of_mem_mentions h)
  apply Text.trim_of_trimmed
  rw [String.toList_ofList]
  exact trimmed_of_mem_operandsOf hchars

end Condition
end Liquid
