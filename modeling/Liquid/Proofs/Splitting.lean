import Liquid.Source

/-!
# The pieces of a template

Splitting a template loses nothing, and the line of a token is one more than the number of line
breaks before it.
-/

namespace Liquid
namespace Source

theorem untilMarker_eq_of_none
    {cs t : List Char} (h : untilMarker cs = (t, none)) :
    t = cs := by
  induction cs generalizing t with
  | nil =>
      obtain ⟨rfl, -⟩ := Prod.mk.inj h
      rfl
  | cons c rest ih =>
      rw [untilMarker] at h
      split at h
      · exact absurd (Prod.mk.inj h).2 (by simp)
      · obtain ⟨rfl, hnone⟩ := Prod.mk.inj h
        exact congrArg (c :: ·) (ih (Prod.ext rfl hnone))

theorem flatten_pieces (cs : List Char) : (pieces cs).flatten = cs := by
  fun_induction pieces cs with
  | case1 cs t h => simp [untilMarker_eq_of_none h]
  | case2 cs t m rest h ih =>
      have hsplit := (append_of_untilMarker h).1
      simpa [ih] using hsplit

theorem flatten_dropEmptyFirst (l : List (List Char)) :
    (dropEmptyFirst l).flatten = l.flatten := by
  unfold dropEmptyFirst
  split
  · simp
  · rfl

theorem flatten_dropEmptyLast (l : List (List Char)) :
    (dropEmptyLast l).flatten = l.flatten := by
  unfold dropEmptyLast
  split
  · next h =>
      obtain ⟨front, rfl⟩ := List.getLast?_eq_some_iff.mp h
      simp
  · rfl

/-- The tokens of a template make up the template. -/
theorem flatten_tokenTexts (cs : List Char) : (tokenTexts cs).flatten = cs := by
  rw [tokenTexts, flatten_dropEmptyLast, flatten_dropEmptyFirst, flatten_pieces]

theorem line_of_mem_withLines
    {first : Nat} {texts : List (List Char)} {t : Token} (ht : t ∈ withLines first texts) :
    first ≤ t.line ∧ t.line ≤ first + texts.flatten.count '\n' := by
  induction texts generalizing first with
  | nil => exact absurd ht List.not_mem_nil
  | cons cs rest ih =>
      rw [List.flatten_cons, List.count_append]
      rcases List.mem_cons.mp ht with rfl | ht
      · constructor
        · exact Nat.le_refl first
        · exact Nat.le_add_right _ _
      · have hline := ih ht
        omega

/-- The line of a token is one of the lines of the template. -/
theorem line_of_mem_tokens
    {source : String} {t : Token} (ht : t ∈ tokens source) :
    1 ≤ t.line ∧ t.line ≤ 1 + source.toList.count '\n' := by
  have hline := line_of_mem_withLines ht
  rwa [flatten_tokenTexts] at hline

end Source
end Liquid
