import Liquid.Text.Blank
import Liquid.Text.Word
import Mathlib.Data.List.TakeWhile

/-!
# Blanks around a text

Trimming takes off the outer blanks and nothing else, and no blank belongs to the name of a tag.
-/

namespace Liquid
namespace Text

def AllBlank (cs : List Char) : Prop :=
  ∀ c ∈ cs, isBlank c

/-- Neither the first nor the last character is blank. -/
def Trimmed (cs : List Char) : Prop :=
  (∀ c ∈ cs.head?, ¬isBlank c) ∧ ∀ c ∈ cs.getLast?, ¬isBlank c

instance (cs : List Char) : Decidable (AllBlank cs) :=
  decidable_of_iff (cs.all isBlank) List.all_eq_true

instance (cs : List Char) : Decidable (Trimmed cs) :=
  decidable_of_iff (cs.head?.all (!isBlank ·) ∧ cs.getLast?.all (!isBlank ·))
    (by simp [Trimmed, Option.all_eq_true])

theorem not_of_mem_head?_dropWhile
    {p : Char → Bool} {cs : List Char} {c : Char} (hc : c ∈ (cs.dropWhile p).head?) :
    ¬p c := by
  have h := List.head?_dropWhile_not p cs
  rw [Option.mem_def.mp hc] at h
  simpa using h

def blankNumbers : List Nat :=
  [0x09, 0x0A, 0x0B, 0x0C, 0x0D, 0x20, 0x85, 0xA0, 0x1680, 0x2000, 0x2001, 0x2002, 0x2003, 0x2004,
    0x2005, 0x2006, 0x2007, 0x2008, 0x2009, 0x200A, 0x2028, 0x2029, 0x202F, 0x205F, 0x3000]

theorem toNat_mem_blankNumbers
    {c : Char} (hc : isBlank c) :
    c.toNat ∈ blankNumbers := by
  have hspace : c = ' ' ↔ c.toNat = 0x20 := Char.toNat_inj.symm
  simp only [isBlank, Bool.or_eq_true, Bool.and_eq_true, decide_eq_true_eq, beq_iff_eq,
    hspace] at hc
  simp only [blankNumbers, List.mem_cons, List.not_mem_nil, or_false]
  omega

theorem not_mem_wordRanges
    {n : Nat} (hn : n ∈ blankNumbers) :
    inRanges wordRanges n = false := by
  have hall : ∀ n ∈ blankNumbers,
      wordRanges.toList.any (fun r => r.1 ≤ n && n ≤ r.2) = false := by
    decide +kernel
  rw [inRanges, ← Array.any_toList]
  exact hall n hn

theorem not_isWordChar_of_isBlank
    {c : Char} (hc : isBlank c) :
    isWordChar c = false := by
  have hn := toNat_mem_blankNumbers hc
  have hascii : ∀ n ∈ blankNumbers, n < 128 →
      ((Char.ofNat n).isAlphanum || Char.ofNat n == '_') = false := by
    decide
  unfold isWordChar
  split
  · next hlt =>
      have h := hascii c.toNat hn hlt
      rwa [Char.ofNat_toNat] at h
  · exact not_mem_wordRanges hn

theorem AllBlank.append
    {l r : List Char} (hl : AllBlank l) (hr : AllBlank r) :
    AllBlank (l ++ r) := by
  intro c hc
  rcases List.mem_append.mp hc with hc | hc
  · exact hl c hc
  · exact hr c hc

theorem AllBlank.reverse
    {l : List Char} (hl : AllBlank l) :
    AllBlank l.reverse := by
  intro c hc
  exact hl c (List.mem_reverse.mp hc)

theorem dropWhile_isBlank_of_head
    {cs : List Char} (hcs : ∀ c ∈ cs.head?, ¬isBlank c) :
    cs.dropWhile isBlank = cs := by
  cases cs with
  | nil => rfl
  | cons c rest => exact List.dropWhile_cons_of_neg (hcs c rfl)

theorem dropWhile_isBlank_append
    {l : List Char} (hl : AllBlank l) {cs : List Char} (hcs : ∀ c ∈ cs.head?, ¬isBlank c) :
    (l ++ cs).dropWhile isBlank = cs := by
  rw [List.dropWhile_append_of_pos hl, dropWhile_isBlank_of_head hcs]

theorem trimChars_allBlank
    {l : List Char} (hl : AllBlank l) :
    trimChars l = [] := by
  have h : (l ++ []).dropWhile isBlank = [] := List.dropWhile_append_of_pos hl
  rw [List.append_nil] at h
  simp [trimChars, h]

/-- A trimmed text is found between any blanks. -/
theorem trimChars_append
    {l cs r : List Char} (hl : AllBlank l) (hr : AllBlank r) (hcs : Trimmed cs) :
    trimChars (l ++ cs ++ r) = cs := by
  cases cs with
  | nil =>
      rw [List.append_nil]
      exact trimChars_allBlank (hl.append hr)
  | cons c rest =>
      have hfront : (l ++ (c :: rest) ++ r).dropWhile isBlank = (c :: rest) ++ r := by
        rw [List.append_assoc]
        exact dropWhile_isBlank_append hl hcs.1
      have hback : ((c :: rest) ++ r).reverse.dropWhile isBlank = (c :: rest).reverse := by
        rw [List.reverse_append]
        apply dropWhile_isBlank_append hr.reverse
        rw [List.head?_reverse]
        exact hcs.2
      rw [trimChars, hfront, hback, List.reverse_reverse]

theorem trim_of_trimmed
    {s : String} (hs : Trimmed s.toList) :
    trim s = s := by
  have hnone : AllBlank [] := List.forall_mem_nil _
  have htrim := trimChars_append hnone hnone hs
  rw [List.nil_append, List.append_nil] at htrim
  rw [trim, htrim, String.ofList_toList]

/-- Nothing but blanks is taken off, and none is left at the ends. -/
theorem exists_eq_append_trimChars (cs : List Char) :
    ∃ l r, AllBlank l ∧ AllBlank r ∧ cs = l ++ trimChars cs ++ r ∧ Trimmed (trimChars cs) := by
  let front := cs.dropWhile isBlank
  have htake (l : List Char) : AllBlank (l.takeWhile isBlank) := fun c hc => List.mem_takeWhile_imp hc
  have hback : front = trimChars cs ++ (front.reverse.takeWhile isBlank).reverse := by
    rw [trimChars, ← List.reverse_append, List.takeWhile_append_dropWhile, List.reverse_reverse]
  refine ⟨cs.takeWhile isBlank, (front.reverse.takeWhile isBlank).reverse, htake cs,
    (htake front.reverse).reverse, ?_, ?_, ?_⟩
  · rw [List.append_assoc, ← hback, List.takeWhile_append_dropWhile]
  · intro c hc
    have hfront : c ∈ front.head? := by
      rw [hback, List.head?_append, Option.mem_def.mp hc]
      rfl
    exact not_of_mem_head?_dropWhile hfront
  · intro c hc
    rw [trimChars, List.getLast?_reverse] at hc
    exact not_of_mem_head?_dropWhile hc

end Text
end Liquid
