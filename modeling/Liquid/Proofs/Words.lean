import Liquid.Proofs.Trim

/-!
# Words of a text

The words of a text are the runs of characters between its blanks.
-/

namespace Liquid
namespace Text

/-- A word: at least one character, and no blank. -/
def IsWord (cs : List Char) : Prop :=
  cs ≠ [] ∧ ∀ c ∈ cs, ¬isBlank c

instance (cs : List Char) : Decidable (IsWord cs) :=
  decidable_of_iff (cs ≠ [] ∧ cs.all (!isBlank ·)) (by simp [IsWord])

/-- A word ends where these characters follow: at a blank, or at the end of the text. -/
def EndsWord (rest : List Char) : Prop :=
  ∀ c ∈ rest.head?, isBlank c

theorem wordsOf_nil : wordsOf [] = [] :=
  rfl

theorem wordsOf_cons_blank
    {c : Char} (hc : isBlank c) (cs : List Char) :
    wordsOf (c :: cs) = wordsOf cs := by
  simp [wordsOf, extendWords, hc, consWord]

theorem wordsOf_blanks_append
    {l : List Char} (hl : AllBlank l) (cs : List Char) :
    wordsOf (l ++ cs) = wordsOf cs := by
  induction l with
  | nil => rfl
  | cons c rest ih =>
      have hc : isBlank c := hl c List.mem_cons_self
      rw [List.cons_append, wordsOf_cons_blank hc]
      exact ih fun d hd => hl d (List.mem_cons_of_mem c hd)

/-- Where a word ends, no part of a word is left over. -/
theorem scan_of_endsWord
    {rest : List Char} (hrest : EndsWord rest) :
    rest.foldr extendWords ([], []) = ([], wordsOf rest) := by
  cases rest with
  | nil => rfl
  | cons c rest =>
      have hc : isBlank c := hrest c rfl
      rw [wordsOf_cons_blank hc, List.foldr_cons, extendWords, if_pos hc]
      rfl

/-- A word is read as the first word. -/
theorem wordsOf_word_append
    {w rest : List Char} (hw : IsWord w) (hrest : EndsWord rest) :
    wordsOf (w ++ rest) = w :: wordsOf rest := by
  have hscan : ∀ v : List Char, (∀ c ∈ v, ¬isBlank c) →
      (v ++ rest).foldr extendWords ([], []) = (v, wordsOf rest) := by
    intro v hv
    induction v with
    | nil => exact scan_of_endsWord hrest
    | cons c v ih =>
        have hc : ¬isBlank c := hv c List.mem_cons_self
        have hv' : ∀ d ∈ v, ¬isBlank d := fun d hd => hv d (List.mem_cons_of_mem c hd)
        rw [List.cons_append, List.foldr_cons, ih hv', extendWords, if_neg hc]
  have hne : w.isEmpty = false := by simp [hw.1]
  simp [wordsOf, hscan w hw.2, consWord, hne]

theorem exists_first_word (cs : List Char) :
    AllBlank cs ∨ ∃ l w rest, AllBlank l ∧ IsWord w ∧ EndsWord rest ∧ cs = l ++ w ++ rest := by
  let tail := cs.dropWhile isBlank
  have hsplit : cs = cs.takeWhile isBlank ++ tail := List.takeWhile_append_dropWhile.symm
  have hblank : AllBlank (cs.takeWhile isBlank) := fun c hc => List.mem_takeWhile_imp hc
  cases htail : tail with
  | nil =>
      rw [htail, List.append_nil] at hsplit
      rw [hsplit]
      exact .inl hblank
  | cons c rest =>
      let word := tail.takeWhile (!isBlank ·)
      have hhead : c ∈ (cs.dropWhile isBlank).head? := by
        change c ∈ tail.head?
        simp [htail]
      have hc : ¬isBlank c := not_of_mem_head?_dropWhile hhead
      have hword : IsWord word := by
        constructor
        · simp [word, htail, hc]
        · intro d hd
          simpa using List.mem_takeWhile_imp hd
      refine .inr ⟨cs.takeWhile isBlank, word, tail.dropWhile (!isBlank ·), hblank, hword, ?_, ?_⟩
      · intro d hd
        simpa using not_of_mem_head?_dropWhile hd
      · rw [List.append_assoc, List.takeWhile_append_dropWhile]
        exact hsplit

theorem allBlank_of_wordsOf
    {cs : List Char} (h : wordsOf cs = []) :
    AllBlank cs := by
  rcases exists_first_word cs with hblank | ⟨l, w, rest, hl, hw, hrest, rfl⟩
  · exact hblank
  · rw [List.append_assoc, wordsOf_blanks_append hl, wordsOf_word_append hw hrest] at h
    exact absurd h (by simp)

/-- The first word of a text stands after blanks, and ends at a blank or with the text. -/
theorem exists_of_wordsOf_cons
    {cs w : List Char} {ws : List (List Char)} (h : wordsOf cs = w :: ws) :
    ∃ l rest, AllBlank l ∧ IsWord w ∧ EndsWord rest ∧ wordsOf rest = ws ∧ cs = l ++ w ++ rest := by
  rcases exists_first_word cs with hblank | ⟨l, v, rest, hl, hv, hrest, rfl⟩
  · have hnone := wordsOf_blanks_append hblank []
    rw [List.append_nil, h] at hnone
    exact absurd hnone (by simp [wordsOf_nil])
  · rw [List.append_assoc, wordsOf_blanks_append hl, wordsOf_word_append hv hrest] at h
    obtain ⟨rfl, rfl⟩ := List.cons.inj h
    exact ⟨l, rest, hl, hv, hrest, rfl, rfl⟩

/-! ## Three words -/

theorem endsWord_append
    {l : List Char} (hl : AllBlank l) (hne : l ≠ []) (rest : List Char) :
    EndsWord (l ++ rest) := by
  cases l with
  | nil => exact absurd rfl hne
  | cons c l =>
      intro d hd
      obtain rfl : c = d := by simpa using hd
      exact hl c List.mem_cons_self

theorem ne_nil_of_endsWord
    {l w rest : List Char} (hw : IsWord w) (h : EndsWord (l ++ w ++ rest)) :
    l ≠ [] := by
  rintro rfl
  cases w with
  | nil => exact hw.1 rfl
  | cons c w => exact hw.2 c List.mem_cons_self (h c rfl)

theorem eq_nil_of_trimmed_append
    {l r cs : List Char} (hl : AllBlank l) (hr : AllBlank r) (h : Trimmed (l ++ cs ++ r)) :
    l = [] ∧ r = [] := by
  constructor
  · cases l with
    | nil => rfl
    | cons c l => exact absurd (hl c List.mem_cons_self) (h.1 c rfl)
  · apply Classical.byContradiction
    intro hne
    have hlast : r.getLast hne ∈ (l ++ cs ++ r).getLast? := by
      simp [List.getLast?_eq_some_getLast hne]
    exact h.2 _ hlast (hr _ (List.getLast_mem hne))

/-- A trimmed text consists of three words if they stand in it with blanks between each two. -/
theorem wordsOf_eq_three_iff
    {cs a b c : List Char} (hcs : Trimmed cs) :
    wordsOf cs = [a, b, c] ↔
      IsWord a ∧ IsWord b ∧ IsWord c ∧ ∃ l r, AllBlank l ∧ l ≠ [] ∧ AllBlank r ∧ r ≠ [] ∧
        cs = a ++ l ++ b ++ r ++ c := by
  constructor
  · intro h
    obtain ⟨front, afterA, hfront, ha, hafterA, hwords, hsplitA⟩ := exists_of_wordsOf_cons h
    obtain ⟨l, afterB, hl, hb, hafterB, hwords', hsplitB⟩ := exists_of_wordsOf_cons hwords
    obtain ⟨r, back, hr, hc, -, hnone, hsplitC⟩ := exists_of_wordsOf_cons hwords'
    subst hsplitC hsplitB hsplitA
    have htrimmed : Trimmed (front ++ (a ++ l ++ b ++ r ++ c) ++ back) := by simpa using hcs
    obtain ⟨rfl, rfl⟩ := eq_nil_of_trimmed_append hfront (allBlank_of_wordsOf hnone) htrimmed
    refine ⟨ha, hb, hc, l, r, hl, ne_nil_of_endsWord hb hafterA, hr, ne_nil_of_endsWord hc hafterB,
      ?_⟩
    simp
  · rintro ⟨ha, hb, hc, l, r, hl, hlne, hr, hrne, rfl⟩
    have hlast : wordsOf c = [c] := by
      have h := @wordsOf_word_append c [] hc (by simp [EndsWord])
      rwa [List.append_nil] at h
    simp only [List.append_assoc]
    rw [wordsOf_word_append ha (endsWord_append hl hlne _), wordsOf_blanks_append hl,
      wordsOf_word_append hb (endsWord_append hr hrne _), wordsOf_blanks_append hr, hlast]

end Text
end Liquid
