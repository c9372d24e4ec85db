import Liquid.Token
import Liquid.Proofs.Trim

/-!
# Written tags and variables

What a tag and what a variable look like, said without the functions that take their parts out, and
that these functions find the parts of just what looks so.
-/

namespace Liquid

open Text

/-- The name of a tag: at least one character, and none that belongs to no name. -/
def IsName (cs : List Char) : Prop :=
  cs ≠ [] ∧ ∀ c ∈ cs, isWordChar c

instance (cs : List Char) : Decidable (IsName cs) :=
  decidable_of_iff (cs ≠ [] ∧ cs.all isWordChar) (by simp [IsName])

/-- A text that is a tag: a name between the opening marker, with blanks after it, and a character
that belongs to no name, and a trimmed markup before the closing marker at the end. -/
def IsTagText (cs name markup : List Char) : Prop :=
  ∃ before between after, AllBlank before ∧ AllBlank between ∧ AllBlank after ∧
    cs = ['{', '%'] ++ before ++ name ++ between ++ markup ++ after ++ ['%', '}'] ∧
    IsName name ∧ (∀ c ∈ (between ++ markup).head?, ¬isWordChar c) ∧ Trimmed markup

/-- A text that is a variable: a trimmed markup between its markers. -/
def IsVariableText (cs markup : List Char) : Prop :=
  ∃ before after, AllBlank before ∧ AllBlank after ∧
    cs = ['{', '{'] ++ before ++ markup ++ after ++ ['}', '}'] ∧ Trimmed markup

namespace Token

def IsTag (t : Token) (name markup : String) : Prop :=
  IsTagText t.text.toList name.toList markup.toList

def IsVariable (t : Token) (markup : String) : Prop :=
  IsVariableText t.text.toList markup.toList

/-! ## Taking the parts out -/

theorem beforeEnd?_eq_some_iff
    {a b : Char} {cs inner : List Char} :
    beforeEnd? a b cs = some inner ↔ cs = inner ++ [a, b] := by
  have hrev : cs = inner ++ [a, b] ↔ cs.reverse = b :: a :: inner.reverse := by
    rw [← List.reverse_inj]
    simp
  rw [hrev]
  unfold beforeEnd?
  split
  · next y x rest h =>
      rw [h]
      by_cases hxy : x = a ∧ y = b
      · obtain ⟨rfl, rfl⟩ := hxy
        simp [List.reverse_eq_iff]
      · have hyx : ¬(y = b ∧ x = a ∧ rest = inner.reverse) := fun hall => hxy ⟨hall.2.1, hall.1⟩
        simp [hxy, hyx]
  · next h =>
      have hne : cs.reverse ≠ b :: a :: inner.reverse := h b a inner.reverse
      simp [hne]

/-- The name of a tag is the longest that can be read after the blanks. -/
theorem name_eq_takeWhile
    {before name tail : List Char} (hbefore : AllBlank before) (hname : IsName name)
    (htail : ∀ c ∈ tail.head?, ¬isWordChar c) :
    let content := (before ++ name ++ tail).dropWhile isBlank
    content.takeWhile isWordChar = name ∧ content.dropWhile isWordChar = tail := by
  have hhead : ∀ c ∈ (name ++ tail).head?, ¬isBlank c := by
    intro c hc hblank
    cases name with
    | nil => exact hname.1 rfl
    | cons d rest =>
        obtain rfl : d = c := by simpa using hc
        have hword : isWordChar d := hname.2 d List.mem_cons_self
        simp [not_isWordChar_of_isBlank hblank] at hword
  have hcontent : (before ++ name ++ tail).dropWhile isBlank = name ++ tail := by
    rw [List.append_assoc]
    exact dropWhile_isBlank_append hbefore hhead
  have hstop : tail.takeWhile isWordChar = [] ∧ tail.dropWhile isWordChar = tail := by
    cases tail with
    | nil => exact ⟨rfl, rfl⟩
    | cons d rest =>
        have hd : ¬isWordChar d := htail d rfl
        exact ⟨List.takeWhile_cons_of_neg hd, List.dropWhile_cons_of_neg hd⟩
  intro content
  change (List.dropWhile isBlank _).takeWhile isWordChar = _ ∧ _
  rw [hcontent, List.takeWhile_append_of_pos hname.2, hstop.1, List.append_nil]
  refine ⟨rfl, ?_⟩
  change (List.dropWhile isBlank _).dropWhile isWordChar = _
  rw [hcontent, List.dropWhile_append_of_pos hname.2, hstop.2]

theorem tagParts?_of_isTagText
    {cs name markup : List Char} (h : IsTagText cs name markup) :
    tagParts? cs = some (name, markup) := by
  obtain ⟨before, between, after, hbefore, hbetween, hafter, rfl, hname, hmax, htrim⟩ := h
  have hinner : beforeEnd? '%' '}'
      (before ++ name ++ between ++ markup ++ after ++ ['%', '}']) =
        some (before ++ name ++ (between ++ markup ++ after)) := by
    rw [beforeEnd?_eq_some_iff]
    simp
  have htail : ∀ c ∈ (between ++ markup ++ after).head?, ¬isWordChar c := by
    intro c hc
    rw [List.head?_append] at hc
    cases hfirst : (between ++ markup).head? with
    | some d =>
        obtain rfl : d = c := by simpa [hfirst] using hc
        exact hmax d hfirst
    | none =>
        have hc' : c ∈ after := List.mem_of_mem_head? (by simpa [hfirst] using hc)
        simp [not_isWordChar_of_isBlank (hafter c hc')]
  obtain ⟨hparts, hrest⟩ := name_eq_takeWhile hbefore hname htail
  simp only [tagParts?, List.cons_append, List.nil_append, hinner, hparts, hrest,
    trimChars_append hbetween hafter htrim]
  simp [hname.1]

theorem isTagText_of_tagParts?
    {cs name markup : List Char} (h : tagParts? cs = some (name, markup)) :
    IsTagText cs name markup := by
  unfold tagParts? at h
  split at h
  · next rest =>
      split at h
      · next inner hinner =>
          simp only [Option.ite_none_left_eq_some, Option.some.injEq, Prod.mk.injEq,
            List.isEmpty_iff] at h
          obtain ⟨hne, rfl, rfl⟩ := h
          let content := inner.dropWhile isBlank
          let tail := content.dropWhile isWordChar
          obtain ⟨between, after, hbetween, hafter, htail, htrim⟩ := exists_eq_append_trimChars tail
          have hsplit : inner.takeWhile isBlank ++
              (content.takeWhile isWordChar ++ (between ++ trimChars tail ++ after)) = inner := by
            rw [← htail, List.takeWhile_append_dropWhile, List.takeWhile_append_dropWhile]
          have hrest : rest = inner.takeWhile isBlank ++
              (content.takeWhile isWordChar ++ (between ++ trimChars tail ++ after)) ++
                ['%', '}'] := by
            rw [hsplit]
            exact beforeEnd?_eq_some_iff.mp hinner
          have hbefore : AllBlank (inner.takeWhile isBlank) := fun c hc => List.mem_takeWhile_imp hc
          refine ⟨inner.takeWhile isBlank, between, after, hbefore, hbetween, hafter, ?_,
            ⟨hne, fun c hc => List.mem_takeWhile_imp hc⟩, ?_, htrim⟩
          · rw [hrest]
            simp only [List.append_assoc, List.cons_append, List.nil_append]
            rfl
          · intro c hc
            have hhead : c ∈ tail.head? := by
              rw [htail, List.head?_append, Option.mem_def.mp hc]
              rfl
            exact not_of_mem_head?_dropWhile hhead
      · exact absurd h (by simp)
  · exact absurd h (by simp)

/-- The parts of a tag are found in just the texts that are tags. -/
theorem tag?_eq_some_iff
    {t : Token} {name markup : String} :
    t.tag? = some (name, markup) ↔ t.IsTag name markup := by
  constructor
  · intro h
    obtain ⟨parts, hparts, heq⟩ := Option.map_eq_some_iff.mp h
    simp only [Prod.mk.injEq] at heq
    obtain ⟨rfl, rfl⟩ := heq
    simpa [IsTag] using isTagText_of_tagParts? hparts
  · intro h
    simp [tag?, tagParts?_of_isTagText h]

theorem variableContent?_eq_some_iff
    {cs markup : List Char} :
    variableContent? cs = some markup ↔ IsVariableText cs markup := by
  constructor
  · intro h
    unfold variableContent? at h
    split at h
    · next rest =>
        obtain ⟨inner, hinner, rfl⟩ := Option.map_eq_some_iff.mp h
        obtain ⟨before, after, hbefore, hafter, hsplit, htrim⟩ := exists_eq_append_trimChars inner
        refine ⟨before, after, hbefore, hafter, ?_, htrim⟩
        have hrest : rest = before ++ trimChars inner ++ after ++ ['}', '}'] := by
          rw [← hsplit]
          exact beforeEnd?_eq_some_iff.mp hinner
        rw [hrest]
        simp
    · exact absurd h (by simp)
  · rintro ⟨before, after, hbefore, hafter, rfl, htrim⟩
    have hinner : beforeEnd? '}' '}' (before ++ markup ++ after ++ ['}', '}']) =
        some (before ++ markup ++ after) :=
      beforeEnd?_eq_some_iff.mpr rfl
    simp only [variableContent?, List.cons_append, List.nil_append, hinner, Option.map_some,
      trimChars_append hbefore hafter htrim]

/-- The markup of a variable is found in just the texts that are variables. -/
theorem expression?_eq_some_iff
    {t : Token} {markup : String} :
    t.expression? = some markup ↔ t.IsVariable markup := by
  rw [IsVariable, ← variableContent?_eq_some_iff, expression?, Option.map_eq_some_iff]
  constructor
  · rintro ⟨content, hcontent, rfl⟩
    simpa using hcontent
  · intro h
    exact ⟨markup.toList, h, by simp⟩

/-! ## Tags and variables as kinds of token -/

theorem IsTag.kind
    {t : Token} {name markup : String} (h : t.IsTag name markup) :
    t.kind = .tag := by
  obtain ⟨before, between, after, -, -, -, htext, -⟩ := h
  simp [Token.kind, htext, TokenKind.ofChars]

theorem IsTag.trimmed
    {t : Token} {name markup : String} (h : t.IsTag name markup) :
    Trimmed markup.toList := by
  obtain ⟨_, _, _, -, -, -, -, -, -, htrim⟩ := h
  exact htrim

theorem IsVariable.kind
    {t : Token} {markup : String} (h : t.IsVariable markup) :
    t.kind = .variable := by
  obtain ⟨before, after, -, -, htext, -⟩ := h
  simp [Token.kind, htext, TokenKind.ofChars]

end Token
end Liquid
