import Liquid.Source

/-!
# Templates put together from pieces

Where texts and closed markers are put together so that no two texts touch, splitting gives them
back.
-/

namespace Liquid

namespace Text

/-- The second character never stands directly after the first. -/
def Avoids (a b : Char) (cs : List Char) : Prop :=
  ¬[a, b] <:+: cs

theorem avoids_nil (a b : Char) : Avoids a b [] := by
  intro h
  exact absurd (List.infix_nil.mp h) (by simp)

theorem avoids_cons_iff
    {a b c : Char} {cs : List Char} :
    Avoids a b (c :: cs) ↔ ¬(c = a ∧ b ∈ cs.head?) ∧ Avoids a b cs := by
  have hpair : [a, b] <+: c :: cs ↔ c = a ∧ b ∈ cs.head? := by
    rw [List.cons_prefix_cons, eq_comm]
    cases cs with
    | nil => simp
    | cons d rest => simp [List.cons_prefix_cons, eq_comm]
  rw [Avoids, List.infix_cons_iff, hpair, not_or]
  exact Iff.rfl

instance decidableAvoids (a b : Char) : (cs : List Char) → Decidable (Avoids a b cs)
  | [] => isTrue (avoids_nil a b)
  | _ :: cs =>
    have := decidableAvoids a b cs
    decidable_of_iff _ avoids_cons_iff.symm

theorem Avoids.append
    {a b : Char} {l r : List Char} (hl : Avoids a b l) (hr : Avoids a b r)
    (hborder : ¬(a ∈ l.getLast? ∧ b ∈ r.head?)) :
    Avoids a b (l ++ r) := by
  induction l with
  | nil => exact hr
  | cons c l ih =>
      obtain ⟨hfirst, hrest⟩ := avoids_cons_iff.mp hl
      rw [List.cons_append, avoids_cons_iff]
      cases l with
      | nil =>
          refine ⟨?_, hr⟩
          intro h
          exact hborder ⟨by simp [h.1], h.2⟩
      | cons d l =>
          refine ⟨hfirst, ih hrest ?_⟩
          rwa [List.getLast?_cons_cons] at hborder

theorem avoids_of_not_mem_left
    {a b : Char} {cs : List Char} (h : a ∉ cs) :
    Avoids a b cs := by
  intro hpair
  exact h (hpair.subset List.mem_cons_self)

theorem avoids_of_not_mem_right
    {a b : Char} {cs : List Char} (h : b ∉ cs) :
    Avoids a b cs := by
  intro hpair
  exact h (hpair.subset (List.mem_cons_of_mem a List.mem_cons_self))

end Text
namespace Source

/-! ## Closed markers -/

theorem throughTagEnd?_append
    {inner : List Char} (h : Text.Avoids '%' '}' inner) (rest : List Char) :
    throughTagEnd? (inner ++ '%' :: '}' :: rest) = some (inner ++ ['%', '}'], rest) := by
  induction inner with
  | nil => rfl
  | cons c inner ih =>
      obtain ⟨hfirst, hrest⟩ := Text.avoids_cons_iff.mp h
      have hgo : ∀ after, c = '%' → inner ++ '%' :: '}' :: rest = '}' :: after → False := by
        intro after hc hnext
        cases inner with
        | nil => exact absurd (List.cons.inj hnext).1 (by decide)
        | cons d inner => exact hfirst ⟨hc, congrArg some (List.cons.inj hnext).1⟩
      rw [List.cons_append, throughTagEnd?.eq_3 c _ hgo, ih hrest]
      rfl

theorem throughVariableEnd?_append
    {inner : List Char} (h : '}' ∉ inner) (rest : List Char) :
    throughVariableEnd? (inner ++ '}' :: '}' :: rest) =
      some (inner ++ ['}', '}'], rest) := by
  induction inner with
  | nil => rfl
  | cons c inner ih =>
      have hc : '}' ≠ c := fun hc => h (hc ▸ List.mem_cons_self)
      have hrest : '}' ∉ inner := fun hmem => h (List.mem_cons_of_mem c hmem)
      rw [List.cons_append, throughVariableEnd?.eq_4 c _ (fun _ hc' => absurd hc'.symm hc)
        (fun hc' => absurd hc'.symm hc), ih hrest]
      rfl

/-- A marker that ends where it is closed first. -/
def IsMarker (p : List Char) : Prop :=
  (∃ inner, Text.Avoids '%' '}' inner ∧ p = '{' :: '%' :: (inner ++ ['%', '}'])) ∨
    ∃ inner, '}' ∉ inner ∧ p = '{' :: '{' :: (inner ++ ['}', '}'])

/-- A text that is not empty and in which no marker opens. -/
def IsPlain (p : List Char) : Prop :=
  p ≠ [] ∧ Text.Avoids '{' '{' p ∧ Text.Avoids '{' '%' p

instance (p : List Char) : Decidable (IsPlain p) :=
  inferInstanceAs (Decidable (p ≠ [] ∧ Text.Avoids '{' '{' p ∧ Text.Avoids '{' '%' p))

theorem marker?_append
    {p : List Char} (h : IsMarker p) (rest : List Char) :
    marker? (p ++ rest) = some (p, rest) := by
  rcases h with ⟨inner, hinner, rfl⟩ | ⟨inner, hinner, rfl⟩
  · have hend := throughTagEnd?_append hinner rest
    simp [marker?, hend]
  · have hend := throughVariableEnd?_append hinner rest
    simp [marker?, hend]

theorem marker?_eq_none
    {c : Char} {rest : List Char} (h : c = '{' → '{' ∉ rest.head? ∧ '%' ∉ rest.head?) :
    marker? (c :: rest) = none := by
  unfold marker?
  split
  · next hcons =>
      obtain ⟨hc, rfl⟩ := List.cons.inj hcons
      exact absurd rfl (h hc).2
  · next hcons =>
      obtain ⟨hc, rfl⟩ := List.cons.inj hcons
      exact absurd rfl (h hc).1
  · rfl

/-- A text without an opening marker is passed over, unless its last character opens one together
with what follows. -/
theorem untilMarker_append
    {p rest : List Char} (hvariable : Text.Avoids '{' '{' p) (htag : Text.Avoids '{' '%' p)
    (hlast : '{' ∈ p.getLast? → rest = []) :
    untilMarker (p ++ rest) = (p ++ (untilMarker rest).1, (untilMarker rest).2) := by
  induction p with
  | nil => rfl
  | cons c p ih =>
      obtain ⟨hvariable', hp⟩ := Text.avoids_cons_iff.mp hvariable
      obtain ⟨htag', hp'⟩ := Text.avoids_cons_iff.mp htag
      have hnone : marker? (c :: (p ++ rest)) = none := by
        apply marker?_eq_none
        rintro rfl
        cases p with
        | nil => simp [hlast rfl]
        | cons d p => exact ⟨fun h => hvariable' ⟨rfl, h⟩, fun h => htag' ⟨rfl, h⟩⟩
      have hlast' : '{' ∈ p.getLast? → rest = [] := by
        intro h
        apply hlast
        cases p with
        | nil => exact absurd h (by simp)
        | cons d p => rwa [List.getLast?_cons_cons]
      rw [List.cons_append, untilMarker, hnone, ih hp hp' hlast']
      rfl

/-! ## Texts and markers side by side -/

/-- Texts and markers that can be put together without touching: after a text comes a marker or
nothing, and a text before a marker does not end as a marker begins. -/
inductive Separated : List (List Char) → Prop
  | nil : Separated []
  | marker {p : List Char} {ps : List (List Char)} (isMarker : IsMarker p) (rest : Separated ps) :
    Separated (p :: ps)
  | last {p : List Char} (plain : IsPlain p) : Separated [p]
  | text {p q : List Char} {ps : List (List Char)} (plain : IsPlain p) (ends : '{' ∉ p.getLast?)
    (isMarker : IsMarker q) (rest : Separated ps) : Separated (p :: q :: ps)

theorem Separated.tail
    {p : List Char} {ps : List (List Char)} (h : Separated (p :: ps)) :
    Separated ps := by
  cases h with
  | marker isMarker rest => exact rest
  | last plain => exact .nil
  | text plain ends isMarker rest => exact .marker isMarker rest

theorem pieces_of_marker
    {cs t m rest : List Char} (h : untilMarker cs = (t, some (m, rest))) :
    pieces cs = t :: m :: pieces rest := by
  rw [pieces]
  split
  · next h' => exact absurd (h.symm.trans h') (by simp)
  · next h' =>
      obtain ⟨rfl, hsome⟩ := Prod.mk.inj (h.symm.trans h')
      obtain ⟨rfl, rfl⟩ := Prod.mk.inj (Option.some.inj hsome)
      rfl

theorem pieces_of_none
    {cs t : List Char} (h : untilMarker cs = (t, none)) :
    pieces cs = [t] := by
  rw [pieces]
  split
  · next h' =>
      obtain ⟨rfl, -⟩ := Prod.mk.inj (h.symm.trans h')
      rfl
  · next h' => exact absurd (h.symm.trans h') (by simp)

theorem IsMarker.ne_nil
    {p : List Char} (h : IsMarker p) :
    p ≠ [] := by
  rcases h with ⟨inner, -, rfl⟩ | ⟨inner, -, rfl⟩
  · exact List.cons_ne_nil _ _
  · exact List.cons_ne_nil _ _

theorem untilMarker_of_isMarker
    {p : List Char} (h : IsMarker p) (rest : List Char) :
    untilMarker (p ++ rest) = ([], some (p, rest)) := by
  have hmarker := marker?_append h rest
  cases p with
  | nil => exact absurd rfl h.ne_nil
  | cons c p =>
      rw [List.cons_append] at hmarker ⊢
      rw [untilMarker, hmarker]

/-- Splitting gives back the texts and markers that were put together, apart from empty texts
between them. -/
theorem Separated.filter_pieces
    {ps : List (List Char)} (h : Separated ps) :
    (pieces ps.flatten).filter (!·.isEmpty) = ps := by
  induction h with
  | nil =>
      rw [List.flatten_nil, pieces_of_none rfl]
      rfl
  | @marker p ps isMarker rest ih =>
      have hne : p.isEmpty = false := by simp [isMarker.ne_nil]
      rw [List.flatten_cons, pieces_of_marker (untilMarker_of_isMarker isMarker _)]
      simp [hne, ih]
  | @last p plain =>
      obtain ⟨hne, hvariable, htag⟩ := plain
      have huntil : untilMarker (p ++ []) = (p ++ [], none) :=
        untilMarker_append hvariable htag fun _ => rfl
      rw [List.flatten_cons, List.flatten_nil, pieces_of_none huntil]
      simp [hne]
  | @text p q ps plain ends isMarker rest ih =>
      obtain ⟨hne, hvariable, htag⟩ := plain
      have huntil : untilMarker (p ++ (q ++ ps.flatten)) = (p ++ [], some (q, ps.flatten)) := by
        rw [untilMarker_append hvariable htag fun hlast => absurd hlast ends,
          untilMarker_of_isMarker isMarker]
      rw [List.flatten_cons, List.flatten_cons, pieces_of_marker huntil]
      simp [hne, isMarker.ne_nil, ih]

/-! ## Tokens that are not empty -/

theorem filter_dropEmptyFirst (l : List (List Char)) :
    (dropEmptyFirst l).filter (!·.isEmpty) = l.filter (!·.isEmpty) := by
  unfold dropEmptyFirst
  split
  · rfl
  · rfl

theorem filter_dropEmptyLast (l : List (List Char)) :
    (dropEmptyLast l).filter (!·.isEmpty) = l.filter (!·.isEmpty) := by
  unfold dropEmptyLast
  split
  · next h =>
      obtain ⟨front, rfl⟩ := List.getLast?_eq_some_iff.mp h
      simp
  · rfl

theorem map_text_withLines
    (line : Nat) (texts : List (List Char)) :
    (withLines line texts).map (·.text.toList) = texts := by
  induction texts generalizing line with
  | nil => rfl
  | cons cs rest ih => simp [withLines, ih]

/-- The tokens of a template that are not empty are what it was put together from. -/
theorem Separated.map_filter_tokens
    {ps : List (List Char)} (h : Separated ps) :
    ((tokens (String.ofList ps.flatten)).filter (!·.text.toList.isEmpty)).map (·.text.toList) =
      ps := by
  calc ((tokens (String.ofList ps.flatten)).filter (!·.text.toList.isEmpty)).map (·.text.toList)
      = ((tokens (String.ofList ps.flatten)).map (·.text.toList)).filter (!·.isEmpty) := by
        rw [List.filter_map]
        rfl
    _ = (tokenTexts ps.flatten).filter (!·.isEmpty) := by
        rw [tokens, map_text_withLines, String.toList_ofList]
    _ = (pieces ps.flatten).filter (!·.isEmpty) := by
        rw [tokenTexts, filter_dropEmptyLast, filter_dropEmptyFirst]
    _ = ps := h.filter_pieces

end Source
end Liquid
