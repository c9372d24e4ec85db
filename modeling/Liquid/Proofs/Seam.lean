import Liquid.Proofs.Texts
import Liquid.Proofs.Tokenization

/-!
# Two templates put together

Where all markers of a template are closed and it does not end as a marker begins, nothing of what
comes after it changes its pieces.  Only the last text runs on into the first one after it.
-/

namespace Liquid
namespace Source

theorem not_isMarked_of_pieces
    {cs p : List Char} {back : List (List Char)} (h : pieces cs = p :: back) :
    ¬IsMarked p := by
  obtain ⟨q, hq, hplain⟩ := (isCut_pieces cs).2.first
  rw [h] at hq
  obtain rfl := Option.some.inj hq
  exact hplain

/-- A text without markers at the front runs on into the first piece of what comes after it. -/
theorem exists_pieces_of_plain
    {text : List Char} (htag : Text.Avoids '{' '%' text) (hexpression : Text.Avoids '{' '{' text)
    (ends : '{' ∉ text.getLast?) (more : List Char) :
    ∃ b back, pieces more = b :: back ∧ pieces (text ++ more) = (text ++ b) :: back := by
  rcases huntil : untilMarker more with ⟨t, found⟩
  have hjoined : untilMarker (text ++ more) = (text ++ t, found) := by
    rw [untilMarker_append hexpression htag fun h => absurd h ends, huntil]
  cases found with
  | none => exact ⟨t, [], pieces_of_none huntil, pieces_of_none hjoined⟩
  | some parts => exact ⟨t, _, pieces_of_marker huntil, pieces_of_marker hjoined⟩

/-- The last piece of the first text and the first of the second become one. -/
theorem exists_pieces_append
    {cs : List Char} (closed : ∀ p ∈ pieces cs, IsMarked p → IsMarker p)
    (ends : '{' ∉ cs.getLast?) (more : List Char) :
    ∃ front back a b, pieces cs = front ++ [a] ∧ pieces more = b :: back ∧
      pieces (cs ++ more) = front ++ (a ++ b) :: back ∧
        ¬IsMarked a ∧ ¬IsMarked b ∧ ¬IsMarked (a ++ b) := by
  fun_induction pieces cs with
  | case1 cs t h =>
      obtain rfl := untilMarker_eq_of_none h
      obtain ⟨-, -, -, htag, hexpression, -⟩ := exists_of_untilMarker h
      obtain ⟨b, back, hmore, hboth⟩ := exists_pieces_of_plain htag hexpression ends more
      exact ⟨[], back, t, b, rfl, hmore, hboth, not_isMarked_of_avoids htag hexpression,
        not_isMarked_of_pieces hmore, not_isMarked_of_pieces hboth⟩
  | case2 cs t m rest h ih =>
      obtain ⟨found, hcs, hfound, htag, hexpression, hlast⟩ := exists_of_untilMarker h
      have hmarked := (markerBefore_of_marker? hfound).isMarked
      have hm : IsMarker m := closed m (by simp) hmarked
      have hsplit := (append_of_marker? hfound).1
      have hopens := isMarked_of_marker? hfound
      have hendsRest : '{' ∉ rest.getLast? := by
        intro hend
        apply ends
        rw [hcs, ← hsplit]
        simp [List.getLast?_append, Option.mem_def.mp hend]
      obtain ⟨front, back, a, b, hrest, hmore, hboth, hfree⟩ :=
        ih (fun p hp => closed p (by simp [hp])) hendsRest
      have huntil : untilMarker (cs ++ more) = (t ++ [], some (m, rest ++ more)) := by
        rw [hcs, ← hsplit, List.append_assoc, List.append_assoc,
          untilMarker_append hexpression htag fun hend => absurd hend (hlast hopens),
          untilMarker_of_isMarker hm]
      -- The marker is closed, so it ends in the first text whatever comes after it.
      refine ⟨t :: m :: front, back, a, b, ?_, hmore, ?_, hfree⟩
      · rw [hrest]
        rfl
      · rw [pieces_of_marker huntil, hboth, List.append_nil]
        rfl

end Source

theorem Token.isMarker_iff
    {t : Token} :
    t.isMarker ↔ Source.IsMarked t.text.toList := by
  unfold isMarker kind TokenKind.ofChars
  split
  · next h => simp [Source.IsMarked, h]
  · next h => simp [Source.IsMarked, h]
  · next h => simp [Source.IsMarked, h]
  · next htag hvariable =>
      refine iff_of_false (by simp) ?_
      rintro (⟨rest, h⟩ | ⟨rest, h⟩)
      · exact htag rest h.symm
      · exact hvariable rest h.symm

namespace Source

/-! ## The tokens of two templates -/

theorem withLines_append (line : Nat) (ps qs : List (List Char)) :
    withLines line (ps ++ qs) =
      withLines line ps ++ withLines (line + ps.flatten.count '\n') qs := by
  induction ps generalizing line with
  | nil => rfl
  | cons p ps ih =>
      rw [List.cons_append, withLines, withLines, ih, List.flatten_cons, List.count_append,
        Nat.add_assoc]
      rfl

theorem withLines_add (line d : Nat) (ps : List (List Char)) :
    withLines (line + d) ps = (withLines line ps).map (Token.below d) := by
  induction ps generalizing line with
  | nil => rfl
  | cons p ps ih =>
      rw [withLines, withLines, List.map_cons, ← ih, Nat.add_right_comm]
      rfl

/-- The pieces of a template as tokens, with the empty ones at the ends. -/
def allTokens (source : String) : List Token :=
  withLines 1 (pieces source.toList)

/-- Whether the empty pieces at the ends are there makes no difference to any other token. -/
theorem filter_tokens
    {keep : Token → Bool} (hkeep : ∀ t : Token, t.text = "" → keep t = false) (source : String) :
    (tokens source).filter keep = (allTokens source).filter keep := by
  have hfirst (ps : List (List Char)) :
      (withLines 1 (dropEmptyFirst ps)).filter keep = (withLines 1 ps).filter keep := by
    unfold dropEmptyFirst
    split
    · next rest =>
        rw [withLines, List.filter_cons_of_neg (by simp [hkeep])]
        rfl
    · rfl
  have hlast (ps : List (List Char)) :
      (withLines 1 (dropEmptyLast ps)).filter keep = (withLines 1 ps).filter keep := by
    unfold dropEmptyLast
    split
    · next h =>
        obtain ⟨front, rfl⟩ := List.getLast?_eq_some_iff.mp h
        rw [List.dropLast_concat, withLines_append, List.filter_append]
        simp [withLines, hkeep]
    · rfl
  rw [tokens, tokenTexts, hlast, hfirst]
  rfl

/-- What becomes of the tokens of two templates where one follows the other. -/
structure Joined (source more : String) (front back : List Token) (a b ab : Token) : Prop where
  left : allTokens source = front ++ [a]
  right : allTokens more = b :: back
  both : allTokens (source ++ more) =
    front ++ ab :: back.map (Token.below (source.toList.count '\n'))
  text : ab.text = a.text ++ b.text
  plain_left : ¬a.isMarker
  plain_right : ¬b.isMarker
  plain_both : ¬ab.isMarker

theorem exists_joined
    {source : String} (closed : ∀ p ∈ pieces source.toList, IsMarked p → IsMarker p)
    (ends : '{' ∉ source.toList.getLast?) (more : String) :
    ∃ front back a b ab, Joined source more front back a b ab := by
  obtain ⟨front, back, a, b, hleft, hright, hboth, ha, hb, hab⟩ :=
    exists_pieces_append closed ends more.toList
  have hsource : source.toList = front.flatten ++ a := by
    have hflatten := flatten_pieces source.toList
    rw [hleft] at hflatten
    simpa using hflatten.symm
  let line := 1 + front.flatten.count '\n'
  refine ⟨withLines 1 front, withLines (1 + b.count '\n') back, ⟨String.ofList a, line⟩,
    ⟨String.ofList b, 1⟩, ⟨String.ofList (a ++ b), line⟩, ?_, ?_, ?_, ?_, ?_, ?_, ?_⟩
  · rw [allTokens, hleft, withLines_append]
    rfl
  · rw [allTokens, hright]
    rfl
  · have hline : line + (a ++ b).count '\n' = 1 + b.count '\n' + source.toList.count '\n' := by
      rw [hsource, List.count_append, List.count_append]
      omega
    rw [allTokens, String.toList_append, hboth, withLines_append, withLines, ← withLines_add,
      ← hline]
  · exact String.ofList_append
  · rwa [Token.isMarker_iff, String.toList_ofList]
  · rwa [Token.isMarker_iff, String.toList_ofList]
  · rwa [Token.isMarker_iff, String.toList_ofList]

/-- The tags and variables of two templates are those of the one and then those of the other,
further down by the lines of the first. -/
theorem Joined.filter_isMarker
    {source more : String} {front back : List Token} {a b ab : Token}
    (h : Joined source more front back a b ab) :
    (tokens (source ++ more)).filter Token.isMarker =
      (tokens source).filter Token.isMarker ++
        ((tokens more).filter Token.isMarker).map (Token.below (source.toList.count '\n')) := by
  have hempty (t : Token) (ht : t.text = "") : t.isMarker = false := by
    simp [Token.isMarker, Token.kind, ht, TokenKind.ofChars]
  rw [filter_tokens hempty, filter_tokens hempty, filter_tokens hempty, h.left, h.right, h.both,
    List.filter_append, List.filter_append, List.filter_cons_of_neg h.plain_left,
    List.filter_cons_of_neg h.plain_right, List.filter_cons_of_neg h.plain_both, List.filter_map,
    List.filter_nil, List.append_nil]
  rfl

end Source
end Liquid
