import Liquid.Proofs.Assembly
import Liquid.Proofs.Splitting
import Mathlib.Data.List.Chain

/-!
# What the tokens of a template are

The texts of the tokens of a template, described without the splitter: which texts may stand where,
and that there is just one way to cut a template into such texts.  Whether an opening marker is
closed depends on all that comes after it, so a text is described together with what follows it.
-/

namespace Liquid
namespace Source

open Text (Avoids)

/-! ## Markers and what comes after them -/

/-- A text that begins as a marker does. -/
def IsMarked (p : List Char) : Prop :=
  ['{', '%'] <+: p ∨ ['{', '{'] <+: p

instance (p : List Char) : Decidable (IsMarked p) :=
  inferInstanceAs (Decidable (['{', '%'] <+: p ∨ ['{', '{'] <+: p))

/-- A marker of a template, and what comes after it there.  A tag runs through the first closing
marker.  A variable runs through the first closing brace, and through the next character if this is
one, too.  What is never closed is the opening marker alone. -/
inductive MarkerBefore (after : List Char) : List Char → Prop
  | tag {inner : List Char} (first : Avoids '%' '}' inner) :
    MarkerBefore after ('{' :: '%' :: (inner ++ ['%', '}']))
  | openTag (unclosed : Avoids '%' '}' after) : MarkerBefore after ['{', '%']
  | expression {inner : List Char} (first : '}' ∉ inner) :
    MarkerBefore after ('{' :: '{' :: (inner ++ ['}', '}']))
  | halfExpression {inner : List Char} (first : '}' ∉ inner) (single : '}' ∉ after.head?) :
    MarkerBefore after ('{' :: '{' :: (inner ++ ['}']))
  | openExpression (unclosed : '}' ∉ after) : MarkerBefore after ['{', '{']

theorem isMarked_cons_iff
    {c : Char} {p : List Char} :
    IsMarked (c :: p) ↔ c = '{' ∧ ('%' ∈ p.head? ∨ '{' ∈ p.head?) := by
  cases p with
  | nil => simp [IsMarked]
  | cons d p =>
      simp only [IsMarked, List.cons_prefix_cons, List.nil_prefix, and_true, List.head?_cons,
        Option.mem_def, Option.some.injEq]
      constructor
      · rintro (⟨rfl, rfl⟩ | ⟨rfl, rfl⟩)
        · exact ⟨rfl, .inl rfl⟩
        · exact ⟨rfl, .inr rfl⟩
      · rintro ⟨rfl, rfl | rfl⟩
        · exact .inl ⟨rfl, rfl⟩
        · exact .inr ⟨rfl, rfl⟩

theorem not_isMarked_nil : ¬IsMarked [] := by
  decide

theorem not_isMarked_of_avoids
    {p : List Char} (htag : Avoids '{' '%' p) (hvariable : Avoids '{' '{' p) :
    ¬IsMarked p := by
  rintro (h | h)
  · exact htag h.isInfix
  · exact hvariable h.isInfix

theorem MarkerBefore.isMarked
    {after p : List Char} (h : MarkerBefore after p) :
    IsMarked p := by
  cases h with
  | tag | openTag => exact .inl (by simp)
  | expression | halfExpression | openExpression => exact .inr (by simp)

theorem throughTagEnd?_eq_none_iff
    {cs : List Char} :
    throughTagEnd? cs = none ↔ Avoids '%' '}' cs := by
  fun_induction throughTagEnd? cs with
  | case1 => simp [Text.avoids_nil]
  | case2 rest => simp [Text.avoids_cons_iff]
  | case3 c rest hgo ih =>
      have hfirst : ¬(c = '%' ∧ '}' ∈ rest.head?) := by
        rintro ⟨hc, hhead⟩
        obtain ⟨more, rfl⟩ := List.head?_eq_some_iff.mp hhead
        exact hgo more hc rfl
      rw [Option.map_eq_none_iff, ih, Text.avoids_cons_iff]
      exact (and_iff_right hfirst).symm

theorem exists_of_throughTagEnd?
    {cs inner rest : List Char} (h : throughTagEnd? cs = some (inner, rest)) :
    ∃ front, Avoids '%' '}' front ∧ inner = front ++ ['%', '}'] := by
  fun_induction throughTagEnd? cs generalizing inner rest with
  | case1 => exact absurd h (by simp)
  | case2 r =>
      obtain ⟨rfl, -⟩ := Prod.mk.inj (Option.some.inj h)
      exact ⟨[], Text.avoids_nil _ _, rfl⟩
  | case3 c r hgo ih =>
      obtain ⟨⟨inner', rest'⟩, hrest, heq⟩ := Option.map_eq_some_iff.mp h
      obtain ⟨rfl, -⟩ := Prod.mk.inj heq
      obtain ⟨front, hfront, rfl⟩ := ih hrest
      refine ⟨c :: front, Text.avoids_cons_iff.mpr ⟨?_, hfront⟩, rfl⟩
      rintro ⟨hc, hhead⟩
      obtain ⟨more, rfl⟩ := List.head?_eq_some_iff.mp hhead
      have hr := append_of_throughTagEnd? hrest
      exact hgo _ hc hr.symm

theorem throughVariableEnd?_eq_none_iff
    {cs : List Char} :
    throughVariableEnd? cs = none ↔ '}' ∉ cs := by
  fun_induction throughVariableEnd? cs with
  | case1 => simp
  | case2 rest => simp
  | case3 rest _ => simp
  | case4 c rest _ hc ih =>
      have hne : '}' ≠ c := fun h => hc h.symm
      rw [Option.map_eq_none_iff, ih, List.mem_cons, not_or]
      exact (and_iff_right hne).symm

theorem exists_of_throughVariableEnd?
    {cs inner rest : List Char} (h : throughVariableEnd? cs = some (inner, rest)) :
    ∃ front, '}' ∉ front ∧
      (inner = front ++ ['}', '}'] ∨ inner = front ++ ['}'] ∧ '}' ∉ rest.head?) := by
  fun_induction throughVariableEnd? cs generalizing inner rest with
  | case1 => exact absurd h (by simp)
  | case2 r =>
      obtain ⟨rfl, -⟩ := Prod.mk.inj (Option.some.inj h)
      exact ⟨[], List.not_mem_nil, .inl rfl⟩
  | case3 r hgo =>
      obtain ⟨rfl, rfl⟩ := Prod.mk.inj (Option.some.inj h)
      refine ⟨[], List.not_mem_nil, .inr ⟨rfl, ?_⟩⟩
      intro hhead
      obtain ⟨more, rfl⟩ := List.head?_eq_some_iff.mp hhead
      exact hgo more rfl
  | case4 c r _ hc ih =>
      obtain ⟨⟨inner', rest'⟩, hrest, heq⟩ := Option.map_eq_some_iff.mp h
      obtain ⟨rfl, rfl⟩ := Prod.mk.inj heq
      obtain ⟨front, hfront, hinner⟩ := ih hrest
      refine ⟨c :: front, ?_, ?_⟩
      · rw [List.mem_cons, not_or]
        exact ⟨fun h => hc h.symm, hfront⟩
      · rcases hinner with rfl | ⟨rfl, hsingle⟩
        · exact .inl rfl
        · exact .inr ⟨rfl, hsingle⟩

theorem throughVariableEnd?_append_single
    {inner rest : List Char} (h : '}' ∉ inner) (hsingle : '}' ∉ rest.head?) :
    throughVariableEnd? (inner ++ '}' :: rest) = some (inner ++ ['}'], rest) := by
  induction inner with
  | nil =>
      cases rest with
      | nil => rfl
      | cons d rest =>
          have hd : ∀ more, d :: rest = '}' :: more → False := by
            intro more hmore
            exact hsingle (congrArg some (List.cons.inj hmore).1)
          exact throughVariableEnd?.eq_3 _ hd
  | cons c inner ih =>
      have hc : '}' ≠ c := fun hc => h (hc ▸ List.mem_cons_self)
      have hrest : '}' ∉ inner := fun hmem => h (List.mem_cons_of_mem c hmem)
      rw [List.cons_append, throughVariableEnd?.eq_4 c _ (fun _ hc' => absurd hc'.symm hc)
        (fun hc' => absurd hc'.symm hc), ih hrest]
      rfl

theorem marker?_eq_none_iff
    {cs : List Char} :
    marker? cs = none ↔ ¬IsMarked cs := by
  cases cs with
  | nil => exact iff_of_true rfl not_isMarked_nil
  | cons c rest =>
      constructor
      · rintro h (⟨more, hmore⟩ | ⟨more, hmore⟩)
        · rw [← hmore] at h
          cases hend : throughTagEnd? more <;> simp [marker?, hend] at h
        · rw [← hmore] at h
          cases hend : throughVariableEnd? more <;> simp [marker?, hend] at h
      · intro h
        rw [isMarked_cons_iff] at h
        apply marker?_eq_none
        intro hc
        exact ⟨fun hhead => h ⟨hc, .inr hhead⟩, fun hhead => h ⟨hc, .inl hhead⟩⟩

theorem isMarked_of_marker?
    {cs : List Char} {parts : List Char × List Char} (h : marker? cs = some parts) :
    IsMarked cs := by
  by_contra hnot
  rw [marker?_eq_none_iff.mpr hnot] at h
  exact absurd h (by simp)

theorem MarkerBefore.marker?_eq
    {after p : List Char} (h : MarkerBefore after p) :
    marker? (p ++ after) = some (p, after) := by
  cases h with
  | tag first => exact marker?_append (.inl ⟨_, first, rfl⟩) after
  | openTag unclosed =>
      have hend := throughTagEnd?_eq_none_iff.mpr unclosed
      simp [marker?, hend]
  | expression first => exact marker?_append (.inr ⟨_, first, rfl⟩) after
  | halfExpression first single =>
      have hend := throughVariableEnd?_append_single first single
      simp [marker?, hend]
  | openExpression unclosed =>
      have hend := throughVariableEnd?_eq_none_iff.mpr unclosed
      simp [marker?, hend]

theorem markerBefore_of_marker?
    {cs p after : List Char} (h : marker? cs = some (p, after)) :
    MarkerBefore after p := by
  fun_cases marker? cs with
  | case1 r inner s hend =>
      simp only [marker?, hend, Option.some.injEq, Prod.mk.injEq] at h
      obtain ⟨rfl, rfl⟩ := h
      obtain ⟨front, hfront, rfl⟩ := exists_of_throughTagEnd? hend
      exact .tag hfront
  | case2 r hend =>
      simp only [marker?, hend, Option.some.injEq, Prod.mk.injEq] at h
      obtain ⟨rfl, rfl⟩ := h
      exact .openTag (throughTagEnd?_eq_none_iff.mp hend)
  | case3 r inner s hend =>
      simp only [marker?, hend, Option.some.injEq, Prod.mk.injEq] at h
      obtain ⟨rfl, rfl⟩ := h
      obtain ⟨front, hfront, rfl | ⟨rfl, hsingle⟩⟩ := exists_of_throughVariableEnd? hend
      · exact .expression hfront
      · exact .halfExpression hfront hsingle
  | case4 r hend =>
      simp only [marker?, hend, Option.some.injEq, Prod.mk.injEq] at h
      obtain ⟨rfl, rfl⟩ := h
      exact .openExpression (throughVariableEnd?_eq_none_iff.mp hend)
  | case5 => simp [marker?] at h

/-! ## Texts and markers in turn -/

/-- A text of a template, and the pieces after it.  No marker opens inside the text, nor at its end
if a marker comes next. -/
structure IsTextBefore (after : List (List Char)) (p : List Char) : Prop where
  noTag : Avoids '{' '%' p
  noExpression : Avoids '{' '{' p
  ends : ∀ q ∈ after.head?, IsMarked q → '{' ∉ p.getLast?

/-- Pieces of a template in which texts and markers alternate, each of them as it must be before
those that come after it. -/
structure IsCut (ps : List (List Char)) : Prop where
  alternate : ps.IsChain fun p q => IsMarked p ↔ ¬IsMarked q
  text : ∀ p after, p :: after <:+ ps → ¬IsMarked p → IsTextBefore after p
  marker : ∀ p after, p :: after <:+ ps → IsMarked p → MarkerBefore after.flatten p

/-- The texts of the tokens of a template: they make up the template, texts and markers alternate,
and an empty text stands only between two markers. -/
structure IsTokenization (cs : List Char) (ps : List (List Char)) : Prop extends IsCut ps where
  flatten : ps.flatten = cs
  empty : ∀ before after, ps = before ++ [] :: after →
    (∃ p ∈ before.getLast?, IsMarked p) ∧ ∃ q ∈ after.head?, IsMarked q

theorem isCut_nil : IsCut [] where
  alternate := .nil
  text p after h := absurd (List.suffix_nil.mp h) (List.cons_ne_nil p after)
  marker p after h := absurd (List.suffix_nil.mp h) (List.cons_ne_nil p after)

theorem isCut_cons_iff
    {p : List Char} {ps : List (List Char)} :
    IsCut (p :: ps) ↔
      (∀ q ∈ ps.head?, IsMarked p ↔ ¬IsMarked q) ∧ (¬IsMarked p → IsTextBefore ps p) ∧
        (IsMarked p → MarkerBefore ps.flatten p) ∧ IsCut ps := by
  constructor
  · rintro ⟨halternate, htext, hmarker⟩
    obtain ⟨hnext, hrest⟩ := List.isChain_cons.mp halternate
    have hself := List.suffix_refl (p :: ps)
    refine ⟨hnext, htext p ps hself, hmarker p ps hself, hrest, ?_, ?_⟩
    · intro q after hq
      exact htext q after (hq.trans (List.suffix_cons p ps))
    · intro q after hq
      exact hmarker q after (hq.trans (List.suffix_cons p ps))
  · rintro ⟨hnext, htext, hmarker, hrest⟩
    refine ⟨List.isChain_cons.mpr ⟨hnext, hrest.alternate⟩, ?_, ?_⟩
    · intro q after hq
      rcases List.suffix_cons_iff.mp hq with heq | hq
      · obtain ⟨rfl, rfl⟩ := List.cons.inj heq
        exact htext
      · exact hrest.text q after hq
    · intro q after hq
      rcases List.suffix_cons_iff.mp hq with heq | hq
      · obtain ⟨rfl, rfl⟩ := List.cons.inj heq
        exact hmarker
      · exact hrest.marker q after hq

/-! ## The pieces that the splitter gives -/

/-- The text before the first marker, and where the marker stands. -/
theorem exists_of_untilMarker
    {cs t : List Char} {found : Option (List Char × List Char)} (h : untilMarker cs = (t, found)) :
    ∃ rest, cs = t ++ rest ∧ marker? rest = found ∧ Avoids '{' '%' t ∧ Avoids '{' '{' t ∧
      (IsMarked rest → '{' ∉ t.getLast?) := by
  induction cs generalizing t with
  | nil =>
      obtain ⟨rfl, rfl⟩ := Prod.mk.inj h
      exact ⟨[], rfl, rfl, Text.avoids_nil _ _, Text.avoids_nil _ _, fun _ => by simp⟩
  | cons c cs ih =>
      rw [untilMarker] at h
      split at h
      · next hmarker =>
          obtain ⟨rfl, rfl⟩ := Prod.mk.inj h
          exact ⟨c :: cs, rfl, hmarker, Text.avoids_nil _ _, Text.avoids_nil _ _, fun _ => by simp⟩
      · next hmarker =>
          obtain ⟨rfl, rfl⟩ := Prod.mk.inj h
          obtain ⟨rest, hcs, hfound, htag, hexpression, hends⟩ := ih rfl
          have hfree : ¬(c = '{' ∧ ('%' ∈ cs.head? ∨ '{' ∈ cs.head?)) := by
            rw [← isMarked_cons_iff]
            exact marker?_eq_none_iff.mp hmarker
          generalize (untilMarker cs).1 = t at *
          subst hcs
          refine ⟨rest, rfl, hfound, ?_, ?_, ?_⟩
          · refine Text.avoids_cons_iff.mpr ⟨?_, htag⟩
            rintro ⟨hc, hhead⟩
            exact hfree ⟨hc, .inl (by simp [List.head?_append, Option.mem_def.mp hhead])⟩
          · refine Text.avoids_cons_iff.mpr ⟨?_, hexpression⟩
            rintro ⟨hc, hhead⟩
            exact hfree ⟨hc, .inr (by simp [List.head?_append, Option.mem_def.mp hhead])⟩
          · intro hrest
            cases t with
            | cons d t =>
                rw [List.getLast?_cons_cons]
                exact hends hrest
            | nil =>
                intro hlast
                obtain rfl : c = '{' := by simpa using hlast
                cases rest with
                | nil => exact not_isMarked_nil hrest
                | cons d rest =>
                    obtain ⟨rfl, -⟩ := isMarked_cons_iff.mp hrest
                    exact hfree ⟨rfl, .inr rfl⟩

theorem untilMarker_of_marker?
    {cs : List Char} {parts : List Char × List Char} (h : marker? cs = some parts) :
    untilMarker cs = ([], some parts) := by
  cases cs with
  | nil => exact absurd h (by simp [marker?])
  | cons c rest => rw [untilMarker, h]

/-- The pieces begin and end with a text. -/
structure EndsInTexts (ps : List (List Char)) : Prop where
  first : ∃ p ∈ ps.head?, ¬IsMarked p
  last : ∃ p ∈ ps.getLast?, ¬IsMarked p

theorem isCut_pieces (cs : List Char) : IsCut (pieces cs) ∧ EndsInTexts (pieces cs) := by
  fun_induction pieces cs with
  | case1 cs t h =>
      obtain ⟨rest, -, -, htag, hexpression, -⟩ := exists_of_untilMarker h
      have ht := not_isMarked_of_avoids htag hexpression
      constructor
      · rw [isCut_cons_iff]
        exact ⟨by simp, fun _ => ⟨htag, hexpression, by simp⟩, fun hmarked => absurd hmarked ht,
          isCut_nil⟩
      · exact ⟨⟨t, rfl, ht⟩, ⟨t, rfl, ht⟩⟩
  | case2 cs t m rest h ih =>
      obtain ⟨hcut, hends⟩ := ih
      obtain ⟨found, -, hfound, htag, hexpression, hlast⟩ := exists_of_untilMarker h
      have ht := not_isMarked_of_avoids htag hexpression
      have hm := markerBefore_of_marker? hfound
      have hopens := isMarked_of_marker? hfound
      obtain ⟨p, hp, hplain⟩ := hends.first
      constructor
      · rw [isCut_cons_iff, isCut_cons_iff]
        refine ⟨?_, fun _ => ⟨htag, hexpression, fun _ _ _ => hlast hopens⟩,
          fun hmarked => absurd hmarked ht, ?_, fun hnot => absurd hm.isMarked hnot, ?_, hcut⟩
        · intro q hq
          obtain rfl : m = q := by simpa using hq
          exact iff_of_false ht (not_not_intro hm.isMarked)
        · intro q hq
          obtain rfl := Option.mem_unique hp hq
          exact iff_of_true hm.isMarked hplain
        · rw [flatten_pieces]
          exact fun _ => hm
      · refine ⟨⟨t, rfl, ht⟩, ?_⟩
        obtain ⟨q, hq, hplain⟩ := hends.last
        exact ⟨q, by simp [List.getLast?_cons, Option.mem_def.mp hq], hplain⟩

/-- Pieces cut as they must be, with a text at each end, are those that the splitter gives. -/
theorem pieces_flatten :
    ∀ {ps : List (List Char)}, IsCut ps → EndsInTexts ps → pieces ps.flatten = ps
  | [], _, hends => absurd hends.first (by simp)
  | [t], hcut, hends => by
      obtain ⟨-, htext, -, -⟩ := isCut_cons_iff.mp hcut
      obtain ⟨p, hp, hplain⟩ := hends.first
      obtain rfl : t = p := by simpa using hp
      obtain ⟨htag, hexpression, -⟩ := htext hplain
      have huntil : untilMarker (t ++ []) = (t ++ [], none) :=
        untilMarker_append hexpression htag fun _ => rfl
      rw [List.flatten_cons, List.flatten_nil, pieces_of_none huntil, List.append_nil]
  | t :: m :: rest, hcut, hends => by
      obtain ⟨hnext, htext, -, hcut'⟩ := isCut_cons_iff.mp hcut
      obtain ⟨hnext', -, hmarker, hrest⟩ := isCut_cons_iff.mp hcut'
      obtain ⟨p, hp, hplain⟩ := hends.first
      obtain rfl : t = p := by simpa using hp
      have hm : IsMarked m := by
        by_contra hnot
        exact hplain ((hnext m rfl).mpr hnot)
      obtain ⟨htag, hexpression, hlast⟩ := htext hplain
      have hmarked : untilMarker (m ++ rest.flatten) = ([], some (m, rest.flatten)) :=
        untilMarker_of_marker? (hmarker hm).marker?_eq
      have huntil : untilMarker (t ++ (m ++ rest.flatten)) = (t ++ [], some (m, rest.flatten)) := by
        rw [untilMarker_append hexpression htag fun h => absurd h (hlast m rfl hm), hmarked]
      have hendsRest : EndsInTexts rest := by
        obtain ⟨q, hq, hplain'⟩ := hends.last
        cases rest with
        | nil =>
            obtain rfl : m = q := by simpa using hq
            exact absurd hm hplain'
        | cons r rest =>
            refine ⟨⟨r, rfl, (hnext' r rfl).mp hm⟩, q, ?_, hplain'⟩
            rwa [List.getLast?_cons_cons, List.getLast?_cons_cons] at hq
      rw [List.flatten_cons, List.flatten_cons, pieces_of_marker huntil, List.append_nil,
        pieces_flatten hrest hendsRest]

/-! ## Empty texts at the ends -/

/-- Given that texts and markers alternate, an empty text has a marker on either side unless it is
the first or the last piece. -/
theorem isTokenization_iff
    {cs : List Char} {ps : List (List Char)} :
    IsTokenization cs ps ↔ IsCut ps ∧ ps.flatten = cs ∧ [] ∉ ps.head? ∧ [] ∉ ps.getLast? := by
  constructor
  · rintro ⟨hcut, hflatten, hempty⟩
    refine ⟨hcut, hflatten, ?_, ?_⟩
    · intro hhead
      obtain ⟨after, hps⟩ := List.head?_eq_some_iff.mp hhead
      obtain ⟨⟨p, hp, -⟩, -⟩ := hempty [] after hps
      exact absurd hp (by simp)
    · intro hlast
      obtain ⟨before, hps⟩ := List.getLast?_eq_some_iff.mp hlast
      obtain ⟨-, q, hq, -⟩ := hempty before [] hps
      exact absurd hq (by simp)
  · rintro ⟨hcut, hflatten, hhead, hlast⟩
    refine ⟨hcut, hflatten, ?_⟩
    rintro before after rfl
    obtain ⟨-, hafter, hbefore⟩ := List.isChain_append.mp hcut.alternate
    constructor
    · cases hp : before.getLast? with
      | none =>
          rw [List.getLast?_eq_none_iff.mp hp] at hhead
          exact absurd rfl hhead
      | some p => exact ⟨p, rfl, (hbefore p hp [] rfl).mpr not_isMarked_nil⟩
    · cases after with
      | nil => exact absurd (by simp) hlast
      | cons q after =>
          refine ⟨q, rfl, ?_⟩
          by_contra hplain
          exact not_isMarked_nil ((List.isChain_cons.mp hafter).1 q rfl |>.mpr hplain)

/-- Whether an empty piece stands at the end makes no difference to those before it, if the last of
these is a marker. -/
theorem isCut_concat_nil_iff
    {ps : List (List Char)} :
    IsCut (ps ++ [[]]) ↔ IsCut ps ∧ ∀ p ∈ ps.getLast?, IsMarked p := by
  induction ps with
  | nil =>
      have hlast : IsCut [[]] :=
        isCut_cons_iff.mpr ⟨by simp,
          fun _ => ⟨Text.avoids_nil _ _, Text.avoids_nil _ _, by simp⟩,
          fun h => absurd h not_isMarked_nil, isCut_nil⟩
      simp [hlast, isCut_nil]
  | cons p ps ih =>
      have hflatten : (ps ++ [[]]).flatten = ps.flatten := by simp
      rw [List.cons_append, isCut_cons_iff, isCut_cons_iff, ih, hflatten]
      cases ps with
      | nil =>
          constructor
          · rintro ⟨hnext, -, hmarker, -⟩
            have hp : IsMarked p := (hnext [] rfl).mpr not_isMarked_nil
            refine ⟨⟨by simp, fun hnot => absurd hp hnot, hmarker, isCut_nil⟩, ?_⟩
            intro q hq
            rwa [← Option.some.inj hq]
          · rintro ⟨⟨-, -, hmarker, -⟩, hlast⟩
            have hp : IsMarked p := hlast p rfl
            refine ⟨?_, fun hnot => absurd hp hnot, hmarker, isCut_nil, by simp⟩
            intro q hq
            rw [← Option.some.inj hq]
            exact iff_of_true hp not_isMarked_nil
      | cons q ps =>
          have htext : IsTextBefore (q :: ps ++ [[]]) p ↔ IsTextBefore (q :: ps) p :=
            ⟨fun h => ⟨h.noTag, h.noExpression, h.ends⟩,
              fun h => ⟨h.noTag, h.noExpression, h.ends⟩⟩
          rw [List.getLast?_cons_cons, htext]
          constructor
          · rintro ⟨hnext, hp, hmarker, hcut, hlast⟩
            exact ⟨⟨hnext, hp, hmarker, hcut⟩, hlast⟩
          · rintro ⟨⟨hnext, hp, hmarker, hcut⟩, hlast⟩
            exact ⟨hnext, hp, hmarker, hcut, hlast⟩

theorem IsCut.ne_nil_of_first
    {p : List Char} {ps : List (List Char)} (h : IsCut (p :: ps)) (hp : ¬IsMarked p) :
    [] ∉ ps.head? := by
  intro hhead
  have hnext := (isCut_cons_iff.mp h).1 [] hhead
  exact hp (hnext.mpr not_isMarked_nil)

/-- What is left of the pieces when an empty text at the front is dropped. -/
theorem IsCut.dropEmptyFirst
    {ps : List (List Char)} (h : IsCut ps) (hfirst : ∃ p ∈ ps.head?, ¬IsMarked p) :
    IsCut (Source.dropEmptyFirst ps) ∧ [] ∉ (Source.dropEmptyFirst ps).head? := by
  obtain ⟨p, hp, hplain⟩ := hfirst
  obtain ⟨rest, rfl⟩ := List.head?_eq_some_iff.mp hp
  cases p with
  | nil => exact ⟨(isCut_cons_iff.mp h).2.2.2, h.ne_nil_of_first hplain⟩
  | cons c p => exact ⟨h, by simp [Source.dropEmptyFirst]⟩

theorem dropEmptyLast_concat_nil (ps : List (List Char)) :
    dropEmptyLast (ps ++ [[]]) = ps := by
  simp [dropEmptyLast]

theorem dropEmptyLast_of_ne
    {ps : List (List Char)} (h : [] ∉ ps.getLast?) :
    dropEmptyLast ps = ps := by
  unfold dropEmptyLast
  split
  · next hlast => exact absurd hlast h
  · rfl

/-- What is left of the pieces when an empty text at the end is dropped. -/
theorem IsCut.dropEmptyLast
    {ps : List (List Char)} (h : IsCut ps) (hfirst : [] ∉ ps.head?) :
    IsCut (Source.dropEmptyLast ps) ∧ [] ∉ (Source.dropEmptyLast ps).head? ∧
      [] ∉ (Source.dropEmptyLast ps).getLast? := by
  by_cases hlast : [] ∈ ps.getLast?
  · obtain ⟨front, rfl⟩ := List.getLast?_eq_some_iff.mp hlast
    obtain ⟨hfront, hmarked⟩ := isCut_concat_nil_iff.mp h
    rw [dropEmptyLast_concat_nil]
    refine ⟨hfront, ?_, fun hend => not_isMarked_nil (hmarked [] hend)⟩
    intro hhead
    exact hfirst (by simp [List.head?_append, Option.mem_def.mp hhead])
  · rw [dropEmptyLast_of_ne hlast]
    exact ⟨h, hfirst, hlast⟩

/-- Pieces without an empty text at the end are what is left of pieces that end with a text. -/
theorem IsCut.exists_dropEmptyLast_eq
    {ps : List (List Char)} (h : IsCut ps) (hfirst : [] ∉ ps.head?) (hlast : [] ∉ ps.getLast?) :
    ∃ qs, Source.dropEmptyLast qs = ps ∧ IsCut qs ∧ qs.flatten = ps.flatten ∧ [] ∉ qs.head? ∧
      ∀ q ∈ qs.getLast?, ¬IsMarked q := by
  by_cases hplain : ∀ q ∈ ps.getLast?, ¬IsMarked q
  · exact ⟨ps, dropEmptyLast_of_ne hlast, h, rfl, hfirst, hplain⟩
  · push Not at hplain
    obtain ⟨p, hp, hmarked⟩ := hplain
    refine ⟨ps ++ [[]], dropEmptyLast_concat_nil ps, ?_, by simp, ?_, ?_⟩
    · refine isCut_concat_nil_iff.mpr ⟨h, ?_⟩
      intro q hq
      rwa [← Option.mem_unique hp hq]
    · obtain ⟨front, rfl⟩ := List.getLast?_eq_some_iff.mp hp
      cases front with
      | nil => exact hfirst
      | cons q front => exact hfirst
    · intro q hq
      obtain rfl : [] = q := by simpa using hq
      exact not_isMarked_nil

/-- Pieces without an empty text at the front are what is left of pieces that begin with a text. -/
theorem IsCut.exists_dropEmptyFirst_eq
    {ps : List (List Char)} (h : IsCut ps) (hfirst : [] ∉ ps.head?)
    (hlast : ∀ p ∈ ps.getLast?, ¬IsMarked p) :
    ∃ qs, Source.dropEmptyFirst qs = ps ∧ IsCut qs ∧ qs.flatten = ps.flatten ∧ EndsInTexts qs := by
  by_cases hplain : ∃ p ∈ ps.head?, ¬IsMarked p
  · obtain ⟨p, hp, hnot⟩ := hplain
    obtain ⟨rest, rfl⟩ := List.head?_eq_some_iff.mp hp
    refine ⟨p :: rest, ?_, h, rfl, ⟨p, hp, hnot⟩, ?_⟩
    · cases p with
      | nil => exact absurd rfl hfirst
      | cons c p => rfl
    · have hend := List.getLast?_eq_some_getLast (List.cons_ne_nil p rest)
      exact ⟨_, hend, hlast _ hend⟩
  · push Not at hplain
    refine ⟨[] :: ps, rfl, ?_, by simp, ⟨[], rfl, not_isMarked_nil⟩, ?_⟩
    · refine isCut_cons_iff.mpr ⟨?_, ?_, fun hmarked => absurd hmarked not_isMarked_nil, h⟩
      · intro q hq
        exact iff_of_false not_isMarked_nil (not_not_intro (hplain q hq))
      · exact fun _ => ⟨Text.avoids_nil _ _, Text.avoids_nil _ _, by simp⟩
    · cases hend : ps.getLast? with
      | none => exact ⟨[], by simp [List.getLast?_cons, hend], not_isMarked_nil⟩
      | some q => exact ⟨q, by simp [List.getLast?_cons, hend], hlast q hend⟩

theorem tokenTexts_eq_iff
    {cs : List Char} {ps : List (List Char)} :
    tokenTexts cs = ps ↔ IsTokenization cs ps := by
  constructor
  · rintro rfl
    obtain ⟨hcut, hends⟩ := isCut_pieces cs
    obtain ⟨hcut', hfirst⟩ := hcut.dropEmptyFirst hends.first
    obtain ⟨hcut'', hfirst', hlast⟩ := hcut'.dropEmptyLast hfirst
    exact isTokenization_iff.mpr ⟨hcut'', flatten_tokenTexts cs, hfirst', hlast⟩
  · intro h
    obtain ⟨hcut, hflatten, hfirst, hlast⟩ := isTokenization_iff.mp h
    obtain ⟨qs, hqs, hcut', hflatten', hfirst', hplain⟩ := hcut.exists_dropEmptyLast_eq hfirst hlast
    obtain ⟨rs, hrs, hcut'', hflatten'', hends⟩ := hcut'.exists_dropEmptyFirst_eq hfirst' hplain
    rw [← hflatten, ← hflatten', ← hflatten'', tokenTexts, pieces_flatten hcut'' hends, hrs, hqs]

/-- The texts of the tokens of a template are the only ones that make up the template as texts and
markers in turn, with texts and markers as they must be. -/
theorem tokens_text_eq_iff (source : String) (texts : List String) :
    (tokens source).map Token.text = texts ↔
      IsTokenization source.toList (texts.map String.toList) := by
  rw [← tokenTexts_eq_iff, ← map_text_withLines 1 (tokenTexts source.toList)]
  have hchars : (withLines 1 (tokenTexts source.toList)).map (·.text.toList) =
      ((tokens source).map Token.text).map String.toList := by
    rw [List.map_map]
    rfl
  rw [hchars]
  exact (List.map_injective_iff.mpr fun _ _ => String.toList_inj.mp).eq_iff.symm

end Source
end Liquid
