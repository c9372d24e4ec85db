import Liquid.Proofs.Printing
import Liquid.Proofs.Rendering

/-!
# Templates of one expression or one choice

The smallest templates that show something: one expression, and one choice between two letters.
They are read as they are written, whatever the expression or the condition holds, and show the
value of the expression and the outcome of the condition.
-/

namespace Liquid

open Text (Trimmed Avoids)

def expressionSource (markup : String) : String :=
  "\x7b\x7b " ++ markup ++ " \x7d\x7d"

/-- The template of one choice: `T` where the condition holds, and else `F`. -/
def choiceSource (condition : String) : String :=
  "\x7b% if " ++ condition ++ " %\x7dT\x7b% else %\x7dF\x7b% endif %\x7d"

/-- A template can be read, and from a fresh context over some data it renders to a text; it
recovers no error, and nothing else is left of the rendering, either. -/
def Shows (options : Options) (root : Value) (source text : String) : Prop :=
  ∃ t, Template.parse .standard options source = .ok t ∧
    t.render root = (.ok text, .new root options)

/-! ## Reading -/

/-- A template is read as its pieces are, apart from empty ones between them. -/
theorem Source.Separated.parse_eq_ok
    {options : Options} {ps : List (List Char)} {nodes : List Node} (separated : Separated ps)
    (derives : ∀ ts : List Token, ts.map (·.text.toList) = ps →
      Derives options.maxDepth ts nodes) :
    Template.parse .standard options (String.ofList ps.flatten) = .ok ⟨nodes, options⟩ := by
  have hderives : Derives options.maxDepth (tokens (String.ofList ps.flatten)) nodes :=
    (derives _ separated.map_filter_tokens).of_filter rfl
  have hparse : parse .standard options (.ofSource (String.ofList ps.flatten)) = .ok nodes :=
    Derives.parse_eq_ok hderives
  rw [Template.parse, hparse]

theorem parse_expressionSource
    (options : Options) {markup : String} (trimmed : Trimmed markup.toList)
    (hbrace : '}' ∉ markup.toList) :
    Template.parse .standard options (expressionSource markup) =
      .ok ⟨[.expression markup], options⟩ := by
  let piece := ['{', '{'] ++ [' '] ++ markup.toList ++ [' '] ++ ['}', '}']
  have hprinted : IsPrintedVariable markup.toList piece :=
    ⟨[' '], [' '], by decide, by decide, rfl⟩
  have hsource : expressionSource markup = String.ofList [piece].flatten := by
    rw [← String.toList_inj]
    simp [expressionSource, piece]
  rw [hsource]
  apply Source.Separated.parse_eq_ok (.marker (hprinted.isMarker hbrace) .nil)
  intro ts hts
  obtain ⟨t, rfl, ht⟩ := List.map_eq_singleton_iff.mp hts
  rw [← ht] at hprinted
  exact .single (.expression (hprinted.isVariableText trimmed))

/-- A piece that is one letter is a text. -/
theorem derives_letter
    {t : Token} {c : Char} (ht : t.text.toList = [c]) (m : Nat) :
    Derives m [t] [.text (String.ofList [c])] := by
  have htext : t.text = String.ofList [c] := by
    rw [← String.toList_inj, ht, String.toList_ofList]
  have hplain : Source.IsPlain t.text.toList := by
    rw [ht]
    refine ⟨List.cons_ne_nil c [], ?_, ?_⟩ <;> simp [Text.avoids_cons_iff, Text.avoids_nil]
  have hderives : Derives m [t] [.text t.text] := .single (.text (kind_of_isPlain hplain))
  rwa [htext] at hderives

theorem parse_choiceSource
    {options : Options} (hdepth : 1 ≤ options.maxDepth) {condition : String}
    (hcondition : (Opening.conditional condition).Printable) :
    Template.parse .standard options (choiceSource condition) =
      .ok ⟨[.conditional "if" condition [.text "T"] (some [.text "F"])], options⟩ := by
  let opening := "\x7b% ".toList ++ "if".toList ++ [' '] ++ condition.toList ++ " %\x7d".toList
  let separator := "\x7b% else %\x7d".toList
  let closing := "\x7b% endif %\x7d".toList
  have hopening : (Opening.conditional condition).PrintedAs opening :=
    .conditional ⟨[' '], [' '], [' '], by decide, by decide, by decide, by simp, by simp [opening]⟩
  have hseparator : IsPrintedTag "else".toList [] separator :=
    ⟨[' '], [' '], [], by decide, by decide, by decide, by decide, rfl⟩
  have hclosing : IsPrintedTag "endif".toList [] closing :=
    ⟨[' '], [' '], [], by decide, by decide, by decide, by decide, rfl⟩
  have hsource : choiceSource condition =
      String.ofList [opening, ['T'], separator, ['F'], closing].flatten := by
    rw [← String.toList_inj]
    simp [choiceSource, opening, separator, closing]
  have hend := separated_marker (hclosing.isMarker_of_name (by decide)) .nil
  have hsecond : Source.Separated (['F'] :: [closing]) :=
    separated_text (by decide) (fun _ => by decide) hend.1 hend.2
  have helse := separated_marker (hseparator.isMarker_of_name (by decide)) hsecond
  have hfirst : Source.Separated (['T'] :: [separator, ['F'], closing]) :=
    separated_text (by decide) (fun _ => by decide) helse.1 helse.2
  have hall := separated_marker (hopening.isMarker hcondition) hfirst
  rw [hsource]
  apply hall.1.parse_eq_ok
  intro ts hts
  simp only [List.map_eq_cons_iff, List.map_eq_nil_iff] at hts
  obtain ⟨t, _, rfl, ht, first, _, rfl, hfirst, s, _, rfl, hs, second, _, rfl, hsecond, e, _, rfl,
    he, rfl⟩ := hts
  obtain ⟨m, hm⟩ : ∃ m, options.maxDepth = m + 1 := ⟨options.maxDepth - 1, by omega⟩
  rw [← ht] at hopening
  rw [← hs] at hseparator
  rw [← he] at hclosing
  rw [hm]
  exact .choice (hopening.opens hcondition) (derives_letter hfirst m)
    (hseparator.isTag (by decide)) (derives_letter hsecond m) (hclosing.isTag (by decide)) .nil

/-! ## Rendering -/

/-- A list of one node renders to what the node emits. -/
theorem renderAll_singleton
    {n : Node} {text : String} {ctx : Context} (hi : ctx.interrupts = [])
    (hn : renderFrom n.render ctx = (.ok (.emitted text), ctx)) :
    renderFrom (renderAll [n]) ctx = (.ok text, ctx) := by
  rw [renderAll_cons n [] hi, renderFrom_recovering, hn]
  simp [renderAll, Except.map]

section

variable {options : Options} {root : Value}

theorem shows_expressionSource
    {markup : String} {v : Value} (trimmed : Trimmed markup.toList) (hbrace : '}' ∉ markup.toList)
    (hbar : '|' ∉ markup.toList) (hv : (Context.new root options).evaluate markup = .ok v) :
    Shows options root (expressionSource markup) v.display := by
  refine ⟨_, parse_expressionSource options trimmed hbrace, ?_⟩
  have htext : (Context.new root options).variableText markup = .ok v.display := by
    simp [Context.variableText, hbar, hv, Except.map]
  apply renderAll_singleton rfl
  simp [Node.render, renderFrom_map, htext, Except.map]

theorem shows_choiceSource
    (hdepth : 1 ≤ options.maxDepth) {condition : String} {holds : Bool}
    (hcondition : (Opening.conditional condition).Printable)
    (hholds : Condition.eval (.new root options) condition = .ok holds) :
    Shows options root (choiceSource condition) (if holds then "T" else "F") := by
  refine ⟨_, parse_choiceSource hdepth hcondition, ?_⟩
  have hletter (text : String) :
      renderFrom (renderAll [.text text]) (.new root options) = (.ok text, .new root options) :=
    renderAll_singleton rfl rfl
  apply renderAll_singleton rfl
  cases holds with
  | true => simp [Node.render, renderFrom_bind, renderFrom_map, hholds, hletter, Except.map]
  | false => simp [Node.render, renderFrom_bind, renderFrom_map, hholds, hletter, Except.map]

end

end Liquid
