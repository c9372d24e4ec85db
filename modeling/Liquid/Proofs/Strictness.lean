import Liquid.Proofs.Divergence

/-!
# Strict variables

Where a variable that is not found is an error, a tree of standard tags is rendered just as where it
is `nil`, up to the first such error.  No condition, no loop and no recovery loses that error: it is
among those that are recorded.
-/

namespace Liquid

/-- The bindings with variables that must be found, or need not be. -/
def Bindings.withStrict (b : Bindings) (strict : Bool) : Bindings :=
  { b with strict := strict }

/-! ## Variables and conditions -/

/-- Two computations come to the same, unless the first fails at a variable that is not found. -/
def SameOrUndefined {α : Type} (x y : Except Error α) : Prop :=
  x = y ∨ ∃ path, x = .error (.standard (.undefinedVariable path))

def Error.IsUndefinedVariable (e : Error) : Prop :=
  ∃ path, e = .standard (.undefinedVariable path)

theorem SameOrUndefined.agreeUnless
    {α : Type} {x y : Except Error α} (h : SameOrUndefined x y) :
    AgreeUnless Error.IsUndefinedVariable x y := by
  rcases h with h | ⟨path, h⟩
  · exact .inl h
  · exact .inr ⟨_, ⟨path, rfl⟩, h⟩

section

variable (b : Bindings)

theorem Context.find?_withStrict (path : String) :
    (b.withStrict true).context.find? path = (b.withStrict false).context.find? path := by
  have hbinding (name : String) :
      (b.withStrict true).context.binding? name = (b.withStrict false).context.binding? name := rfl
  unfold find?
  simp only [hbinding]

theorem sameOrUndefined_evaluate (expr : String) :
    SameOrUndefined ((b.withStrict true).context.evaluate expr)
      ((b.withStrict false).context.evaluate expr) := by
  simp only [Context.evaluate, Context.find?_withStrict]
  split
  · exact .inl rfl
  · split
    · exact .inl rfl
    · exact .inr ⟨Text.trim expr, rfl⟩

theorem agreeUnless_evaluate (expr : String) :
    AgreeUnless Error.IsUndefinedVariable ((b.withStrict true).context.evaluate expr)
      ((b.withStrict false).context.evaluate expr) :=
  (sameOrUndefined_evaluate b expr).agreeUnless

theorem agreeUnless_variableText (markup : String) :
    AgreeUnless Error.IsUndefinedVariable ((b.withStrict true).context.variableText markup)
      ((b.withStrict false).context.variableText markup) := by
  unfold Context.variableText
  split
  · exact .refl _
  · exact (agreeUnless_evaluate b markup).map Value.display

theorem agreeUnless_evalTest (test : List String) :
    AgreeUnless Error.IsUndefinedVariable (Condition.evalTest (b.withStrict true).context test)
      (Condition.evalTest (b.withStrict false).context test) := by
  unfold Condition.evalTest
  split
  · next operand => exact (agreeUnless_evaluate b operand).map Value.isTruthy
  · next left op right =>
      apply (agreeUnless_evaluate b left).bind
      intro v
      apply (agreeUnless_evaluate b right).bind
      intro w
      exact .refl (compareBy op v w)
  · exact .refl _

end

/-! ## Trees -/

/-- Strict bindings are coupled with lenient ones. -/
theorem coupling_withStrict :
    Coupling Error.IsUndefinedVariable fun strict lenient =>
      ∃ b : Bindings, strict = b.withStrict true ∧ lenient = b.withStrict false where
  recoverable := by
    rintro _ ⟨path, rfl⟩
    rfl
  text := by
    rintro _ _ ⟨b, rfl, rfl⟩ markup
    exact agreeUnless_variableText b markup
  condition := by
    rintro _ _ ⟨b, rfl, rfl⟩ condition
    exact Condition.agreeUnless_eval (agreeUnless_evalTest b) condition
  items := by
    rintro _ _ ⟨b, rfl, rfl⟩ name collection
    -- The collection is looked up in the same way in both modes: a loop over nothing is no error.
    have hitems : (b.withStrict true).context.lookup collection =
        (b.withStrict false).context.lookup collection := by
      rw [Context.lookup, Context.lookup, Context.find?_withStrict]
    rw [hitems]
    exact List.forall₂_same.mpr fun v _ => ⟨b.bind name v, rfl, rfl⟩

namespace Flow

/-- The error of a variable that is not found is among those of a flow. -/
def TellsUndefined (f : Flow) : Prop :=
  ∃ path, .standard (.undefinedVariable path) ∈ f.errors

/-- Two flows are the same, unless the first tells that a variable is not found. -/
def SameOrTells (f g : Flow) : Prop :=
  f = g ∨ f.TellsUndefined

end Flow

theorem flowAll_sameOrTells
    (nodes : List Node) (hn : Node.AllStandard nodes) (b : Bindings) :
    (flowAll nodes (b.withStrict true)).SameOrTells (flowAll nodes (b.withStrict false)) := by
  rcases coupling_withStrict.flowAll nodes hn ⟨b, rfl, rfl⟩ with hsame | ⟨_, hmem, path, rfl⟩
  · exact .inl hsame
  · exact .inr ⟨path, hmem⟩

/-- A tree of standard tags over which strict variables make any difference, to its text, to the
errors or to the interrupts, tells in its strict rendering that a variable is not found; without an
error of that kind the two renderings are the same. -/
theorem strict_only_adds_errors
    {nodes : List Node} (hn : Node.AllStandard nodes) (data : Value) (options : Options) :
    let strict := renderFrom (renderAll nodes) (.new data { options with strict := true })
    let lenient := renderFrom (renderAll nodes) (.new data { options with strict := false })
    let same := strict.1 = lenient.1 ∧ strict.2.errors = lenient.2.errors ∧
      strict.2.interrupts = lenient.2.interrupts
    ((∀ e ∈ strict.2.errors, e.kind ≠ .standard) → same) ∧
      (¬same → ∃ path, .standard (.undefinedVariable path) ∈ strict.2.errors) := by
  intro strict lenient same
  obtain ⟨houtcome, herrors, hpending⟩ :=
    renderAll_new_eq_flowAll hn data { options with strict := true }
  obtain ⟨houtcome', herrors', hpending'⟩ :=
    renderAll_new_eq_flowAll hn data { options with strict := false }
  have hcases : same ∨ ∃ path, .standard (.undefinedVariable path) ∈ strict.2.errors := by
    rcases flowAll_sameOrTells nodes hn ⟨data, [], true⟩ with hsame | ⟨path, hpath⟩
    · left
      have hflow : flowAll nodes ⟨data, [], true⟩ = flowAll nodes ⟨data, [], false⟩ := hsame
      refine ⟨?_, ?_, ?_⟩
      · rw [houtcome, houtcome', hflow]
      · rw [herrors, herrors', hflow]
      · rw [hpending, hpending', hflow]
    · right
      refine ⟨path, ?_⟩
      rw [herrors]
      exact hpath
  constructor
  · intro hnone
    rcases hcases with hsame | ⟨path, hpath⟩
    · exact hsame
    · exact absurd rfl (hnone _ hpath)
  · intro hdiffer
    exact hcases.resolve_left hdiffer

/-- A variable that is not found stands in a condition behind an operand that holds for all items of
one list, and for none of another. -/
theorem strict_only_adds_errors_short_circuit :
    let nodes : List Node :=
      [.loop "for" "x" "rows"
        [.conditional "if" "x or missing" [.text "+", .interrupt "continue" .next]
          (some [.text "-"]), .expression "x | upcase"]]
    let data : Value := .map [("rows", .list [.bool true, .int 1])]
    let data' : Value := .map [("rows", .list [.bool false, .bool true])]
    let strict (v : Value) := renderFrom (renderAll nodes) (.new v { strict := true })
    let lenient (v : Value) := renderFrom (renderAll nodes) (.new v {})
    let same (v : Value) := (strict v).1 = (lenient v).1 ∧
      (strict v).2.errors = (lenient v).2.errors ∧
        (strict v).2.interrupts = (lenient v).2.interrupts
    Node.AllStandard nodes ∧
      ((∀ e ∈ (strict data).2.errors, e.kind ≠ .standard) ∧ same data) ∧
      (¬same data' ∧ ∃ path, .standard (.undefinedVariable path) ∈ (strict data').2.errors) ∧
      (strict data').2.errors.map Error.message =
        ["undefined variable missing", "filters are not supported: x | upcase"] := by
  intro nodes data data' strict lenient same
  have hn : Node.AllStandard nodes := by
    simp [nodes, Node.AllStandardOver, Node.StandardOver]
  have hnone : ∀ e ∈ (strict data).2.errors, e.kind ≠ .standard := by
    decide +kernel
  have hdiffer : ¬same data' := by
    intro hsame
    have htext : (strict data').1.toOption = (lenient data').1.toOption :=
      congrArg Except.toOption hsame.1
    exact absurd htext (by decide +kernel)
  have hmessages : (strict data').2.errors.map Error.message =
      ["undefined variable missing", "filters are not supported: x | upcase"] := by
    decide +kernel
  obtain ⟨hsame, -⟩ := strict_only_adds_errors hn data {}
  obtain ⟨-, htells⟩ := strict_only_adds_errors hn data' {}
  exact ⟨hn, ⟨hnone, hsame hnone⟩, ⟨hdiffer, htells hdiffer⟩, hmessages⟩

end Liquid
