import Liquid.Proofs.Rendering
import Mathlib.Data.List.Chain

/-!
# Node lists one after another

Rendering two node lists joined together is rendering one and then the other.  Texts side by side
may be merged into one without a difference to what is rendered.
-/

namespace Liquid

/-- The second list is rendered from what the first has left.  If that is an interrupt, nothing of
the second is rendered. -/
theorem renderAll_append
    (nodes more : List Node) (ctx : Context) :
    renderFrom (renderAll (nodes ++ more)) ctx =
      match renderFrom (renderAll nodes) ctx with
      | (.ok text, mid) =>
        ((renderFrom (renderAll more) mid).1.map (text ++ ·), (renderFrom (renderAll more) mid).2)
      | (.error e, mid) => (.error e, mid) := by
  induction nodes generalizing ctx with
  | nil =>
      rcases h : renderFrom (renderAll more) ctx with ⟨outcome, after⟩
      cases outcome <;> simp [renderAll, h, Except.map]
  | cons n rest ih =>
      by_cases hi : ctx.interrupts = []
      · rw [List.cons_append, renderAll_cons n (rest ++ more) hi, renderAll_cons n rest hi]
        rcases renderFrom (recovering n.render) ctx with ⟨outcome, mid⟩
        cases outcome with
        | error e => rfl
        | ok output =>
            cases output with
            | interrupt request =>
                have hpending : (mid.pushInterrupt request).interrupts ≠ [] :=
                  List.cons_ne_nil request mid.interrupts
                simp [renderAll_of_pending more hpending, Except.map]
            | emitted text =>
                simp only [ih]
                rcases renderFrom (renderAll rest) mid with ⟨outcome, after⟩
                cases outcome with
                | error e => rfl
                | ok text' =>
                    cases h : (renderFrom (renderAll more) after).1 <;>
                      simp [h, Except.map, String.append_assoc]
      · rw [renderAll_of_pending (n :: rest ++ more) hi, renderAll_of_pending (n :: rest) hi]
        simp [renderAll_of_pending more hi, Except.map]

/-- Whatever its tags do to the context, a node list may be cut anywhere: its parts are rendered one
after the other, each from what the one before has left, up to the first that fails, which it does
only with a fatal error.  From a context in which an interrupt is pending nothing is rendered. -/
theorem renderAll_is_sequential (nodes more : List Node) (ctx : Context) :
    renderFrom (renderAll (nodes ++ more)) ctx =
        (match renderFrom (renderAll nodes) ctx with
        | (.error e, mid) => (.error e, mid)
        | (.ok text, mid) =>
          match renderFrom (renderAll more) mid with
          | (.error e, after) => (.error e, after)
          | (.ok text', after) => (.ok (text ++ text'), after)) ∧
      (∀ e, (renderFrom (renderAll (nodes ++ more)) ctx).1 = .error e → ∃ cause, e = .fatal cause) ∧
      (ctx.hasInterrupt → renderFrom (renderAll nodes) ctx = (.ok "", ctx)) := by
  refine ⟨?_, ?_, ?_⟩
  · rw [renderAll_append]
    rcases renderFrom (renderAll nodes) ctx with ⟨outcome, mid⟩
    cases outcome with
    | error e => rfl
    | ok text =>
        dsimp only
        rcases renderFrom (renderAll more) mid with ⟨outcome', after⟩
        cases outcome' with
        | error e => rfl
        | ok text' => rfl
  · intro e he
    exact Error.eq_fatal_of_not_isRecoverable (not_isRecoverable_of_renderAll he)
  · intro hpending
    apply renderAll_of_pending
    rintro hnone
    simp [Context.hasInterrupt, hnone] at hpending

/-- A tag that pushes two interrupts and still emits a text, at the end of the first part; the second
part would end the rendering if it were reached. -/
theorem renderAll_is_sequential_cut_after_interrupts :
    let nodes : List Node :=
      [.leaf "fails" (throw (.argument (.stated "bad"))),
        .leaf "shouts" do
          modify (·.pushInterrupt .next)
          modify (·.pushInterrupt .leave)
          pure (.emitted "!")]
    let more : List Node := [.leaf "halts" (throw (.fatal (.stated "halted")))]
    let ctx : Context := { root := .nil }
    let mid : Context :=
      { root := .nil
        interrupts := [.leave, .next]
        errors := [.argument (.stated "bad")] }
    renderFrom (renderAll nodes) ctx = (.ok "Liquid error: bad!", mid) ∧ mid.hasInterrupt ∧
      renderFrom (renderAll more) mid = (.ok "", mid) ∧
      renderFrom (renderAll (nodes ++ more)) ctx = (.ok "Liquid error: bad!", mid) := by
  intro nodes more ctx mid
  have hfirst : renderFrom (renderAll nodes) ctx = (.ok "Liquid error: bad!", mid) := by
    rfl
  have hpending : mid.hasInterrupt := by
    rfl
  obtain ⟨-, -, hstopped⟩ := renderAll_is_sequential more [] mid
  obtain ⟨hboth, -, -⟩ := renderAll_is_sequential nodes more ctx
  rw [hfirst] at hboth
  simp only [hstopped hpending, String.append_empty] at hboth
  exact ⟨hfirst, hpending, hstopped hpending, hboth⟩

/-! ## Texts side by side -/

namespace Node

def isText : Node → Bool
  | text _ => true
  | _ => false

/-- A node in front of others; two texts that would stand side by side become one. -/
def consMerged : Node → List Node → List Node
  | text content, text next :: rest => text (content ++ next) :: rest
  | n, rest => n :: rest

/-- The nodes with every run of texts merged into one. -/
def mergeTexts (nodes : List Node) : List Node :=
  nodes.foldr consMerged []

/-- No two texts stand side by side. -/
def Apart (nodes : List Node) : Prop :=
  nodes.IsChain fun n next => ¬(n.isText ∧ next.isText)

theorem mergeTexts_append (nodes more : List Node) :
    mergeTexts (nodes ++ more) = nodes.foldr consMerged (mergeTexts more) :=
  List.foldr_append

theorem consMerged_of_apart
    {n : Node} {rest : List Node} (h : Apart (n :: rest)) :
    consMerged n rest = n :: rest := by
  unfold consMerged
  split
  · next => exact absurd ⟨rfl, rfl⟩ h.rel
  · rfl

/-- Where no texts stand side by side there is nothing to merge. -/
theorem mergeTexts_of_apart
    {nodes : List Node} (h : Apart nodes) :
    mergeTexts nodes = nodes := by
  induction nodes with
  | nil => rfl
  | cons n rest ih =>
      change consMerged n (mergeTexts rest) = n :: rest
      rw [ih h.tail, consMerged_of_apart h]

theorem consMerged_text_text (content next : String) (rest : List Node) :
    consMerged (text content) (consMerged (text next) rest) =
      consMerged (text (content ++ next)) rest := by
  cases rest with
  | nil => rfl
  | cons n rest => cases n <;> simp [consMerged, String.append_assoc]

end Node

theorem renderAll_text_text (content next : String) (rest : List Node) (ctx : Context) :
    renderFrom (renderAll (.text content :: .text next :: rest)) ctx =
      renderFrom (renderAll (.text (content ++ next) :: rest)) ctx := by
  by_cases hi : ctx.interrupts = []
  · have htext (s : String) : renderFrom (recovering (Node.text s).render) ctx =
        (.ok (.emitted s), ctx) := by
      simp [Node.render, renderFrom_recovering]
    rw [renderAll_cons _ _ hi, renderAll_cons _ _ hi, htext, htext]
    simp only [renderAll_cons (.text next) rest hi, htext]
    cases (renderFrom (renderAll rest) ctx).1 <;> simp [Except.map, String.append_assoc]
  · rw [renderAll_of_pending _ hi, renderAll_of_pending _ hi]

/-- What a node list renders follows from its first node and from what the others render. -/
theorem renderAll_cons_congr
    (n : Node) {rest rest' : List Node}
    (h : ∀ ctx, renderFrom (renderAll rest) ctx = renderFrom (renderAll rest') ctx)
    (ctx : Context) :
    renderFrom (renderAll (n :: rest)) ctx = renderFrom (renderAll (n :: rest')) ctx := by
  by_cases hi : ctx.interrupts = []
  · simp only [renderAll_cons n _ hi, h]
  · rw [renderAll_of_pending _ hi, renderAll_of_pending _ hi]

theorem renderAll_consMerged (n : Node) (rest : List Node) (ctx : Context) :
    renderFrom (renderAll (Node.consMerged n rest)) ctx =
      renderFrom (renderAll (n :: rest)) ctx := by
  unfold Node.consMerged
  split
  · exact (renderAll_text_text _ _ _ ctx).symm
  · rfl

/-- Merging texts makes no difference to what is rendered. -/
theorem renderAll_mergeTexts (nodes : List Node) (ctx : Context) :
    renderFrom (renderAll (Node.mergeTexts nodes)) ctx = renderFrom (renderAll nodes) ctx := by
  induction nodes generalizing ctx with
  | nil => rfl
  | cons n rest ih =>
      calc renderFrom (renderAll (Node.mergeTexts (n :: rest))) ctx
          = renderFrom (renderAll (n :: Node.mergeTexts rest)) ctx := renderAll_consMerged _ _ ctx
        _ = renderFrom (renderAll (n :: rest)) ctx := renderAll_cons_congr n ih ctx

end Liquid
