import Mathlib.Data.List.Forall2
import Liquid.Proofs.Flow

/-!
# Two renderings side by side

Two bindings may be related in such a way that expressions come to the same over both, or else fail
over the first with one of some errors, and that the items of a loop keep them related.  Then so do
whole trees: two renderings are the same, or the first records such an error.  No condition, no loop
and no recovery loses it.
-/

namespace Liquid

/-! ## Computations -/

/-- Two computations come to the same, unless the first fails with one of some errors. -/
def AgreeUnless {α : Type} (p : Error → Prop) (x y : Except Error α) : Prop :=
  x = y ∨ ∃ e, p e ∧ x = .error e

namespace AgreeUnless

variable {α β : Type} {p : Error → Prop}

theorem refl (x : Except Error α) : AgreeUnless p x x :=
  .inl rfl

theorem bind
    {x y : Except Error α} {f g : α → Except Error β} (h : AgreeUnless p x y)
    (hnext : ∀ a, AgreeUnless p (f a) (g a)) :
    AgreeUnless p (x >>= f) (y >>= g) := by
  rcases h with rfl | ⟨e, he, rfl⟩
  · cases x with
    | error e => exact .refl (.error e)
    | ok a => exact hnext a
  · exact .inr ⟨e, he, rfl⟩

theorem map
    {x y : Except Error α} (f : α → β) (h : AgreeUnless p x y) :
    AgreeUnless p (x.map f) (y.map f) := by
  rcases h with rfl | ⟨e, he, rfl⟩
  · exact .refl _
  · exact .inr ⟨e, he, rfl⟩

end AgreeUnless

namespace Condition

variable {p : Error → Prop} {ctx ctx' : Context}

theorem agreeUnless_evalAll
    (h : ∀ test, AgreeUnless p (evalTest ctx test) (evalTest ctx' test))
    (tests : List (List String)) :
    AgreeUnless p (evalAll ctx tests) (evalAll ctx' tests) := by
  induction tests with
  | nil => exact .refl (.ok true)
  | cons test rest ih =>
      apply (h test).bind
      intro holds
      cases holds with
      | true => exact ih
      | false => exact .refl (.ok false)

/-- A test that is not reached in one context is not reached in the other. -/
theorem agreeUnless_eval
    (h : ∀ test, AgreeUnless p (evalTest ctx test) (evalTest ctx' test)) (condition : String) :
    AgreeUnless p (eval ctx condition) (eval ctx' condition) := by
  unfold eval
  induction alternatives condition with
  | nil => exact .refl (.ok false)
  | cons alternative rest ih =>
      apply (agreeUnless_evalAll h alternative).bind
      intro holds
      cases holds with
      | true => exact .refl (.ok true)
      | false => exact ih

end Condition

/-! ## Flows -/

namespace Flow

theorem errors_subset_andThen (f g : Flow) : f.errors ⊆ (f.andThen g).errors := by
  unfold andThen
  split
  · exact List.subset_append_left f.errors g.errors
  · exact List.Subset.refl f.errors

theorem errors_subset_loopThen (f g : Flow) : f.errors ⊆ (f.loopThen g).errors := by
  unfold loopThen
  split
  · exact List.Subset.refl f.errors
  · exact List.Subset.refl f.errors
  all_goals exact errors_subset_andThen f.settled g

/-- Some of these errors is among those of a flow. -/
def Tells (p : Error → Prop) (f : Flow) : Prop :=
  ∃ e ∈ f.errors, p e

/-- Two flows are the same, unless the first tells one of some errors. -/
def SameUnless (p : Error → Prop) (f g : Flow) : Prop :=
  f = g ∨ f.Tells p

variable {p : Error → Prop}

theorem Tells.mono
    {f g : Flow} (h : f.Tells p) (herrors : f.errors ⊆ g.errors) :
    g.Tells p := by
  obtain ⟨e, hmem, he⟩ := h
  exact ⟨e, herrors hmem, he⟩

theorem tells_ofOutcome
    {e : Error} (he : p e) (hrecoverable : e.isRecoverable) :
    (ofOutcome (.error e)).Tells p := by
  rw [ofOutcome_error hrecoverable]
  exact ⟨e, List.mem_singleton_self e, he⟩

namespace SameUnless

variable {f f' g g' : Flow}

theorem refl (f : Flow) : f.SameUnless p f :=
  .inl rfl

theorem ofOutcome
    (hp : ∀ e, p e → e.isRecoverable) {x y : Except Error String} (h : AgreeUnless p x y) :
    SameUnless p (.ofOutcome x) (.ofOutcome y) := by
  rcases h with rfl | ⟨e, he, rfl⟩
  · exact .refl _
  · exact .inr (tells_ofOutcome he (hp e he))

/-- A condition chooses between bodies that are the same, or its error is told. -/
theorem choose
    (hp : ∀ e, p e → e.isRecoverable) (hf : f.SameUnless p f') (hg : g.SameUnless p g')
    (x y : Except Error Bool) :
    AgreeUnless p x y → SameUnless p
      (match x with
        | .error e => .ofOutcome (.error e)
        | .ok true => f
        | .ok false => g)
      (match y with
        | .error e => .ofOutcome (.error e)
        | .ok true => f'
        | .ok false => g') := by
  rintro (rfl | ⟨e, he, rfl⟩)
  · split
    · exact .refl _
    · exact hf
    · exact hg
  · exact .inr (tells_ofOutcome he (hp e he))

theorem andThen
    (hf : f.SameUnless p f') (hg : g.SameUnless p g') :
    (f.andThen g).SameUnless p (f'.andThen g') := by
  rcases hf with rfl | hf
  · rcases hg with rfl | hg
    · exact .refl _
    · by_cases hend : f.ending = .normal
      · right
        apply hg.mono
        simp only [Flow.andThen, hend]
        exact List.subset_append_right f.errors g.errors
      · rw [andThen_of_ne hend, andThen_of_ne hend]
        exact .refl f
  · exact .inr (hf.mono (errors_subset_andThen f g))

theorem loopThen
    (hf : f.SameUnless p f') (hg : g.SameUnless p g') :
    (f.loopThen g).SameUnless p (f'.loopThen g') := by
  rcases hf with rfl | hf
  · unfold Flow.loopThen
    split
    · exact .refl f
    · exact .refl f.settled
    all_goals exact (refl f.settled).andThen hg
  · exact .inr (hf.mono (errors_subset_loopThen f g))

theorem loop
    {body body' : Value → Flow} {items items' : List Value}
    (h : List.Forall₂ (fun v v' => (body v).SameUnless p (body' v')) items items') :
    (loop body items).SameUnless p (loop body' items') := by
  induction h with
  | nil => exact .refl {}
  | cons hbody _ ih => exact hbody.loopThen ih

end SameUnless
end Flow

/-! ## Trees -/

/-- Related bindings, over which variables and conditions come to the same unless they fail with one
of some errors, and which stay related for all items of a loop. -/
structure Coupling (p : Error → Prop) (r : Bindings → Bindings → Prop) : Prop where
  recoverable : ∀ e, p e → e.isRecoverable
  text : ∀ {b b' : Bindings}, r b b' → ∀ markup,
    AgreeUnless p (b.context.variableText markup) (b'.context.variableText markup)
  condition : ∀ {b b' : Bindings}, r b b' → ∀ condition,
    AgreeUnless p (Condition.eval b.context condition) (Condition.eval b'.context condition)
  items : ∀ {b b' : Bindings}, r b b' → ∀ name collection,
    List.Forall₂ (fun v v' => r (b.bind name v) (b'.bind name v'))
      (b.context.lookup collection).items (b'.context.lookup collection).items

section

variable {p : Error → Prop} {r : Bindings → Bindings → Prop}

mutual

theorem Coupling.flow (h : Coupling p r) :
    ∀ (n : Node), n.StandardOver (fun _ => False) → ∀ {b b' : Bindings}, r b b' →
      (n.flow b).SameUnless p (n.flow b')
  | .text content, _, _, _, _ => .refl _
  | .expression markup, _, _, _, hb => .ofOutcome h.recoverable (h.text hb markup)
  | .conditional name condition body none, hn, b, b', hb => by
      rw [Node.flow, Node.flow]
      exact .choose h.recoverable (h.flowAll body hn hb) (.refl {}) _ _ (h.condition hb condition)
  | .conditional name condition body (some alternative), hn, b, b', hb => by
      rw [Node.flow, Node.flow]
      exact .choose h.recoverable (h.flowAll body hn.1 hb) (h.flowAll alternative hn.2 hb) _ _
        (h.condition hb condition)
  | .loop name item collection body, hn, b, b', hb => by
      rw [Node.flow, Node.flow]
      exact .loop ((h.items hb item collection).imp fun _ _ hitem => h.flowAll body hn hitem)
  | .comment name body, _, _, _, _ => .refl _
  | .interrupt name request, _, _, _, _ => .refl _
termination_by structural n => n

theorem Coupling.flowAll (h : Coupling p r) :
    ∀ (nodes : List Node), Node.AllStandard nodes → ∀ {b b' : Bindings}, r b b' →
      (Liquid.flowAll nodes b).SameUnless p (Liquid.flowAll nodes b')
  | [], _, _, _, _ => .refl _
  | n :: rest, hn, _, _, hb => (h.flow n hn.1 hb).andThen (h.flowAll rest hn.2 hb)
termination_by structural nodes => nodes

end

/-- Over related bindings a tree of standard tags is rendered to the same text, errors and
interrupts, unless the first rendering records one of the errors that may tell them apart. -/
theorem Coupling.renderAll
    (h : Coupling p r) {nodes : List Node} (hn : Node.AllStandard nodes) {data data' : Value}
    {options options' : Options}
    (hdata : r ⟨data, [], options.strict⟩ ⟨data', [], options'.strict⟩) :
    let result := renderFrom (Liquid.renderAll nodes) (.new data options)
    let result' := renderFrom (Liquid.renderAll nodes) (.new data' options')
    (result.1 = result'.1 ∧ result.2.errors = result'.2.errors ∧
        result.2.interrupts = result'.2.interrupts) ∨
      ∃ e ∈ result.2.errors, p e := by
  intro result result'
  obtain ⟨houtcome, herrors, hpending⟩ := renderAll_new_eq_flowAll hn data options
  obtain ⟨houtcome', herrors', hpending'⟩ := renderAll_new_eq_flowAll hn data' options'
  rcases h.flowAll nodes hn hdata with hflow | ⟨e, hmem, he⟩
  · left
    refine ⟨?_, ?_, ?_⟩
    · rw [houtcome, houtcome', hflow]
    · rw [herrors, herrors', hflow]
    · rw [hpending, hpending', hflow]
  · right
    refine ⟨e, ?_, he⟩
    rw [herrors]
    exact hmem

end

end Liquid
