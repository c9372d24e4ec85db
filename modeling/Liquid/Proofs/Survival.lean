import Liquid.Proofs.Composition

/-!
# Renderings that do not fail

Variables and conditions fail only in ways that a rendering survives.  So a tree of standard tags is
rendered to its end in every context, unless a leaf in it ends the rendering.
-/

namespace Liquid

/-- A computation that fails, if at all, with an error that a rendering survives. -/
def Recovers {α : Type} (x : Except Error α) : Prop :=
  ∀ e, x = .error e → e.isRecoverable

namespace Recovers

variable {α β : Type}

theorem ok (a : α) : Recovers (.ok a) := by
  intro e h
  exact absurd h (by simp)

theorem error
    {e : Error} (he : e.isRecoverable) :
    Recovers (.error e : Except Error α) := by
  intro e' h
  obtain rfl := Except.error.inj h
  exact he

theorem bind
    {x : Except Error α} {f : α → Except Error β} (hx : Recovers x) (hf : ∀ a, Recovers (f a)) :
    Recovers (x >>= f) := by
  cases x with
  | error e => exact .error (hx e rfl)
  | ok a => exact hf a

theorem map
    {x : Except Error α} (f : α → β) (hx : Recovers x) :
    Recovers (x.map f) := by
  cases x with
  | error e => exact .error (hx e rfl)
  | ok a => exact .ok (f a)

end Recovers

/-! ## Variables and conditions -/

theorem recovers_evaluate (ctx : Context) (expr : String) : Recovers (ctx.evaluate expr) := by
  simp only [Context.evaluate]
  cases Value.ofLiteral? (Text.trim expr) with
  | some v => exact .ok v
  | none =>
      cases ctx.find? (Text.trim expr) with
      | some v => exact .ok v
      | none =>
          cases ctx.strict with
          | true => exact .error rfl
          | false => exact .ok Value.nil

theorem recovers_variableText (ctx : Context) (markup : String) :
    Recovers (ctx.variableText markup) := by
  unfold Context.variableText
  by_cases hfilter : markup.toList.contains '|'
  · rw [if_pos hfilter]
    exact .error rfl
  · rw [if_neg hfilter]
    exact (recovers_evaluate ctx markup).map Value.display

theorem recovers_ordered (holds : Ordering → Bool) (a b : Value) :
    Recovers (Value.ordered holds a b) := by
  unfold Value.ordered
  cases a.compare? b with
  | some o => exact .ok (holds o)
  | none => exact .error rfl

theorem recovers_compareBy (op : String) (a b : Value) : Recovers (compareBy op a b) := by
  unfold compareBy
  cases Operator.ofText? op with
  | none => exact .error rfl
  | some op =>
      cases op with
      | equal | unequal | contains => exact .ok _
      | less | greater | atMost | atLeast => exact recovers_ordered _ a b

theorem recovers_evalTest (ctx : Context) (parts : List String) :
    Recovers (Condition.evalTest ctx parts) := by
  unfold Condition.evalTest
  split
  · next operand => exact (recovers_evaluate ctx operand).map Value.isTruthy
  · next left op right =>
      apply (recovers_evaluate ctx left).bind
      intro a
      apply (recovers_evaluate ctx right).bind
      intro b
      exact recovers_compareBy op a b
  · exact .error rfl

theorem recovers_evalAll (ctx : Context) (tests : List (List String)) :
    Recovers (Condition.evalAll ctx tests) := by
  induction tests with
  | nil => exact .ok true
  | cons test rest ih =>
      apply (recovers_evalTest ctx test).bind
      intro holds
      cases holds with
      | true => exact ih
      | false => exact .ok false

theorem recovers_evalAny (ctx : Context) (alternatives : List (List (List String))) :
    Recovers (Condition.evalAny ctx alternatives) := by
  induction alternatives with
  | nil => exact .ok false
  | cons alternative rest ih =>
      apply (recovers_evalAll ctx alternative).bind
      intro holds
      cases holds with
      | true => exact .ok true
      | false => exact ih

theorem recovers_eval (ctx : Context) (s : String) : Recovers (Condition.eval ctx s) :=
  recovers_evalAny ctx (Condition.alternatives s)

/-! ## Renderings -/

/-- A rendering that fails, if at all, with an error that the rendering around it survives. -/
def Survives {α : Type} (x : RenderM α) : Prop :=
  ∀ ctx, Recovers (renderFrom x ctx).1

namespace Survives

variable {α β : Type}

theorem ofContext
    {f : Context → Except Error α} (h : ∀ ctx, Recovers (f ctx)) :
    Survives (RenderM.ofContext f) := by
  intro ctx
  rw [renderFrom_ofContext]
  exact h ctx

theorem bind
    {x : RenderM α} {f : α → RenderM β} (hx : Survives x) (hf : ∀ a, Survives (f a)) :
    Survives (x >>= f) := by
  intro ctx
  have hfirst := hx ctx
  rw [renderFrom_bind]
  rcases hout : renderFrom x ctx with ⟨outcome, after⟩
  rw [hout] at hfirst
  cases outcome with
  | error e => exact .error (hfirst e rfl)
  | ok a => exact hf a after

theorem recovering
    {x : RenderM Output} (h : Survives x) :
    Survives (recovering x) := by
  intro ctx
  have hx := h ctx
  rw [renderFrom_recovering]
  rcases hout : renderFrom x ctx with ⟨outcome, after⟩
  rw [hout] at hx
  cases outcome with
  | ok output => exact .ok output
  | error e => simp [hx e rfl, Recovers.ok]

end Survives

theorem compositional_survives : Compositional Survives where
  pure a := fun _ => .ok a
  get := fun ctx => .ok ctx
  variableText markup := .ofContext fun ctx => recovers_variableText ctx markup
  condition s := .ofContext fun ctx => recovers_eval ctx s
  pushInterrupt _ := fun _ => .ok ()
  takeInterrupt := fun ctx => .ok ctx.popInterrupt.1
  bind := .bind
  withLocal {name v _} h := fun ctx => h (ctx.push name v)
  recovering := .recovering

/-- A tree of standard tags is rendered to its end, unless a leaf in it ends the rendering. -/
theorem exists_renderAll_eq_ok
    {nodes : List Node} (h : Node.AllStandardOver Survives nodes) (ctx : Context) :
    ∃ text after, renderFrom (renderAll nodes) ctx = (.ok text, after) := by
  rcases hout : renderFrom (renderAll nodes) ctx with ⟨outcome, after⟩
  cases outcome with
  | ok text => exact ⟨text, after, rfl⟩
  | error e =>
      have houtcome : (renderFrom (renderAll nodes) ctx).1 = .error e := congrArg Prod.fst hout
      exact absurd (compositional_survives.renderAll nodes h ctx e houtcome)
        (not_isRecoverable_of_renderAll houtcome)

end Liquid
