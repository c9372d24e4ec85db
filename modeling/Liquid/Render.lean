import Liquid.Node
import Liquid.Condition

/-!
# Rendering

Nodes are rendered in order.  A pending interrupt ends a node list with the text it has so far; a
recoverable error is recorded and its wording takes the place of the node; a fatal error ends the
rendering.  Only a loop consumes interrupts.
-/

namespace Liquid

namespace RenderM

/-- A computation on the context that cannot change it. -/
def ofContext {α : Type} (f : Context → Except Error α) : RenderM α := do
  match f (← get) with
  | .ok a => pure a
  | .error e => throw e

end RenderM

/-- Runs a rendering from a context: its outcome, and the context that it leaves. -/
def renderFrom {α : Type} (x : RenderM α) (ctx : Context) : Except Error α × Context :=
  x.run.run ctx

section

variable {α β : Type} (ctx : Context)

@[simp] theorem renderFrom_pure (a : α) : renderFrom (pure a) ctx = (.ok a, ctx) := rfl

@[simp] theorem renderFrom_throw (e : Error) :
    renderFrom (throw e : RenderM α) ctx = (.error e, ctx) := rfl

@[simp] theorem renderFrom_get : renderFrom get ctx = (.ok ctx, ctx) := rfl

@[simp] theorem renderFrom_set (after : Context) :
    renderFrom (set after) ctx = (.ok (), after) := rfl

@[simp] theorem renderFrom_modify (f : Context → Context) :
    renderFrom (modify f) ctx = (.ok (), f ctx) := rfl

/-- The second rendering starts from what the first has left, unless the first fails. -/
theorem renderFrom_bind (x : RenderM α) (f : α → RenderM β) :
    renderFrom (x >>= f) ctx =
      match renderFrom x ctx with
      | (.ok a, after) => renderFrom (f a) after
      | (.error e, after) => (.error e, after) := by
  simp only [renderFrom, ExceptT.run_bind, StateT.run_bind]
  rcases x.run.run ctx with ⟨outcome, after⟩
  cases outcome <;> rfl

theorem renderFrom_map (f : α → β) (x : RenderM α) :
    renderFrom (f <$> x) ctx = ((renderFrom x ctx).1.map f, (renderFrom x ctx).2) := by
  simp only [renderFrom, ExceptT.run_map, StateT.run_map]
  rcases x.run.run ctx with ⟨outcome, after⟩
  cases outcome <;> rfl

/-- The handler starts from what the failure has left. -/
theorem renderFrom_tryCatch (x : RenderM α) (handler : Error → RenderM α) :
    renderFrom (tryCatch x handler) ctx =
      match renderFrom x ctx with
      | (.ok a, after) => (.ok a, after)
      | (.error e, after) => renderFrom (handler e) after := by
  rcases h : renderFrom x ctx with ⟨outcome, after⟩
  have hx : StateT.run x ctx = pure (outcome, after) := h
  show (ExceptT.tryCatch x handler).run.run ctx = _
  simp only [ExceptT.tryCatch, ExceptT.run_mk, StateT.run_bind, hx, pure_bind]
  cases outcome <;> rfl

@[simp] theorem renderFrom_ofContext (f : Context → Except Error α) :
    renderFrom (RenderM.ofContext f) ctx = (f ctx, ctx) := by
  simp only [RenderM.ofContext, renderFrom_bind, renderFrom_get]
  cases f ctx <;> rfl

end

/-- Renders with a local binding, which is removed afterwards whatever the outcome. -/
def withLocal (name : String) (v : Value) (body : RenderM String) : RenderM String :=
  ExceptT.mk fun ctx =>
    let (outcome, after) := renderFrom body (ctx.push name v)
    (outcome, after.pop)

@[simp] theorem renderFrom_withLocal (name : String) (v : Value) (body : RenderM String)
    (ctx : Context) :
    renderFrom (withLocal name v body) ctx =
      ((renderFrom body (ctx.push name v)).1, (renderFrom body (ctx.push name v)).2.pop) := rfl

/-- Takes the latest pending interrupt off the context. -/
def takeInterrupt : RenderM (Option Interrupt) := do
  let (i, ctx) := (← get).popInterrupt
  set ctx
  pure i

@[simp] theorem renderFrom_takeInterrupt (ctx : Context) :
    renderFrom takeInterrupt ctx = (.ok ctx.popInterrupt.1, ctx.popInterrupt.2) := rfl

/-- Renders a body once for each item.  After each item the interrupt that the body left, if any,
is consumed; a request to leave ends the loop. -/
def renderItems (item : String) (body : RenderM String) : List Value → RenderM String
  | [] => pure ""
  | v :: rest => do
    let text ← withLocal item v body
    if (← takeInterrupt) = some .leave then pure text
    else return text ++ (← renderItems item body rest)

/-- Turns a recoverable error into its inline text, and records it. -/
def recovering (x : RenderM Output) : RenderM Output :=
  tryCatch x fun e => do
    if e.isRecoverable then
      modify (·.record e)
      pure (.emitted e.inline)
    else throw e

/-- A recoverable error leaves its inline text and its record; all else passes. -/
theorem renderFrom_recovering (x : RenderM Output) (ctx : Context) :
    renderFrom (recovering x) ctx =
      match renderFrom x ctx with
      | (.ok output, after) => (.ok output, after)
      | (.error e, after) =>
        if e.isRecoverable then (.ok (.emitted e.inline), after.record e)
        else (.error e, after) := by
  rw [recovering, renderFrom_tryCatch]
  rcases renderFrom x ctx with ⟨outcome, after⟩
  cases outcome with
  | ok output => rfl
  | error e => by_cases h : e.isRecoverable <;> simp [h, renderFrom_map, Except.map]

/-- The items of a list; other values have none. -/
def Value.items : Value → List Value
  | .list items => items
  | _ => []

mutual

def Node.render : Node → RenderM Output
  | .text content => pure (.emitted content)
  | .expression markup => .emitted <$> RenderM.ofContext (·.variableText markup)
  | .conditional _ condition body none => do
    if ← RenderM.ofContext (Condition.eval · condition) then .emitted <$> renderAll body
    else pure (.emitted "")
  | .conditional _ condition body (some alternative) => do
    if ← RenderM.ofContext (Condition.eval · condition) then .emitted <$> renderAll body
    else .emitted <$> renderAll alternative
  | .loop _ item collection body => do
    let items := ((← get).lookup collection).items
    .emitted <$> renderItems item (renderAll body) items
  | .comment _ _ => pure (.emitted "")
  | .interrupt _ request => pure (.interrupt request)
  | .leaf _ render => render
  | .block _ wrap body => wrap (renderAll body)
termination_by structural n => n

/-- Renders nodes in order, up to the first interrupt. -/
def renderAll : List Node → RenderM String
  | [] => pure ""
  | node :: rest => do
    if (← get).hasInterrupt then pure ""
    else
      match ← recovering node.render with
      | .emitted text => return text ++ (← renderAll rest)
      | .interrupt request =>
        modify (·.pushInterrupt request)
        pure ""
termination_by structural l => l

end

end Liquid
