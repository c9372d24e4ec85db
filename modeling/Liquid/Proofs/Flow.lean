import Liquid.Proofs.Conditions
import Liquid.Proofs.Rendering
import Liquid.Proofs.Tree

/-!
# Rendering without an interrupt stack

A second evaluator of trees.  It has neither a stack of interrupts nor a scope that changes: the
bindings are an argument, and what a node list comes to is its text so far, the errors recovered on
the way, and how the list ends.  A request to the loop around it ends every node list up to the body
of that loop.  Rendering agrees with it from every context in which no interrupt is pending.
-/

namespace Liquid

/-- What an expression can see: the data, the local bindings, and whether a variable that is not
found is an error. -/
structure Bindings where
  root : Value
  locals : List (String × Value)
  strict : Bool

def Bindings.bind (b : Bindings) (name : String) (v : Value) : Bindings :=
  { b with locals := (name, v) :: b.locals }

/-- The fresh context that shows some bindings. -/
def Bindings.context (b : Bindings) : Context :=
  { root := b.root, locals := b.locals, strict := b.strict }

def Context.bindings (ctx : Context) : Bindings :=
  ⟨ctx.root, ctx.locals, ctx.strict⟩

/-- How a node list ends: with its last node, with a request to the loop around it, or with the
cause of a fatal error. -/
inductive Ending where
  | normal
  | interrupted (request : Interrupt)
  | fatal (cause : Cause)

/-- What a node list comes to: the text so far, the errors recovered on the way, in order, and how
the list ends. -/
structure Flow where
  text : String := ""
  errors : List Error := []
  ending : Ending := .normal

namespace Flow

/-- The flow of a text or of an error.  A fatal error ends the flow; the wording of any other error
takes the place of the text. -/
def ofOutcome : Except Error String → Flow
  | .ok text => { text := text }
  | .error (.fatal cause) => { ending := .fatal cause }
  | .error e => { text := e.inline, errors := [e] }

theorem ofOutcome_error
    {e : Error} (he : e.isRecoverable) :
    ofOutcome (.error e) = { text := e.inline, errors := [e] } := by
  cases e with
  | fatal cause => simp [Error.isRecoverable, Error.kind] at he
  | malformed cause line => rfl
  | argument cause => rfl
  | standard cause => rfl

/-- One flow after another, which is dropped unless the first ends normally. -/
def andThen (f g : Flow) : Flow :=
  match f.ending with
  | .normal => ⟨f.text ++ g.text, f.errors ++ g.errors, g.ending⟩
  | _ => f

/-- The flow as it is where its request has been taken. -/
def settled (f : Flow) : Flow :=
  { f with ending := .normal }

/-- The flow of a loop body for one item, and after it that of the items left.  The loop takes the
requests of its body. -/
def loopThen (f g : Flow) : Flow :=
  match f.ending with
  | .fatal _ => f
  | .interrupted .leave => f.settled
  | .interrupted .next | .normal => f.settled.andThen g

/-- The flow of a loop whose body has the given flow for each item. -/
def loop (body : Value → Flow) : List Value → Flow
  | [] => {}
  | v :: rest => (body v).loopThen (loop body rest)

def outcome (f : Flow) : Except Error String :=
  match f.ending with
  | .fatal cause => .error (.fatal cause)
  | _ => .ok f.text

def pending (f : Flow) : List Interrupt :=
  match f.ending with
  | .interrupted request => [request]
  | _ => []

def after (f : Flow) (ctx : Context) : Context :=
  { ctx with errors := ctx.errors ++ f.errors, interrupts := f.pending }

end Flow

mutual

/-- The flow of a node.  A leaf is asked for what it yields where the bindings are all there is; a
block that is no standard tag has no flow and is passed over. -/
def Node.flow : Node → Bindings → Flow
  | .text content, _ => { text := content }
  | .expression markup, b => .ofOutcome (b.context.variableText markup)
  | .conditional _ condition body none, b =>
    match Condition.eval b.context condition with
    | .error e => .ofOutcome (.error e)
    | .ok true => flowAll body b
    | .ok false => {}
  | .conditional _ condition body (some alternative), b =>
    match Condition.eval b.context condition with
    | .error e => .ofOutcome (.error e)
    | .ok true => flowAll body b
    | .ok false => flowAll alternative b
  | .loop _ item collection body, b =>
    .loop (fun v => flowAll body (b.bind item v)) (b.context.lookup collection).items
  | .comment _ _, _ => {}
  | .interrupt _ request, _ => { ending := .interrupted request }
  | .leaf _ render, b =>
    match (renderFrom render b.context).1 with
    | .ok (.emitted text) => { text := text }
    | .ok (.interrupt request) => { ending := .interrupted request }
    | .error e => .ofOutcome (.error e)
  | .block _ _ _, _ => {}
termination_by structural n => n

def flowAll : List Node → Bindings → Flow
  | [], _ => {}
  | n :: rest, b => (n.flow b).andThen (flowAll rest b)
termination_by structural l => l

end

/-- A rendering that only looks at the bindings: what it yields follows from them, and it leaves the
context as it is. -/
def OnlyLooks (render : RenderM Output) : Prop :=
  ∃ f : Bindings → Except Error Output, ∀ ctx, renderFrom render ctx = (f ctx.bindings, ctx)

/-! ## What expressions can see -/

theorem Context.find?_bindings (ctx : Context) (path : String) :
    ctx.bindings.context.find? path = ctx.find? path := rfl

theorem Context.lookup_bindings (ctx : Context) (path : String) :
    ctx.bindings.context.lookup path = ctx.lookup path := rfl

theorem Context.evaluate_bindings (ctx : Context) (expr : String) :
    ctx.bindings.context.evaluate expr = ctx.evaluate expr := by
  simp only [evaluate, find?_bindings]
  rfl

theorem Context.variableText_bindings (ctx : Context) (markup : String) :
    ctx.bindings.context.variableText markup = ctx.variableText markup := by
  simp only [variableText, evaluate_bindings]

theorem Condition.eval_bindings (ctx : Context) (s : String) :
    eval ctx.bindings.context s = eval ctx s :=
  eval_congr fun operand _ => ctx.evaluate_bindings operand

/-! ## What a flow leaves -/

namespace Flow

@[simp] theorem bindings_after (f : Flow) (ctx : Context) :
    (f.after ctx).bindings = ctx.bindings := rfl

@[simp] theorem interrupts_after (f : Flow) (ctx : Context) :
    (f.after ctx).interrupts = f.pending := rfl

theorem after_empty
    {ctx : Context} (hi : ctx.interrupts = []) :
    after {} ctx = ctx := by
  cases ctx
  simp_all [after, pending]

/-- A flow that ends normally leaves what the flow after it starts from. -/
theorem after_andThen
    {f : Flow} (hf : f.ending = .normal) (g : Flow) (ctx : Context) :
    (f.andThen g).after ctx = g.after (f.after ctx) := by
  simp [andThen, after, pending, hf]

theorem andThen_of_ne
    {f : Flow} (hf : f.ending ≠ .normal) (g : Flow) :
    f.andThen g = f := by
  unfold andThen
  split
  · next hend => exact absurd hend hf
  · rfl

theorem outcome_andThen
    {f : Flow} (hf : f.ending = .normal) (g : Flow) :
    (f.andThen g).outcome = g.outcome.map (f.text ++ ·) := by
  cases hg : g.ending with
  | normal => simp [andThen, outcome, hf, hg, Except.map]
  | interrupted request => simp [andThen, outcome, hf, hg, Except.map]
  | fatal cause => simp [andThen, outcome, hf, hg, Except.map]

end Flow

/-! ## One node -/

/-- A node with a given flow yields its text or its fatal error and leaves what the flow leaves, or
else it makes the request with which the flow ends and has done nothing yet. -/
def Flow.Yields (f : Flow) (ctx : Context) (result : Except Error Output × Context) : Prop :=
  result = (f.outcome.map .emitted, f.after ctx) ∨
    ∃ request, f = { ending := .interrupted request } ∧ result = (.ok (.interrupt request), ctx)

/-- The errors of a flow are fatal, so that recovering does nothing to them. -/
theorem renderFrom_recovering_of_flow
    {x : RenderM Output} {f : Flow} {ctx : Context}
    (hx : renderFrom x ctx = (f.outcome.map .emitted, f.after ctx)) :
    renderFrom (recovering x) ctx = (f.outcome.map .emitted, f.after ctx) := by
  rw [renderFrom_recovering, hx]
  cases hf : f.ending with
  | normal => simp [Flow.outcome, hf, Except.map]
  | interrupted request => simp [Flow.outcome, hf, Except.map]
  | fatal cause => simp [Flow.outcome, hf, Except.map, Error.isRecoverable, Error.kind]

/-- Recovering an error that is found by looking leaves its wording and its record, or the error
itself if it is fatal. -/
theorem renderFrom_recovering_of_outcome
    {x : RenderM Output} {r : Except Error String} {ctx : Context}
    (hi : ctx.interrupts = [])
    (hx : renderFrom x ctx = (r.map .emitted, ctx)) :
    renderFrom (recovering x) ctx =
      ((Flow.ofOutcome r).outcome.map .emitted, (Flow.ofOutcome r).after ctx) := by
  rw [renderFrom_recovering, hx]
  obtain ⟨root, locals, interrupts, errors, strict⟩ := ctx
  obtain rfl : interrupts = [] := hi
  cases r with
  | ok text => simp [Flow.ofOutcome, Flow.outcome, Flow.after, Flow.pending, Except.map]
  | error e =>
      by_cases he : e.isRecoverable
      · rw [Flow.ofOutcome_error he]
        simp [Flow.outcome, Flow.after, Flow.pending, Except.map, Context.record, he]
      · obtain ⟨cause, rfl⟩ := Error.eq_fatal_of_not_isRecoverable he
        simp [Flow.ofOutcome, Flow.outcome, Flow.after, Flow.pending, Except.map, he]

/-! ## Node lists and loops -/

theorem renderAll_cons_of_yields
    {n : Node} {rest : List Node} {f g : Flow} {ctx : Context} (hi : ctx.interrupts = [])
    (hn : f.Yields ctx (renderFrom (recovering n.render) ctx))
    (hrest : f.ending = .normal →
      renderFrom (renderAll rest) (f.after ctx) = (g.outcome, g.after (f.after ctx))) :
    renderFrom (renderAll (n :: rest)) ctx = ((f.andThen g).outcome, (f.andThen g).after ctx) := by
  rw [renderAll_cons n rest hi]
  rcases hn with hn | ⟨request, rfl, hn⟩
  · rw [hn]
    cases hf : f.ending with
    | normal =>
        have hout : f.outcome = .ok f.text := by simp [Flow.outcome, hf]
        rw [Flow.after_andThen hf, Flow.outcome_andThen hf, hout]
        simp only [Except.map, hrest hf]
    | interrupted request =>
        have hout : f.outcome = .ok f.text := by simp [Flow.outcome, hf]
        have hpending : (f.after ctx).interrupts ≠ [] := by simp [Flow.pending, hf]
        rw [Flow.andThen_of_ne (by simp [hf]), hout]
        simp [Except.map, renderAll_of_pending rest hpending]
    | fatal cause =>
        rw [Flow.andThen_of_ne (by simp [hf])]
        simp [Flow.outcome, hf, Except.map]
  · rw [hn]
    simp [Flow.andThen, Flow.outcome, Flow.after, Flow.pending, Context.pushInterrupt, hi]

/-- After the body of a loop its binding is gone, and so is the request of the body. -/
theorem Flow.after_push_pop
    (f : Flow) (ctx : Context) (item : String) (v : Value) :
    (f.after (ctx.push item v)).pop.popInterrupt.2 = f.settled.after ctx := by
  obtain ⟨text, errors, ending⟩ := f
  cases ending <;> rfl

theorem renderItems_of_flow
    (item : String) {body : RenderM String} {bodyFlow : Value → Flow} {b : Bindings}
    (hbody : ∀ (v : Value) (ctx : Context), ctx.interrupts = [] → ctx.bindings = b →
      renderFrom body (ctx.push item v) =
        ((bodyFlow v).outcome, (bodyFlow v).after (ctx.push item v)))
    (items : List Value) {ctx : Context} (hi : ctx.interrupts = []) (hb : ctx.bindings = b) :
    renderFrom (renderItems item body items) ctx =
      ((Flow.loop bodyFlow items).outcome, (Flow.loop bodyFlow items).after ctx) := by
  induction items generalizing ctx with
  | nil => simp [renderItems, Flow.loop, Flow.outcome, Flow.after_empty hi]
  | cons v rest ih =>
      rw [Flow.loop]
      have hv := hbody v ctx hi hb
      have hrest := @ih ((bodyFlow v).settled.after ctx) rfl hb
      generalize bodyFlow v = f at hv hrest ⊢
      generalize Flow.loop bodyFlow rest = g at hrest ⊢
      -- A normal end and a request to go on lead to the items left in the same way.
      have hgo (hout : f.outcome = .ok f.text) (hhead : f.pending.head? ≠ some .leave)
          (hthen : f.loopThen g = f.settled.andThen g) :
          renderFrom (renderItems item body (v :: rest)) ctx =
            ((f.loopThen g).outcome, (f.loopThen g).after ctx) := by
        rw [hout] at hv
        rw [renderItems_cons_of_not_leave hv hhead rest, Flow.after_push_pop, hrest, hthen,
          Flow.outcome_andThen rfl, Flow.after_andThen rfl]
        rfl
      cases hf : f.ending with
      | normal =>
          apply hgo
          · simp [Flow.outcome, hf]
          · simp [Flow.pending, hf]
          · simp [Flow.loopThen, hf]
      | interrupted request =>
          have hout : f.outcome = .ok f.text := by simp [Flow.outcome, hf]
          cases request with
          | next =>
              apply hgo hout
              · simp [Flow.pending, hf]
              · simp [Flow.loopThen, hf]
          | leave =>
              have hstop : f.loopThen g = f.settled := by simp [Flow.loopThen, hf]
              have hhead : f.pending.head? = some .leave := by simp [Flow.pending, hf]
              rw [hout] at hv
              rw [renderItems_cons_of_leave hv hhead rest, Flow.after_push_pop, hstop]
              rfl
      | fatal cause =>
          have hstop : f.loopThen g = f := by simp [Flow.loopThen, hf]
          have hout : f.outcome = .error (.fatal cause) := by simp [Flow.outcome, hf]
          rw [hout] at hv
          rw [renderItems_cons_of_error hv rest, hstop, hout]
          rfl

/-! ## Trees -/

mutual

theorem render_yields_flow :
    ∀ (n : Node), n.StandardOver OnlyLooks → ∀ {ctx : Context}, ctx.interrupts = [] →
      (n.flow ctx.bindings).Yields ctx (renderFrom (recovering n.render) ctx)
  | .text content, _, ctx, hi => by
      left
      exact renderFrom_recovering_of_outcome (r := .ok content) hi rfl
  | .expression markup, _, ctx, hi => by
      left
      rw [Node.flow, Context.variableText_bindings]
      apply renderFrom_recovering_of_outcome hi
      simp [Node.render, renderFrom_map]
  | .conditional name condition body none, hn, ctx, hi => by
      left
      rw [Node.flow, Condition.eval_bindings]
      cases hc : Condition.eval ctx condition with
      | error e =>
          apply renderFrom_recovering_of_outcome hi
          simp [Node.render, renderFrom_bind, hc, Except.map]
      | ok holds =>
          apply renderFrom_recovering_of_flow
          cases holds with
          | true =>
              have hbody := renderAll_eq_flowAll body hn hi
              simp [Node.render, renderFrom_bind, renderFrom_map, hc, hbody]
          | false =>
              simp [Node.render, renderFrom_bind, hc, Flow.outcome, Flow.after_empty hi, Except.map]
  | .conditional name condition body (some alternative), hn, ctx, hi => by
      left
      rw [Node.flow, Condition.eval_bindings]
      cases hc : Condition.eval ctx condition with
      | error e =>
          apply renderFrom_recovering_of_outcome hi
          simp [Node.render, renderFrom_bind, hc, Except.map]
      | ok holds =>
          apply renderFrom_recovering_of_flow
          cases holds with
          | true =>
              have hbody := renderAll_eq_flowAll body hn.1 hi
              simp [Node.render, renderFrom_bind, renderFrom_map, hc, hbody]
          | false =>
              have halternative := renderAll_eq_flowAll alternative hn.2 hi
              simp [Node.render, renderFrom_bind, renderFrom_map, hc, halternative]
  | .loop name item collection body, hn, ctx, hi => by
      left
      rw [Node.flow, Context.lookup_bindings]
      apply renderFrom_recovering_of_flow
      have hbody (v : Value) (inner : Context) (hinner : inner.interrupts = [])
          (hb : inner.bindings = ctx.bindings) :
          renderFrom (renderAll body) (inner.push item v) =
            ((flowAll body (ctx.bindings.bind item v)).outcome,
              (flowAll body (ctx.bindings.bind item v)).after (inner.push item v)) := by
        rw [← hb]
        exact renderAll_eq_flowAll body hn hinner
      have hitems := renderItems_of_flow item hbody (ctx.lookup collection).items hi rfl
      simp [Node.render, renderFrom_bind, renderFrom_map, hitems]
  | .comment name body, _, ctx, hi => by
      left
      exact renderFrom_recovering_of_outcome (r := .ok "") hi rfl
  | .interrupt name request, _, ctx, hi => by
      right
      exact ⟨request, rfl, by simp [Node.render, renderFrom_recovering]⟩
  | .leaf name render, ⟨f, hf⟩, ctx, hi => by
      have hview : f ctx.bindings.context.bindings = f ctx.bindings := rfl
      rw [Node.flow, Node.render, hf ctx.bindings.context, hview]
      have hrender := hf ctx
      cases hout : f ctx.bindings with
      | error e =>
          left
          apply renderFrom_recovering_of_outcome hi
          simp [hrender, hout, Except.map]
      | ok output =>
          cases output with
          | emitted text =>
              left
              apply renderFrom_recovering_of_outcome (r := .ok text) hi
              simp [hrender, hout, Except.map]
          | interrupt request =>
              right
              exact ⟨request, rfl, by simp [renderFrom_recovering, hrender, hout]⟩
termination_by structural n => n

theorem renderAll_eq_flowAll :
    ∀ (nodes : List Node), Node.AllStandardOver OnlyLooks nodes →
      ∀ {ctx : Context}, ctx.interrupts = [] →
        renderFrom (renderAll nodes) ctx =
          ((flowAll nodes ctx.bindings).outcome, (flowAll nodes ctx.bindings).after ctx)
  | [], _, ctx, hi => by
      simp [renderAll, flowAll, Flow.outcome, Flow.after_empty hi]
  | n :: rest, hn, ctx, hi => by
      rw [flowAll]
      apply renderAll_cons_of_yields hi (render_yields_flow n hn.1 hi)
      intro hf
      apply renderAll_eq_flowAll rest hn.2
      simp [Flow.pending, hf]
termination_by structural nodes => nodes

end

/-- A tree of standard tags alone is rendered in a fresh context as its flow says. -/
theorem renderAll_new_eq_flowAll
    {nodes : List Node} (hn : Node.AllStandard nodes) (data : Value) (options : Options) :
    let f := flowAll nodes ⟨data, [], options.strict⟩
    let result := renderFrom (renderAll nodes) (.new data options)
    result.1 = f.outcome ∧ result.2.errors = f.errors ∧ result.2.interrupts = f.pending := by
  have hlooks : Node.AllStandardOver OnlyLooks nodes := .mono (fun _ => False.elim) nodes hn
  intro f result
  have hresult : result = (f.outcome, f.after (.new data options)) :=
    renderAll_eq_flowAll nodes hlooks rfl
  rw [hresult]
  exact ⟨rfl, List.nil_append f.errors, rfl⟩

/-- Where no interrupt is pending, rendering yields the text or the fatal error of the flow, appends
the errors of the flow, leaves its request pending, and leaves the bindings as they were. -/
theorem renderAll_agrees_with_flow
    {nodes : List Node} (hn : Node.AllStandardOver OnlyLooks nodes)
    {ctx : Context} (hi : ctx.interrupts = []) :
    let f := flowAll nodes ctx.bindings
    let result := renderFrom (renderAll nodes) ctx
    result.1 = f.outcome ∧ result.2.errors = ctx.errors ++ f.errors ∧
      result.2.interrupts = f.pending ∧ result.2.bindings = ctx.bindings := by
  rw [renderAll_eq_flowAll nodes hn hi]
  exact ⟨rfl, rfl, rfl, rfl⟩

/-- A loop is left at its second item from inside a conditional; an error before it is recovered,
and no loop takes the request after it. -/
theorem renderAll_agrees_with_flow_nested_break :
    let nodes : List Node :=
      [.leaf "fails" (throw (.argument (.stated "bad"))),
        .loop "for" "n" "list"
          [.conditional "if" "n" [.text "!", .interrupt "break" .leave] none, .text "."],
        .interrupt "continue" .next, .text "unseen"]
    let ctx : Context := { root := .map [("list", .list [.bool false, .bool true, .nil])] }
    let f := flowAll nodes ctx.bindings
    let result := renderFrom (renderAll nodes) ctx
    Node.AllStandardOver OnlyLooks nodes ∧ ctx.interrupts = [] ∧
      (result.1 = f.outcome ∧ result.2.errors = ctx.errors ++ f.errors ∧
        result.2.interrupts = f.pending ∧ result.2.bindings = ctx.bindings) ∧
      f.text = "Liquid error: bad.!" ∧ f.errors.map Error.message = ["bad"] ∧
      f.pending = [.next] := by
  intro nodes ctx f result
  have hn : Node.AllStandardOver OnlyLooks nodes :=
    ⟨⟨fun _ => .error (.argument (.stated "bad")), fun _ => rfl⟩, ⟨⟨trivial, trivial, trivial⟩,
      trivial, trivial⟩, trivial, trivial, trivial⟩
  have hi : ctx.interrupts = [] := rfl
  refine ⟨hn, hi, renderAll_agrees_with_flow hn hi, ?_, ?_, ?_⟩
  · decide +kernel
  · decide +kernel
  · decide +kernel

end Liquid
