import Liquid.Proofs.Rendering
import Liquid.Proofs.Tree

/-!
# What a rendering leaves as it was

However the rendering of a tree of standard tags ends, the local bindings are those from before, and
the errors recorded before are still there, with recoverable ones after them.  A loop takes the
interrupts of its body before an error passes through it, so that a fatal error leaves the pending
interrupts as they were.
-/

namespace Liquid

/-- A rendering that yields or fails as it likes and does nothing to the context. -/
def LeavesContext (render : RenderM Output) : Prop :=
  ∀ ctx, (renderFrom render ctx).2 = ctx

/-- A later context has the same local bindings, and the same errors with recoverable ones after
them. -/
structure Context.Keeps (ctx after : Context) : Prop where
  locals : after.locals = ctx.locals
  errors : ∃ added, after.errors = ctx.errors ++ added ∧ ∀ e ∈ added, e.isRecoverable

namespace Context.Keeps

variable {ctx mid after : Context}

theorem refl (ctx : Context) : ctx.Keeps ctx :=
  ⟨rfl, [], by simp, by simp⟩

theorem trans (h : ctx.Keeps mid) (h' : mid.Keeps after) : ctx.Keeps after := by
  obtain ⟨hlocals, added, herrors, hadded⟩ := h
  obtain ⟨hlocals', added', herrors', hadded'⟩ := h'
  refine ⟨hlocals'.trans hlocals, added ++ added', ?_, ?_⟩
  · rw [herrors', herrors, List.append_assoc]
  · intro e he
    rcases List.mem_append.mp he with he | he
    · exact hadded e he
    · exact hadded' e he

theorem record {e : Error} (h : ctx.Keeps after) (he : e.isRecoverable) :
    ctx.Keeps (after.record e) := by
  apply h.trans
  refine ⟨rfl, [e], rfl, ?_⟩
  intro e' he'
  rwa [List.mem_singleton.mp he']

/-- A binding that is removed at the end leaves the bindings below it. -/
theorem pop {name : String} {v : Value} (h : (ctx.push name v).Keeps after) :
    ctx.Keeps after.pop := by
  refine ⟨?_, h.errors⟩
  change after.locals.tail = ctx.locals
  rw [h.locals]
  rfl

end Context.Keeps

/-- The number of interrupts that a node may leave pending: one that stopped a body inside it, but
none if the node makes a request itself. -/
def Output.room : Output → Nat
  | .emitted _ => 1
  | .interrupt _ => 0

/-- The number of interrupts that an outcome may leave pending, when none was pending before. -/
def roomAfter {α : Type} (room : α → Nat) : Except Error α → Nat
  | .ok a => room a
  | .error _ => 0

/-- What a rendering comes to that starts from a context in which no interrupt is pending. -/
structure Tidy {α : Type} (room : α → Nat) (ctx : Context) (result : Except Error α × Context) :
    Prop where
  keeps : ctx.Keeps result.2
  pending : result.2.interrupts.length ≤ roomAfter room result.1

namespace Tidy

variable {α β : Type} {room : α → Nat} {ctx : Context}

theorem of_eq
    {result : Except Error α × Context} (hi : ctx.interrupts = []) (h : result.2 = ctx) :
    Tidy room ctx result := by
  constructor
  · rw [h]
    exact .refl ctx
  · rw [h, hi]
    exact Nat.zero_le _

theorem interrupts_of_error
    {result : Except Error α × Context} (h : Tidy room ctx result) {e : Error}
    (he : result.1 = .error e) :
    result.2.interrupts = [] := by
  have hlength := h.pending
  rw [he] at hlength
  exact List.length_eq_zero_iff.mp (Nat.le_zero.mp hlength)

theorem map
    {f : α → β} {room' : β → Nat} {result : Except Error α × Context} (h : Tidy room ctx result)
    (hf : ∀ a, room a ≤ room' (f a)) :
    Tidy room' ctx (result.1.map f, result.2) := by
  obtain ⟨outcome, after⟩ := result
  refine ⟨h.keeps, Nat.le_trans h.pending ?_⟩
  cases outcome with
  | error e => exact Nat.le_refl 0
  | ok a => exact hf a

/-- A second rendering where the first has left no interrupt. -/
theorem after
    {mid : Context} (h : ctx.Keeps mid) {result : Except Error α × Context}
    (h' : Tidy room mid result) :
    Tidy room ctx result :=
  ⟨h.trans h'.keeps, h'.pending⟩

theorem recovering
    {x : RenderM Output} (h : Tidy Output.room ctx (renderFrom x ctx)) :
    Tidy Output.room ctx (renderFrom (Liquid.recovering x) ctx) := by
  rw [renderFrom_recovering]
  rcases hx : renderFrom x ctx with ⟨outcome, after⟩
  rw [hx] at h
  cases outcome with
  | ok output => exact h
  | error e =>
      by_cases he : e.isRecoverable
      · simp only [he, if_true]
        refine ⟨h.keeps.record he, ?_⟩
        have hnone : after.interrupts = [] := h.interrupts_of_error rfl
        simp [Context.record, hnone]
      · simp only [he]
        exact h

end Tidy

/-! ## Node lists and loops -/

theorem tidy_renderAll_cons
    {n : Node} {rest : List Node} {ctx : Context} (hi : ctx.interrupts = [])
    (hn : Tidy Output.room ctx (renderFrom n.render ctx))
    (hrest : ∀ {mid : Context}, mid.interrupts = [] →
      Tidy (fun _ => 1) mid (renderFrom (renderAll rest) mid)) :
    Tidy (fun _ => 1) ctx (renderFrom (renderAll (n :: rest)) ctx) := by
  rw [renderAll_cons n rest hi]
  have hnode := hn.recovering
  rcases hout : renderFrom (recovering n.render) ctx with ⟨outcome, after⟩
  rw [hout] at hnode
  cases outcome with
  | error e => exact ⟨hnode.keeps, hnode.pending⟩
  | ok output =>
      cases output with
      | interrupt request =>
          have hnone : after.interrupts = [] :=
            List.length_eq_zero_iff.mp (Nat.le_zero.mp hnode.pending)
          refine ⟨hnode.keeps.trans ⟨rfl, [], by simp [Context.pushInterrupt], by simp⟩, ?_⟩
          simp [Context.pushInterrupt, hnone, roomAfter]
      | emitted text =>
          by_cases hafter : after.interrupts = []
          · exact .after hnode.keeps ((hrest hafter).map fun _ => Nat.le_refl 1)
          · simp only [renderAll_of_pending rest hafter]
            exact ⟨hnode.keeps, hnode.pending⟩

/-- After the body the binding of the loop is gone, and so is the interrupt of the body. -/
theorem keeps_pop_popInterrupt
    {ctx after : Context} {item : String} {v : Value} (h : (ctx.push item v).Keeps after)
    (hone : after.interrupts.length ≤ 1) :
    ctx.Keeps after.pop.popInterrupt.2 ∧ after.pop.popInterrupt.2.interrupts = [] := by
  constructor
  · exact h.pop.trans ⟨rfl, [], by simp [Context.popInterrupt], by simp⟩
  · change after.interrupts.tail = []
    apply List.length_eq_zero_iff.mp
    rw [List.length_tail]
    omega

theorem tidy_renderItems
    (item : String) {body : RenderM String}
    (hbody : ∀ {ctx : Context}, ctx.interrupts = [] → Tidy (fun _ => 1) ctx (renderFrom body ctx))
    (items : List Value) {ctx : Context} (hi : ctx.interrupts = []) :
    Tidy (fun _ => 0) ctx (renderFrom (renderItems item body items) ctx) := by
  induction items generalizing ctx with
  | nil => exact .of_eq hi rfl
  | cons v rest ih =>
      have hv := @hbody (ctx.push item v) hi
      rcases hout : renderFrom body (ctx.push item v) with ⟨outcome, after⟩
      rw [hout] at hv
      cases outcome with
      | error e =>
          rw [renderItems_cons_of_error hout]
          exact ⟨hv.keeps.pop, hv.pending⟩
      | ok text =>
          obtain ⟨hkeeps, hnone⟩ := keeps_pop_popInterrupt hv.keeps hv.pending
          by_cases hleave : after.interrupts.head? = some .leave
          · rw [renderItems_cons_of_leave hout hleave]
            exact ⟨hkeeps, Nat.le_of_eq (congrArg List.length hnone)⟩
          · rw [renderItems_cons_of_not_leave hout hleave]
            exact .after hkeeps ((ih hnone).map fun _ => Nat.le_refl 0)

/-! ## Trees -/

mutual

theorem tidy_render :
    ∀ (n : Node), n.StandardOver LeavesContext → ∀ {ctx : Context}, ctx.interrupts = [] →
      Tidy Output.room ctx (renderFrom n.render ctx)
  | .text content, _, _, hi => .of_eq hi rfl
  | .expression markup, _, ctx, hi => by
      apply Tidy.of_eq hi
      simp [Node.render, renderFrom_map]
  | .conditional name condition body none, hn, ctx, hi => by
      simp only [Node.render, renderFrom_bind, renderFrom_ofContext]
      cases Condition.eval ctx condition with
      | error e => exact .of_eq hi rfl
      | ok holds =>
          cases holds with
          | false => exact .of_eq hi rfl
          | true =>
              simp only [if_true, renderFrom_map]
              exact (tidy_renderAll body hn hi).map fun _ => Nat.le_refl 1
  | .conditional name condition body (some alternative), hn, ctx, hi => by
      simp only [Node.render, renderFrom_bind, renderFrom_ofContext]
      cases Condition.eval ctx condition with
      | error e => exact .of_eq hi rfl
      | ok holds =>
          cases holds with
          | false =>
              simp only [Bool.false_eq_true, if_false, renderFrom_map]
              exact (tidy_renderAll alternative hn.2 hi).map fun _ => Nat.le_refl 1
          | true =>
              simp only [if_true, renderFrom_map]
              exact (tidy_renderAll body hn.1 hi).map fun _ => Nat.le_refl 1
  | .loop name item collection body, hn, ctx, hi => by
      simp only [Node.render, renderFrom_bind, renderFrom_get, renderFrom_map]
      have hitems := tidy_renderItems item (fun h => tidy_renderAll body hn h)
        (ctx.lookup collection).items hi
      exact hitems.map fun _ => Nat.zero_le 1
  | .comment name body, _, _, hi => .of_eq hi rfl
  | .interrupt name request, _, _, hi => .of_eq hi rfl
  | .leaf name render, hn, ctx, hi => .of_eq hi (hn ctx)
termination_by structural n => n

theorem tidy_renderAll :
    ∀ (nodes : List Node), Node.AllStandardOver LeavesContext nodes → ∀ {ctx : Context},
      ctx.interrupts = [] → Tidy (fun _ => 1) ctx (renderFrom (renderAll nodes) ctx)
  | [], _, _, hi => .of_eq hi rfl
  | n :: rest, hn, _, hi =>
      tidy_renderAll_cons hi (tidy_render n hn.1 hi) fun hmid => tidy_renderAll rest hn.2 hmid
termination_by structural nodes => nodes

end

/-- Whatever the outcome of a rendering, the local bindings are those from before, and the errors
are those from before with recoverable ones after them.  The rendering fails only with a fatal
error, and then the pending interrupts are those from before, too. -/
theorem renderAll_frame
    {nodes : List Node} (hn : Node.AllStandardOver LeavesContext nodes) (ctx : Context) :
    let result := renderFrom (renderAll nodes) ctx
    result.2.locals = ctx.locals ∧
      (∃ added, result.2.errors = ctx.errors ++ added ∧ ∀ e ∈ added, e.isRecoverable) ∧
      ∀ e, result.1 = .error e →
        (∃ cause, e = .fatal cause) ∧ result.2.interrupts = ctx.interrupts := by
  intro result
  by_cases hi : ctx.interrupts = []
  · have htidy := tidy_renderAll nodes hn hi
    refine ⟨htidy.keeps.locals, htidy.keeps.errors, ?_⟩
    intro e he
    constructor
    · exact Error.eq_fatal_of_not_isRecoverable (not_isRecoverable_of_renderAll he)
    · rw [hi]
      exact htidy.interrupts_of_error he
  · have hresult : result = (.ok "", ctx) := renderAll_of_pending nodes hi
    rw [hresult]
    refine ⟨rfl, ⟨[], by simp, by simp⟩, ?_⟩
    intro e he
    exact absurd he (by simp)

/-- A fatal error in the second of two loops inside one another, after the first run of the inner
loop was left by a request. -/
theorem renderAll_frame_fatal_in_loops :
    let nodes : List Node :=
      [.loop "for" "x" "rows"
          [.leaf "fails" (throw (.argument (.stated "bad"))),
            .loop "for" "y" "x"
              [.conditional "if" "y" [.interrupt "break" .leave]
                (some [.leaf "halts" (throw (.fatal (.stated "halted")))])]],
        .text "unseen"]
    let ctx : Context :=
      { root := .map [("rows", .list [.list [.bool true, .bool false], .list [.bool false]])]
        locals := [("x", .nil)]
        errors := [.standard (.stated "earlier")] }
    let result := renderFrom (renderAll nodes) ctx
    Node.AllStandardOver LeavesContext nodes ∧
      (result.2.locals = ctx.locals ∧
        (∃ added, result.2.errors = ctx.errors ++ added ∧ ∀ e ∈ added, e.isRecoverable) ∧
        ∀ e, result.1 = .error e →
          (∃ cause, e = .fatal cause) ∧ result.2.interrupts = ctx.interrupts) ∧
      result.1.isOk = false ∧ result.2.errors.map Error.message = ["earlier", "bad", "bad"] := by
  intro nodes ctx result
  have hn : Node.AllStandardOver LeavesContext nodes :=
    ⟨⟨fun _ => rfl, ⟨⟨⟨trivial, trivial⟩, ⟨fun _ => rfl, trivial⟩⟩, trivial⟩, trivial⟩, trivial,
      trivial⟩
  refine ⟨hn, renderAll_frame hn ctx, ?_, ?_⟩
  · decide +kernel
  · decide +kernel

end Liquid
