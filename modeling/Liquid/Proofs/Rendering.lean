import Liquid.Render

/-!
# Rendering step by step

What rendering a node list does once the outcome of its first node is known, and what a loop does
once the outcome of its first item is known.
-/

namespace Liquid

/-- Where an interrupt is pending, nothing is rendered. -/
theorem renderAll_of_pending
    (nodes : List Node) {ctx : Context} (hi : ctx.interrupts ≠ []) :
    renderFrom (renderAll nodes) ctx = (.ok "", ctx) := by
  cases nodes with
  | nil => simp [renderAll]
  | cons n rest => simp [renderAll, renderFrom_bind, Context.hasInterrupt, hi]

theorem renderAll_cons
    (n : Node) (rest : List Node) {ctx : Context} (hi : ctx.interrupts = []) :
    renderFrom (renderAll (n :: rest)) ctx =
      match renderFrom (recovering n.render) ctx with
      | (.ok (.emitted text), after) =>
        ((renderFrom (renderAll rest) after).1.map (text ++ ·),
          (renderFrom (renderAll rest) after).2)
      | (.ok (.interrupt request), after) => (.ok "", after.pushInterrupt request)
      | (.error e, after) => (.error e, after) := by
  have hnone : ctx.hasInterrupt = false := by simp [Context.hasInterrupt, hi]
  rw [renderAll]
  simp only [renderFrom_bind, renderFrom_get, hnone, Bool.false_eq_true, if_false]
  rcases renderFrom (recovering n.render) ctx with ⟨outcome, after⟩
  cases outcome with
  | error e => rfl
  | ok output =>
      cases output with
      | interrupt request => rfl
      | emitted text =>
          simp only [bind_pure_comp, renderFrom_map]

theorem Error.eq_fatal_of_not_isRecoverable
    {e : Error} (he : ¬e.isRecoverable) :
    ∃ cause, e = .fatal cause := by
  cases e with
  | fatal cause => exact ⟨cause, rfl⟩
  | malformed cause line => simp [isRecoverable, kind] at he
  | argument cause => simp [isRecoverable, kind] at he
  | standard cause => simp [isRecoverable, kind] at he

theorem not_isRecoverable_of_recovering
    {x : RenderM Output} {ctx : Context} {e : Error}
    (h : (renderFrom (recovering x) ctx).1 = .error e) :
    ¬e.isRecoverable := by
  rw [renderFrom_recovering] at h
  rcases hx : renderFrom x ctx with ⟨outcome, after⟩
  rw [hx] at h
  cases outcome with
  | ok output => exact absurd h (by simp)
  | error e' =>
      by_cases he : e'.isRecoverable
      · simp [he] at h
      · simp only [he, Bool.false_eq_true, if_false, Except.error.injEq] at h
        rwa [← h]

/-- Whatever its tags do, a node list fails only with an error that cannot be recovered. -/
theorem not_isRecoverable_of_renderAll
    {nodes : List Node} {ctx : Context} {e : Error}
    (h : (renderFrom (renderAll nodes) ctx).1 = .error e) :
    ¬e.isRecoverable := by
  induction nodes generalizing ctx with
  | nil => exact absurd h (by simp [renderAll])
  | cons n rest ih =>
      by_cases hi : ctx.interrupts = []
      · rw [renderAll_cons n rest hi] at h
        rcases hn : renderFrom (recovering n.render) ctx with ⟨outcome, after⟩
        rw [hn] at h
        cases outcome with
        | error e' =>
            obtain rfl := Except.error.inj h
            exact not_isRecoverable_of_recovering (congrArg Prod.fst hn)
        | ok output =>
            cases output with
            | interrupt request => exact absurd h (by simp)
            | emitted text =>
                cases hrest : (renderFrom (renderAll rest) after).1 with
                | ok more => simp [hrest, Except.map] at h
                | error e' =>
                    simp only [hrest, Except.map, Except.error.injEq] at h
                    rw [h] at hrest
                    exact ih hrest
      · rw [renderAll_of_pending (n :: rest) hi] at h
        exact absurd h (by simp)

theorem renderItems_cons
    (item : String) (body : RenderM String) (v : Value) (rest : List Value) (ctx : Context) :
    renderFrom (renderItems item body (v :: rest)) ctx =
      match renderFrom body (ctx.push item v) with
      | (.ok text, after) =>
        if after.interrupts.head? = some .leave then (.ok text, after.pop.popInterrupt.2)
        else
          ((renderFrom (renderItems item body rest) after.pop.popInterrupt.2).1.map (text ++ ·),
            (renderFrom (renderItems item body rest) after.pop.popInterrupt.2).2)
      | (.error e, after) => (.error e, after.pop) := by
  rw [renderItems]
  simp only [renderFrom_bind, renderFrom_withLocal]
  rcases renderFrom body (ctx.push item v) with ⟨outcome, after⟩
  cases outcome with
  | error e => rfl
  | ok text =>
      simp only [renderFrom_takeInterrupt]
      by_cases hleave : after.interrupts.head? = some .leave
      · have hpop : after.pop.popInterrupt.1 = some .leave := hleave
        simp only [hpop, hleave, if_true, renderFrom_pure]
      · have hpop : after.pop.popInterrupt.1 ≠ some .leave := hleave
        simp only [hpop, hleave, if_false, bind_pure_comp, renderFrom_map]

section

variable {item : String} {body : RenderM String} {v : Value} {ctx after : Context}

theorem renderItems_cons_of_error
    {e : Error} (hbody : renderFrom body (ctx.push item v) = (.error e, after))
    (rest : List Value) :
    renderFrom (renderItems item body (v :: rest)) ctx = (.error e, after.pop) := by
  rw [renderItems_cons, hbody]

theorem renderItems_cons_of_leave
    {text : String} (hbody : renderFrom body (ctx.push item v) = (.ok text, after))
    (hleave : after.interrupts.head? = some .leave) (rest : List Value) :
    renderFrom (renderItems item body (v :: rest)) ctx =
      (.ok text, after.pop.popInterrupt.2) := by
  rw [renderItems_cons, hbody]
  exact if_pos hleave

theorem renderItems_cons_of_not_leave
    {text : String} (hbody : renderFrom body (ctx.push item v) = (.ok text, after))
    (hleave : after.interrupts.head? ≠ some .leave) (rest : List Value) :
    renderFrom (renderItems item body (v :: rest)) ctx =
      ((renderFrom (renderItems item body rest) after.pop.popInterrupt.2).1.map (text ++ ·),
        (renderFrom (renderItems item body rest) after.pop.popInterrupt.2).2) := by
  rw [renderItems_cons, hbody]
  exact if_neg hleave

end

end Liquid
