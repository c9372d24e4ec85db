import Liquid.Proofs.Rendering
import Liquid.Proofs.Tree

/-!
# Properties that pass from parts to trees

A rendering of standard tags is put together from a few steps in a few ways.  A property that the
steps have, and that passes from parts to what is put together from them, holds of every tree whose
leaves have it.
-/

namespace Liquid

/-- A property that the steps of a rendering have and that renderings put together inherit from
their parts. -/
structure Compositional (P : {α : Type} → RenderM α → Prop) : Prop where
  pure {α : Type} (a : α) : P (Pure.pure a : RenderM α)
  get : P (MonadState.get : RenderM Context)
  variableText (markup : String) : P (RenderM.ofContext (·.variableText markup))
  condition (s : String) : P (RenderM.ofContext (Condition.eval · s))
  pushInterrupt (request : Interrupt) : P (modify (·.pushInterrupt request) : RenderM PUnit)
  takeInterrupt : P Liquid.takeInterrupt
  bind {α β : Type} {x : RenderM α} {f : α → RenderM β} : P x → (∀ a, P (f a)) → P (x >>= f)
  withLocal {name : String} {v : Value} {body : RenderM String} :
    P body → P (Liquid.withLocal name v body)
  recovering {x : RenderM Output} : P x → P (Liquid.recovering x)

namespace Compositional

variable {P : {α : Type} → RenderM α → Prop}

theorem map
    (hP : Compositional P) {α β : Type} {x : RenderM α} (f : α → β) (hx : P x) :
    P (f <$> x) := by
  rw [map_eq_pure_bind]
  exact hP.bind hx fun a => hP.pure (f a)

theorem renderItems
    (hP : Compositional P) {item : String} {body : RenderM String} (h : P body)
    (items : List Value) :
    P (renderItems item body items) := by
  induction items with
  | nil => exact hP.pure ""
  | cons v rest ih =>
      apply hP.bind (hP.withLocal h)
      intro text
      apply hP.bind hP.takeInterrupt
      intro request
      by_cases hleave : request = some .leave
      · rw [if_pos hleave]
        exact hP.pure text
      · rw [if_neg hleave]
        exact hP.bind ih fun more => hP.pure (text ++ more)

mutual

theorem render (hP : Compositional P) :
    ∀ n : Node, n.StandardOver P → P n.render
  | .text content, _ => hP.pure (Output.emitted content)
  | .expression markup, _ => by
      rw [Node.render]
      exact hP.map _ (hP.variableText markup)
  | .conditional name condition body none, hn => by
      rw [Node.render]
      apply hP.bind (hP.condition condition)
      intro holds
      cases holds with
      | true => exact hP.map _ (hP.renderAll body hn)
      | false => exact hP.pure _
  | .conditional name condition body (some alternative), hn => by
      rw [Node.render]
      apply hP.bind (hP.condition condition)
      intro holds
      cases holds with
      | true => exact hP.map _ (hP.renderAll body hn.1)
      | false => exact hP.map _ (hP.renderAll alternative hn.2)
  | .loop name item collection body, hn => by
      rw [Node.render]
      apply hP.bind hP.get
      intro ctx
      exact hP.map _ (hP.renderItems (hP.renderAll body hn) (ctx.lookup collection).items)
  | .comment name body, _ => hP.pure (Output.emitted "")
  | .interrupt name request, _ => hP.pure (Output.interrupt request)
  | .leaf name render, hn => hn
termination_by structural n => n

theorem renderAll (hP : Compositional P) :
    ∀ nodes : List Node, Node.AllStandardOver P nodes → P (Liquid.renderAll nodes)
  | [], _ => hP.pure ""
  | n :: rest, hn => by
      rw [Liquid.renderAll]
      apply hP.bind hP.get
      intro ctx
      cases ctx.hasInterrupt with
      | true => exact hP.pure ""
      | false =>
          apply hP.bind (hP.recovering (hP.render n hn.1))
          intro output
          cases output with
          | emitted text =>
              exact hP.bind (hP.renderAll rest hn.2) fun more => hP.pure (text ++ more)
          | interrupt request =>
              exact hP.bind (hP.pushInterrupt request) fun _ => hP.pure ""
termination_by structural nodes => nodes

end

end Compositional
end Liquid
