import Liquid.Render

/-!
# Trees of standard tags

Which trees are built from the standard tags, with leaves of a given kind among them, and how many
blocks stand inside one another in a tree.
-/

namespace Liquid
namespace Node

mutual

/-- A node built from text, expressions and the standard tags, and from leaves whose rendering is
as `P` says. -/
def StandardOver (P : RenderM Output → Prop) : Node → Prop
  | text _ => True
  | expression _ => True
  | conditional _ _ body none => AllStandardOver P body
  | conditional _ _ body (some alternative) =>
    AllStandardOver P body ∧ AllStandardOver P alternative
  | loop _ _ _ body => AllStandardOver P body
  | comment _ body => AllStandardOver P body
  | interrupt _ _ => True
  | leaf _ render => P render
  | block _ _ _ => False
termination_by structural n => n

def AllStandardOver (P : RenderM Output → Prop) : List Node → Prop
  | [] => True
  | n :: rest => n.StandardOver P ∧ AllStandardOver P rest
termination_by structural l => l

end

/-- All nodes of a list are built from text, expressions and the standard tags alone. -/
abbrev AllStandard (nodes : List Node) : Prop :=
  AllStandardOver (fun _ => False) nodes

mutual

theorem StandardOver.mono
    {P Q : RenderM Output → Prop} (h : ∀ render, P render → Q render) :
    ∀ n : Node, n.StandardOver P → n.StandardOver Q
  | text _, _ => trivial
  | expression _, _ => trivial
  | conditional _ _ body none, hn => AllStandardOver.mono h body hn
  | conditional _ _ body (some alternative), hn =>
    ⟨AllStandardOver.mono h body hn.1, AllStandardOver.mono h alternative hn.2⟩
  | loop _ _ _ body, hn => AllStandardOver.mono h body hn
  | comment _ body, hn => AllStandardOver.mono h body hn
  | interrupt _ _, _ => trivial
  | leaf _ render, hn => h render hn
termination_by structural n => n

theorem AllStandardOver.mono
    {P Q : RenderM Output → Prop} (h : ∀ render, P render → Q render) :
    ∀ nodes : List Node, AllStandardOver P nodes → AllStandardOver Q nodes
  | [], _ => trivial
  | n :: rest, hn => ⟨StandardOver.mono h n hn.1, AllStandardOver.mono h rest hn.2⟩
termination_by structural nodes => nodes

end

mutual

/-- The number of blocks that stand inside one another in a node, the node itself included. -/
def height : Node → Nat
  | conditional _ _ body none => heights body + 1
  | conditional _ _ body (some alternative) => max (heights body) (heights alternative) + 1
  | loop _ _ _ body => heights body + 1
  | comment _ body => heights body + 1
  | block _ _ body => heights body + 1
  | text _ | expression _ | interrupt _ _ | leaf _ _ => 0
termination_by structural n => n

/-- The greatest height of a node in a list. -/
def heights : List Node → Nat
  | [] => 0
  | n :: rest => max n.height (heights rest)
termination_by structural l => l

end

theorem heights_of_cons
    {n : Node} {rest : List Node} {m : Nat} (h : heights (n :: rest) ≤ m) :
    n.height ≤ m ∧ heights rest ≤ m :=
  Nat.max_le.mp h

end Node
end Liquid
