import Liquid.Context

/-!
# Nodes

The tree of a template.  Beside text and expressions it holds the standard tags, each with its own
constructor, and two forms for all other tags: a leaf, which renders by itself, and a block, which
renders around its body.  Trees are compared by their shapes.
-/

namespace Liquid

/-- What rendering a node yields: text, or a request to the loop around it. -/
inductive Output where
  | emitted (text : String)
  | interrupt (i : Interrupt)
deriving DecidableEq

/-- Rendering: it may fail, and what it did to the context stays done. -/
abbrev RenderM := ExceptT Error (StateM Context)

/-- A node of a template.  Every tag carries the name under which it stands in the template. -/
inductive Node where
  /-- Text that is copied. -/
  | text (content : String)
  /-- The value of an expression. -/
  | expression (markup : String)
  /-- One of two bodies, chosen by a condition; the second may be missing. -/
  | conditional (name condition : String) (body : List Node) (alternative : Option (List Node))
  /-- A body for each item of a list. -/
  | loop (name item collection : String) (body : List Node)
  /-- A body that is never rendered. -/
  | comment (name : String) (body : List Node)
  /-- A request to the loop around the node. -/
  | interrupt (name : String) (request : Interrupt)
  /-- A tag without a body. -/
  | leaf (name : String) (render : RenderM Output)
  /-- A tag around a body. -/
  | block (name : String) (wrap : RenderM String → RenderM Output) (body : List Node)

instance : Inhabited Node := ⟨.text ""⟩

/-- What of a tree is compared: text, expressions, names of tags, and the bodies of the tags in the
order of the template.  The markup of a tag is left out. -/
inductive Shape where
  | text (content : String)
  | expression (markup : String)
  | tag (name : String) (bodies : List (List Shape))

namespace Shape

mutual

def beq : Shape → Shape → Bool
  | text a, text b => a == b
  | expression a, expression b => a == b
  | tag a xs, tag b ys => a == b && beqBodies xs ys
  | _, _ => false
termination_by structural s => s

def beqBodies : List (List Shape) → List (List Shape) → Bool
  | [], [] => true
  | x :: xs, y :: ys => beqAll x y && beqBodies xs ys
  | _, _ => false
termination_by structural l => l

def beqAll : List Shape → List Shape → Bool
  | [], [] => true
  | x :: xs, y :: ys => x.beq y && beqAll xs ys
  | _, _ => false
termination_by structural l => l

end

instance : BEq Shape := ⟨beq⟩

end Shape

namespace Node

mutual

def shape : Node → Shape
  | text content => .text content
  | expression markup => .expression markup
  | conditional name _ body none => .tag name [shapes body]
  | conditional name _ body (some alternative) => .tag name [shapes body, shapes alternative]
  | loop name _ _ body => .tag name [shapes body]
  | comment name body => .tag name [shapes body]
  | interrupt name _ => .tag name []
  | leaf name _ => .tag name []
  | block name _ body => .tag name [shapes body]
termination_by structural n => n

def shapes : List Node → List Shape
  | [] => []
  | n :: rest => n.shape :: shapes rest
termination_by structural l => l

end

end Node
end Liquid
