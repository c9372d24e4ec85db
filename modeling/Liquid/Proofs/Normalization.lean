import Mathlib.Logic.Relation
import Liquid.Proofs.Merging

/-!
# Normal trees

Nodes that render nothing and do nothing may be deleted, texts side by side may be merged, and what
follows a request to the loop around it may be dropped, in any order, any number of times and at any
depth of conditionals and loops.  What a tree renders does not change.  Every tree has a normal form
that is reached in this way, in which none of this can be done any more.
-/

namespace Liquid

open Relation (ReflTransGen)

namespace Node

/-! ## Normal forms -/

/-- Whether a node renders nothing and does nothing: an empty text or a comment. -/
def isIdle : Node → Bool
  | text content => content.isEmpty
  | comment _ _ => true
  | _ => false

def isInterrupt : Node → Bool
  | interrupt _ _ => true
  | _ => false

/-- A node may stand before another in a normal list: nothing stands after a request, and no text
after a text. -/
def MayPrecede (n next : Node) : Prop :=
  ¬n.isInterrupt ∧ ¬(n.isText ∧ next.isText)

mutual

/-- The bodies of a conditional or a loop are normal. -/
def NormalInside : Node → Prop
  | conditional _ _ body none => AllNormal body
  | conditional _ _ body (some alternative) => AllNormal body ∧ AllNormal alternative
  | loop _ _ _ body => AllNormal body
  | text _ | expression _ | comment _ _ | interrupt _ _ | leaf _ _ | block _ _ _ => True
termination_by structural n => n

/-- A normal list: no node is idle, each may stand before the next, and all are normal inside. -/
def AllNormal : List Node → Prop
  | [] => True
  | n :: rest =>
    ¬n.isIdle ∧ (∀ next ∈ rest.head?, n.MayPrecede next) ∧ n.NormalInside ∧ AllNormal rest
termination_by structural l => l

end

/-- A node in front of a normal list. -/
def consNormal (n : Node) (rest : List Node) : List Node :=
  if n.isIdle then rest
  else if n.isInterrupt then [n]
  else consMerged n rest

mutual

/-- The node with the bodies of conditionals and loops in normal form. -/
def normalizeInside : Node → Node
  | conditional name condition body none => conditional name condition (normalize body) none
  | conditional name condition body (some alternative) =>
    conditional name condition (normalize body) (some (normalize alternative))
  | loop name item collection body => loop name item collection (normalize body)
  | text content => text content
  | expression markup => expression markup
  | comment name body => comment name body
  | interrupt name request => interrupt name request
  | leaf name render => leaf name render
  | block name wrap body => block name wrap body
termination_by structural n => n

def normalize : List Node → List Node
  | [] => []
  | n :: rest => consNormal n.normalizeInside (normalize rest)
termination_by structural l => l

end

/-! ## Simplifications -/

/-- One simplification at one place of a list of nodes, or of a conditional or a loop in it. -/
inductive Simplifies : List Node → List Node → Prop
  | drop {n : Node} {rest : List Node} (idle : n.isIdle) : Simplifies (n :: rest) rest
  | merge {content next : String} {rest : List Node} :
    Simplifies (text content :: text next :: rest) (text (content ++ next) :: rest)
  | cut {name : String} {request : Interrupt} {n : Node} {rest : List Node} :
    Simplifies (interrupt name request :: n :: rest) (interrupt name request :: rest)
  | later {n : Node} {rest rest' : List Node} (h : Simplifies rest rest') :
    Simplifies (n :: rest) (n :: rest')
  | body {name condition : String} {body body' : List Node} {alternative : Option (List Node)}
    {rest : List Node} (h : Simplifies body body') :
    Simplifies (conditional name condition body alternative :: rest)
      (conditional name condition body' alternative :: rest)
  | alternative {name condition : String} {body alternative alternative' rest : List Node}
    (h : Simplifies alternative alternative') :
    Simplifies (conditional name condition body (some alternative) :: rest)
      (conditional name condition body (some alternative') :: rest)
  | loop {name item collection : String} {body body' rest : List Node}
    (h : Simplifies body body') :
    Simplifies (loop name item collection body :: rest) (loop name item collection body' :: rest)

/-! ### The normal form is normal -/

theorem exists_eq_text
    {n : Node} (h : n.isText) :
    ∃ content, n = text content := by
  cases n with
  | text content => exact ⟨content, rfl⟩
  | _ => exact absurd h (by simp [isText])

theorem allNormal_consMerged
    {n : Node} {rest : List Node} (hidle : ¬n.isIdle) (hinterrupt : ¬n.isInterrupt)
    (hinside : n.NormalInside) (hrest : AllNormal rest) :
    AllNormal (consMerged n rest) := by
  unfold consMerged
  split
  next content next more =>
    obtain ⟨-, hnext, -, hmore⟩ := hrest
    refine ⟨?_, hnext, trivial, hmore⟩
    have hcontent : content ≠ "" := by simpa [isIdle] using hidle
    simp [isIdle, hcontent]
  next hapart =>
    refine ⟨hidle, fun next hnext => ⟨hinterrupt, ?_⟩, hinside, hrest⟩
    rintro ⟨hn, hnext'⟩
    obtain ⟨more, rfl⟩ := List.head?_eq_some_iff.mp hnext
    obtain ⟨content, rfl⟩ := exists_eq_text hn
    obtain ⟨content', rfl⟩ := exists_eq_text hnext'
    exact hapart content content' more rfl rfl

theorem allNormal_consNormal
    {n : Node} {rest : List Node} (hinside : n.NormalInside) (hrest : AllNormal rest) :
    AllNormal (consNormal n rest) := by
  unfold consNormal
  by_cases hidle : n.isIdle
  · rw [if_pos hidle]
    exact hrest
  · rw [if_neg hidle]
    by_cases hinterrupt : n.isInterrupt
    · rw [if_pos hinterrupt]
      exact ⟨hidle, by simp, hinside, trivial⟩
    · rw [if_neg hinterrupt]
      exact allNormal_consMerged hidle hinterrupt hinside hrest

mutual

theorem normalInside_normalizeInside : ∀ n : Node, n.normalizeInside.NormalInside
  | conditional _ _ body none => allNormal_normalize body
  | conditional _ _ body (some alternative) =>
    ⟨allNormal_normalize body, allNormal_normalize alternative⟩
  | loop _ _ _ body => allNormal_normalize body
  | text _ => trivial
  | expression _ => trivial
  | comment _ _ => trivial
  | interrupt _ _ => trivial
  | leaf _ _ => trivial
  | block _ _ _ => trivial
termination_by structural n => n

theorem allNormal_normalize : ∀ nodes : List Node, AllNormal (normalize nodes)
  | [] => trivial
  | n :: rest => allNormal_consNormal (normalInside_normalizeInside n) (allNormal_normalize rest)
termination_by structural nodes => nodes

end

/-! ### The normal form is reached by simplifications -/

/-- After a request one node after another is cut off. -/
theorem simplifies_cut_all (name : String) (request : Interrupt) (rest : List Node) :
    ReflTransGen Simplifies (interrupt name request :: rest) [interrupt name request] := by
  induction rest with
  | nil => exact .refl
  | cons n rest ih => exact .head .cut ih

theorem simplifies_consMerged (n : Node) (rest : List Node) :
    ReflTransGen Simplifies (n :: rest) (consMerged n rest) := by
  unfold consMerged
  split
  · exact .single .merge
  · exact .refl

theorem simplifies_consNormal (n : Node) (rest : List Node) :
    ReflTransGen Simplifies (n :: rest) (consNormal n rest) := by
  unfold consNormal
  by_cases hidle : n.isIdle
  · rw [if_pos hidle]
    exact .single (.drop hidle)
  · rw [if_neg hidle]
    by_cases hinterrupt : n.isInterrupt
    · rw [if_pos hinterrupt]
      cases n with
      | interrupt name request => exact simplifies_cut_all name request rest
      | _ => exact absurd hinterrupt (by simp [isInterrupt])
    · rw [if_neg hinterrupt]
      exact simplifies_consMerged n rest

mutual

theorem simplifies_normalizeInside :
    ∀ (n : Node) (rest : List Node),
      ReflTransGen Simplifies (n :: rest) (n.normalizeInside :: rest)
  | conditional name condition body none, rest =>
    (simplifies_normalize body).lift (fun nodes => conditional name condition nodes none :: rest)
      fun _ _ => .body
  | conditional name condition body (some alternative), rest => by
      have hbody : ReflTransGen Simplifies
          (conditional name condition body (some alternative) :: rest)
          (conditional name condition (normalize body) (some alternative) :: rest) :=
        (simplifies_normalize body).lift
          (fun nodes => conditional name condition nodes (some alternative) :: rest)
          fun _ _ => .body
      have halternative : ReflTransGen Simplifies
          (conditional name condition (normalize body) (some alternative) :: rest)
          (conditional name condition (normalize body) (some (normalize alternative)) :: rest) :=
        (simplifies_normalize alternative).lift
          (fun nodes => conditional name condition (normalize body) (some nodes) :: rest)
          fun _ _ => .alternative
      exact hbody.trans halternative
  | loop name item collection body, rest =>
    (simplifies_normalize body).lift (fun nodes => loop name item collection nodes :: rest)
      fun _ _ => .loop
  | text _, _ => .refl
  | expression _, _ => .refl
  | comment _ _, _ => .refl
  | interrupt _ _, _ => .refl
  | leaf _ _, _ => .refl
  | block _ _ _, _ => .refl
termination_by structural n => n

theorem simplifies_normalize :
    ∀ nodes : List Node, ReflTransGen Simplifies nodes (normalize nodes)
  | [] => .refl
  | n :: rest => by
      have hrest : ReflTransGen Simplifies (n :: rest) (n :: normalize rest) :=
        (simplifies_normalize rest).lift (fun nodes => n :: nodes) fun _ _ => .later
      have hinside := simplifies_normalizeInside n (normalize rest)
      have hcons := simplifies_consNormal n.normalizeInside (normalize rest)
      exact (hrest.trans hinside).trans hcons
termination_by structural nodes => nodes

end

end Node

/-! ## Rendering -/

theorem RenderM.ext
    {α : Type} {x y : RenderM α} (h : ∀ ctx, renderFrom x ctx = renderFrom y ctx) :
    x = y :=
  funext h

theorem Node.render_of_isIdle
    {n : Node} (h : n.isIdle) :
    n.render = pure (.emitted "") := by
  cases n with
  | text content =>
      obtain rfl : content = "" := by simpa [isIdle] using h
      rfl
  | comment name body => rfl
  | _ => exact absurd h (by simp [isIdle])

theorem renderAll_cons_of_isIdle
    {n : Node} (h : n.isIdle) (rest : List Node) :
    renderAll (n :: rest) = renderAll rest := by
  apply RenderM.ext
  intro ctx
  by_cases hi : ctx.interrupts = []
  · rw [renderAll_cons n rest hi, Node.render_of_isIdle h, renderFrom_recovering]
    rcases hout : renderFrom (renderAll rest) ctx with ⟨outcome, after⟩
    cases outcome <;> simp [hout, Except.map]
  · rw [renderAll_of_pending _ hi, renderAll_of_pending _ hi]

/-- What follows a request in its list is not rendered. -/
theorem renderAll_cons_interrupt (name : String) (request : Interrupt) (rest rest' : List Node) :
    renderAll (.interrupt name request :: rest) = renderAll (.interrupt name request :: rest') := by
  apply RenderM.ext
  intro ctx
  by_cases hi : ctx.interrupts = []
  · rw [renderAll_cons _ _ hi, renderAll_cons _ _ hi, renderFrom_recovering, Node.render]
    rfl
  · rw [renderAll_of_pending _ hi, renderAll_of_pending _ hi]

/-- What a list renders follows from what its first node renders and from what the others do. -/
theorem renderAll_congr
    {n n' : Node} {rest rest' : List Node} (hn : n.render = n'.render)
    (hrest : renderAll rest = renderAll rest') :
    renderAll (n :: rest) = renderAll (n' :: rest') := by
  rw [renderAll, renderAll, hn, hrest]

/-- A simplification does not change what is rendered. -/
theorem Node.Simplifies.renderAll_eq
    {nodes nodes' : List Node} (h : Simplifies nodes nodes') :
    renderAll nodes = renderAll nodes' := by
  induction h with
  | drop idle => exact renderAll_cons_of_isIdle idle _
  | merge => exact RenderM.ext (renderAll_text_text _ _ _)
  | cut => exact renderAll_cons_interrupt _ _ _ _
  | later _ ih => exact renderAll_congr rfl ih
  | @body name condition body body' alternative rest _ ih =>
      refine renderAll_congr ?_ rfl
      cases alternative with
      | none => rw [Node.render, Node.render, ih]
      | some alternative => rw [Node.render, Node.render, ih]
  | alternative _ ih =>
      refine renderAll_congr ?_ rfl
      rw [Node.render, Node.render, ih]
  | loop _ ih =>
      refine renderAll_congr ?_ rfl
      rw [Node.render, Node.render, ih]

theorem renderAll_eq_of_simplifies
    {nodes nodes' : List Node} (h : ReflTransGen Node.Simplifies nodes nodes') :
    renderAll nodes = renderAll nodes' := by
  induction h with
  | refl => rfl
  | tail _ hstep ih => exact ih.trans hstep.renderAll_eq

/-- However a tree is simplified, it renders the same text or fatal error from every context, and
leaves the same context.  So does its normal form, which is reached by simplifications and is
normal, whatever the tree was. -/
theorem normalize_renders_alike (nodes : List Node) :
    (∀ ctx, renderFrom (renderAll (Node.normalize nodes)) ctx = renderFrom (renderAll nodes) ctx) ∧
      Node.AllNormal (Node.normalize nodes) ∧
      ReflTransGen Node.Simplifies nodes (Node.normalize nodes) ∧
      ∀ nodes', ReflTransGen Node.Simplifies nodes nodes' →
        ∀ ctx, renderFrom (renderAll nodes') ctx = renderFrom (renderAll nodes) ctx := by
  have hall (nodes' : List Node) (h : ReflTransGen Node.Simplifies nodes nodes') (ctx : Context) :
      renderFrom (renderAll nodes') ctx = renderFrom (renderAll nodes) ctx := by
    rw [renderAll_eq_of_simplifies h]
  have hreached := Node.simplifies_normalize nodes
  exact ⟨hall _ hreached, Node.allNormal_normalize nodes, hreached, hall⟩

/-- Comments and texts around each other, a tag that would end the rendering behind a request, and a
tag that leaves an interrupt itself, so that the texts after it are never rendered. -/
theorem normalize_renders_alike_unseen_tags :
    let halts : Node := .leaf "halts" (throw (.fatal (.stated "halted")))
    let shouts : Node := .leaf "shouts" do
      modify (·.pushInterrupt .next)
      pure (.emitted "!")
    let around (body : List Node) : List Node :=
      [.text "a", .comment "comment" [halts], .text "", .text "b", .loop "for" "x" "list" body]
    let nodes := around
      [.conditional "if" "x" [.interrupt "break" .leave, halts, .text "c"]
          (some [.text "", .comment "comment" []]),
        shouts, .text "d", .comment "comment" [], .text "e"]
    let partly := around
      [.conditional "if" "x" [.interrupt "break" .leave, .text "c"]
          (some [.text "", .comment "comment" []]),
        shouts, .text "d", .comment "comment" [], .text "e"]
    let normal : List Node :=
      [.text "ab",
        .loop "for" "x" "list"
          [.conditional "if" "x" [.interrupt "break" .leave] (some []), shouts, .text "de"]]
    let ctx : Context := { root := .map [("list", .list [.nil, .bool true, .nil])] }
    Node.normalize nodes = normal ∧ ReflTransGen Node.Simplifies nodes partly ∧
      renderFrom (renderAll normal) ctx = renderFrom (renderAll nodes) ctx ∧
      renderFrom (renderAll partly) ctx = renderFrom (renderAll nodes) ctx ∧
      (renderFrom (renderAll normal) ctx).1.toOption = some "ab!" := by
  intro halts shouts around nodes partly normal ctx
  have hnormal : Node.normalize nodes = normal := by
    rfl
  have hpartly : ReflTransGen Node.Simplifies nodes partly :=
    .single (.later (.later (.later (.later (.loop (.body .cut))))))
  obtain ⟨halike, -, -, hsimplified⟩ := normalize_renders_alike nodes
  rw [hnormal] at halike
  refine ⟨hnormal, hpartly, halike ctx, hsimplified partly hpartly ctx, ?_⟩
  decide +kernel

end Liquid
