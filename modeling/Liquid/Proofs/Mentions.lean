import Liquid.Proofs.Flow

/-!
# The data that a template looks at

A tree of standard tags looks at the data only through the expressions that it mentions, and for each
of them only at two entries: the one under the whole expression, and the one under what stands before
its first point.  Data that agree there are rendered alike.
-/

namespace Liquid

/-! ## Entries and paths -/

/-- The entry of a map under a key; other values have no entries. -/
def Value.entry? : Value → String → Option Value
  | map entries, key => entries.lookup key
  | _, _ => none

/-- What stands before the first point of a path. -/
def pathHead (path : String) : String :=
  String.ofList (path.toList.takeWhile (· != '.'))

/-- Two values have the same entries, or none, under a path as a whole and under its head.  The order
of the entries of a map inside these is a part of what is the same. -/
def Value.AgreeUnder (data data' : Value) (path : String) : Prop :=
  data.entry? path = data'.entry? path ∧ data.entry? (pathHead path) = data'.entry? (pathHead path)

theorem Text.takeWhile_of_divideAt?
    {α : Type} [BEq α] {sep : α} {l before after : List α}
    (h : divideAt? sep l = some (before, after)) :
    l.takeWhile (· != sep) = before := by
  induction l generalizing before with
  | nil => simp [divideAt?] at h
  | cons a rest ih =>
      unfold divideAt? at h
      by_cases ha : a == sep
      · rw [if_pos ha] at h
        obtain ⟨rfl, rfl⟩ := Prod.mk.inj (Option.some.inj h)
        exact List.takeWhile_cons_of_neg (by simp [bne, ha])
      · rw [if_neg ha] at h
        obtain ⟨parts, hparts, heq⟩ := Option.map_eq_some_iff.mp h
        obtain ⟨rfl, rfl⟩ := Prod.mk.inj heq
        rw [List.takeWhile_cons_of_pos (by simp [bne, ha]), ih hparts]

namespace Context

theorem binding?_eq (ctx : Context) (name : String) :
    ctx.binding? name = (ctx.locals.lookup name).or (ctx.root.entry? name) := by
  unfold binding?
  cases ctx.locals.lookup name with
  | some v => rfl
  | none =>
      rw [Option.none_or]
      unfold Value.entry?
      cases ctx.root <;> rfl

variable {ctx ctx' : Context}

theorem find?_congr
    {path : String} (hlocals : ctx.locals = ctx'.locals)
    (h : ctx.root.AgreeUnder ctx'.root path) :
    ctx.find? path = ctx'.find? path := by
  have hwhole : ctx.binding? path = ctx'.binding? path := by
    rw [binding?_eq, binding?_eq, hlocals, h.1]
  have hhead : ctx.binding? (pathHead path) = ctx'.binding? (pathHead path) := by
    rw [binding?_eq, binding?_eq, hlocals, h.2]
  unfold find?
  rw [hwhole]
  split
  · rfl
  · split
    · rfl
    · next before after hdivide =>
        rw [pathHead, Text.takeWhile_of_divideAt? hdivide] at hhead
        rw [hhead]

theorem evaluate_congr
    {expr : String} (hlocals : ctx.locals = ctx'.locals) (hstrict : ctx.strict = ctx'.strict)
    (h : ctx.root.AgreeUnder ctx'.root (Text.trim expr)) :
    ctx.evaluate expr = ctx'.evaluate expr := by
  simp only [evaluate, find?_congr hlocals h, hstrict]

theorem variableText_congr
    {markup : String} (hlocals : ctx.locals = ctx'.locals) (hstrict : ctx.strict = ctx'.strict)
    (h : ctx.root.AgreeUnder ctx'.root (Text.trim markup)) :
    ctx.variableText markup = ctx'.variableText markup := by
  simp only [variableText, evaluate_congr hlocals hstrict h]

end Context

/-! ## Mentioned expressions -/

namespace Node

mutual

/-- The expressions that a node may look up: the trimmed markup of a variable, the operands of a
condition, the collection of a loop.  A comment mentions nothing, since its body is never rendered,
and what a tag other than the standard ones looks up is its own affair. -/
def mentions : Node → List String
  | expression markup => [Text.trim markup]
  | conditional _ condition body none => Condition.mentions condition ++ mentionsAll body
  | conditional _ condition body (some alternative) =>
    Condition.mentions condition ++ mentionsAll body ++ mentionsAll alternative
  | loop _ _ collection body => collection :: mentionsAll body
  | block _ _ body => mentionsAll body
  | text _ | comment _ _ | interrupt _ _ | leaf _ _ => []
termination_by structural n => n

def mentionsAll : List Node → List String
  | [] => []
  | n :: rest => n.mentions ++ mentionsAll rest
termination_by structural l => l

end

end Node

def Bindings.over (b : Bindings) (data : Value) : Bindings :=
  { b with root := data }

section

variable {b : Bindings} {data : Value}

theorem Condition.eval_over
    {condition : String}
    (h : ∀ operand ∈ mentions condition, b.root.AgreeUnder data operand) :
    eval (b.over data).context condition = eval b.context condition := by
  symm
  apply eval_congr
  intro operand hoperand
  apply Context.evaluate_congr
  · rfl
  · rfl
  · rw [trim_of_mem_mentions hoperand]
    exact h operand hoperand

theorem Context.lookup_over
    {collection : String} (h : b.root.AgreeUnder data collection) :
    (b.over data).context.lookup collection = b.context.lookup collection := by
  have hfind : b.context.find? collection = (b.over data).context.find? collection :=
    Context.find?_congr rfl h
  rw [Context.lookup, Context.lookup, hfind]

end

mutual

theorem flow_over :
    ∀ (n : Node), n.StandardOver (fun _ => False) → ∀ {b : Bindings} {data : Value},
      (∀ path ∈ n.mentions, b.root.AgreeUnder data path) → n.flow (b.over data) = n.flow b
  | .text content, _, _, _, _ => rfl
  | .expression markup, _, b, data, h => by
      rw [Node.flow, Node.flow]
      have hagree := h (Text.trim markup) List.mem_cons_self
      have htext : b.context.variableText markup = (b.over data).context.variableText markup :=
        Context.variableText_congr rfl rfl hagree
      rw [htext]
  | .conditional name condition body none, hn, b, data, h => by
      rw [Node.mentions] at h
      rw [Node.flow, Node.flow, Condition.eval_over fun o ho => h o (List.mem_append_left _ ho),
        flowAll_over body hn fun path hpath => h path (List.mem_append_right _ hpath)]
  | .conditional name condition body (some alternative), hn, b, data, h => by
      rw [Node.mentions] at h
      have hcondition : ∀ o ∈ Condition.mentions condition, b.root.AgreeUnder data o :=
        fun o ho => h o (List.mem_append_left _ (List.mem_append_left _ ho))
      have hbody : ∀ path ∈ Node.mentionsAll body, b.root.AgreeUnder data path :=
        fun path hpath => h path (List.mem_append_left _ (List.mem_append_right _ hpath))
      have halternative : ∀ path ∈ Node.mentionsAll alternative, b.root.AgreeUnder data path :=
        fun path hpath => h path (List.mem_append_right _ hpath)
      rw [Node.flow, Node.flow, Condition.eval_over hcondition, flowAll_over body hn.1 hbody,
        flowAll_over alternative hn.2 halternative]
  | .loop name item collection body, hn, b, data, h => by
      rw [Node.mentions] at h
      have hbody (v : Value) :
          flowAll body ((b.over data).bind item v) = flowAll body (b.bind item v) :=
        flowAll_over body hn (b := b.bind item v) fun path hpath =>
          h path (List.mem_cons_of_mem collection hpath)
      rw [Node.flow, Node.flow, Context.lookup_over (h collection List.mem_cons_self)]
      simp only [hbody]
  | .comment name body, _, _, _, _ => rfl
  | .interrupt name request, _, _, _, _ => rfl
termination_by structural n => n

theorem flowAll_over :
    ∀ (nodes : List Node), Node.AllStandard nodes →
      ∀ {b : Bindings} {data : Value},
        (∀ path ∈ Node.mentionsAll nodes, b.root.AgreeUnder data path) →
          flowAll nodes (b.over data) = flowAll nodes b
  | [], _, _, _, _ => rfl
  | n :: rest, hn, b, data, h => by
      rw [Node.mentionsAll] at h
      rw [flowAll, flowAll, flow_over n hn.1 fun path hpath => h path (List.mem_append_left _ hpath),
        flowAll_over rest hn.2 fun path hpath => h path (List.mem_append_right _ hpath)]
termination_by structural nodes => nodes

end

/-- A tree of standard tags is rendered alike over data that agree under every expression that it
mentions: the same text, the same errors, the same interrupts.  To agree is to have the very same
entries there, maps inside them in the same order. -/
theorem renderAll_depends_on_mentions
    {nodes : List Node} (hn : Node.AllStandard nodes) {data data' : Value}
    (h : ∀ path ∈ Node.mentionsAll nodes, data.AgreeUnder data' path) (options : Options) :
    let result := renderFrom (renderAll nodes) (.new data options)
    let result' := renderFrom (renderAll nodes) (.new data' options)
    result.1 = result'.1 ∧ result.2.errors = result'.2.errors ∧
      result.2.interrupts = result'.2.interrupts := by
  intro result result'
  let b : Bindings := ⟨data, [], options.strict⟩
  have hflow : flowAll nodes (b.over data') = flowAll nodes b := flowAll_over nodes hn h
  obtain ⟨houtcome, herrors, hpending⟩ := renderAll_new_eq_flowAll hn data options
  obtain ⟨houtcome', herrors', hpending'⟩ := renderAll_new_eq_flowAll hn data' options
  refine ⟨?_, ?_, ?_⟩
  · calc
      result.1 = (flowAll nodes b).outcome := houtcome
      _ = (flowAll nodes (b.over data')).outcome := by rw [hflow]
      _ = result'.1 := houtcome'.symm
  · calc
      result.2.errors = (flowAll nodes b).errors := herrors
      _ = (flowAll nodes (b.over data')).errors := by rw [hflow]
      _ = result'.2.errors := herrors'.symm
  · calc
      result.2.interrupts = (flowAll nodes b).pending := hpending
      _ = (flowAll nodes (b.over data')).pending := by rw [hflow]
      _ = result'.2.interrupts := hpending'.symm

/-- A loop over a list inside the data whose item hides an entry of its name, a condition that prints
a value in its error, and a body that is left early; the data differ in an entry that is not
mentioned. -/
theorem renderAll_depends_on_mentions_hidden_entry :
    let nodes : List Node :=
      [.loop "for" "x" "shop.items"
          [.conditional "if" "x == 'stop' or x.price > 1 " [.interrupt "break" .leave]
            (some [.expression " x.name "])],
        .comment "comment" [.expression "secret"]]
    let shop : Value :=
      .map [("items", .list [.map [("name", .str "a"), ("price", .bool true)], .str "stop"])]
    let data : Value := .map [("secret", .int 1), ("shop", shop), ("x", .nil)]
    let data' : Value := .map [("extra", .list []), ("shop", shop), ("x", .nil)]
    let result := renderFrom (renderAll nodes) (.new data {})
    let result' := renderFrom (renderAll nodes) (.new data' {})
    Node.AllStandard nodes ∧ (∀ path ∈ Node.mentionsAll nodes, data.AgreeUnder data' path) ∧
      (result.1 = result'.1 ∧ result.2.errors = result'.2.errors ∧
        result.2.interrupts = result'.2.interrupts) ∧
      result.2.errors.map Error.message =
        ["Comparison of Bool(true) with Int(1) failed"] := by
  intro nodes shop data data' result result'
  have hn : Node.AllStandard nodes := by
    simp [nodes, Node.AllStandardOver, Node.StandardOver]
  have hmentions : Node.mentionsAll nodes =
      ["shop.items", "x", "'stop'", "x.price", "1", "x.name"] := by
    decide +kernel
  have h : ∀ path ∈ Node.mentionsAll nodes, data.AgreeUnder data' path := by
    rw [hmentions]
    intro path hpath
    simp only [List.mem_cons, List.not_mem_nil, or_false] at hpath
    rcases hpath with rfl | rfl | rfl | rfl | rfl | rfl <;> exact ⟨rfl, rfl⟩
  refine ⟨hn, h, renderAll_depends_on_mentions hn h {}, ?_⟩
  decide +kernel

end Liquid
