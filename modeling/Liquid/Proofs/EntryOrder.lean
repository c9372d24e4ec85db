import Liquid.Proofs.Divergence
import Liquid.Proofs.Mentions
import Liquid.Proofs.Reordering

/-!
# The order of entries never shows

Data that differ in the order in which the entries of maps and the fields of records are handed over
are found, shown and rendered alike.  Only the error of ordering a list or a map shows its parts as
they come, so that a template whose conditions never do that cannot tell such data apart.
-/

namespace Liquid

/-! ## What expressions find -/

/-- Bindings of alike values to the same names. -/
structure Bindings.Alike (b b' : Bindings) : Prop where
  root : b.root.Alike b'.root
  locals : List.Forall₂ (fun l l' => l.1 = l'.1 ∧ l.2.Alike l'.2) b.locals b'.locals
  strict : b.strict = b'.strict

theorem rel_lookup_of_forall₂
    {α : Type} {r : α → α → Prop} {entries entries' : List (String × α)}
    (h : List.Forall₂ (fun e e' => e.1 = e'.1 ∧ r e.2 e'.2) entries entries') (key : String) :
    Option.Rel r (entries.lookup key) (entries'.lookup key) := by
  induction h with
  | nil => exact .none
  | cons he _ ih =>
      rw [lookup_cons_eq_ite, lookup_cons_eq_ite, he.1]
      split
      · exact .some he.2
      · exact ih

theorem Value.Alike.rel_entry?
    {v v' : Value} (h : v.Alike v') (key : String) :
    Option.Rel Value.Alike (v.entry? key) (v'.entry? key) := by
  cases h with
  | @scalar v hs => cases v <;> first | exact .none | exact absurd rfl hs
  | list => exact .none
  | map hnodup hnodup' hkeys hentries => exact rel_lookup hkeys hentries key

/-- No literal denotes a list or a map. -/
theorem Value.alike_of_ofLiteral?
    {expr : String} {v : Value} (h : ofLiteral? expr = some v) :
    v.Alike v := by
  apply Alike.scalar
  unfold ofLiteral? at h
  repeat' split at h
  all_goals first
    | exact Option.some.inj h ▸ Bool.false_ne_true
    | obtain ⟨x, -, rfl⟩ := Option.map_eq_some_iff.mp h
      exact Bool.false_ne_true
    | exact absurd h (by simp)

/-- The outcome of an expression over alike bindings: alike values, or the same error. -/
inductive Value.AlikeOutcome : Except Error Value → Except Error Value → Prop
  | ok {v v' : Value} (h : v.Alike v') : AlikeOutcome (.ok v) (.ok v')
  | error (e : Error) : AlikeOutcome (.error e) (.error e)

namespace Bindings.Alike

variable {b b' : Bindings} (h : b.Alike b')

include h

theorem rel_binding? (name : String) :
    Option.Rel Value.Alike (b.context.binding? name) (b'.context.binding? name) := by
  rw [Context.binding?_eq, Context.binding?_eq]
  have hlocals : Option.Rel Value.Alike (b.context.locals.lookup name)
      (b'.context.locals.lookup name) :=
    rel_lookup_of_forall₂ h.locals name
  generalize b.context.locals.lookup name = v, b'.context.locals.lookup name = v' at hlocals ⊢
  cases hlocals with
  | none => exact h.root.rel_entry? name
  | some hv => exact .some hv

theorem rel_find? (path : String) :
    Option.Rel Value.Alike (b.context.find? path) (b'.context.find? path) := by
  unfold Context.find?
  have hwhole := h.rel_binding? path
  generalize b.context.binding? path = v, b'.context.binding? path = v' at hwhole ⊢
  cases hwhole with
  | some hv => exact .some hv
  | none =>
      cases Text.divideAt? '.' path.toList with
      | none => exact .none
      | some parts =>
          have hhead := h.rel_binding? (String.ofList parts.1)
          dsimp only
          generalize b.context.binding? (String.ofList parts.1) = v,
            b'.context.binding? (String.ofList parts.1) = v' at hhead ⊢
          cases hhead with
          | none => exact .none
          | some hv => exact hv.rel_follow? _

theorem alikeOutcome_evaluate (expr : String) :
    Value.AlikeOutcome (b.context.evaluate expr) (b'.context.evaluate expr) := by
  unfold Context.evaluate
  dsimp only
  cases hliteral : Value.ofLiteral? (Text.trim expr) with
  | some v => exact .ok (Value.alike_of_ofLiteral? hliteral)
  | none =>
      have hfound := h.rel_find? (Text.trim expr)
      generalize b.context.find? (Text.trim expr) = v,
        b'.context.find? (Text.trim expr) = v' at hfound ⊢
      cases hfound with
      | some hv => exact .ok hv
      | none =>
          have hstrict : b.context.strict = b'.context.strict := h.strict
          dsimp only
          rw [hstrict]
          split
          · exact .error _
          · exact .ok (.scalar Bool.false_ne_true)

end Bindings.Alike

/-! ## What conditions compare -/

/-- Whether an error is that of ordering two values of which one is a list or a map. -/
def Error.ordersCollection : Error → Bool
  | .argument (.unordered v w) => v.isCollection || w.isCollection
  | _ => false

section

variable {v v' w w' : Value} (hv : v.Alike v') (hw : w.Alike w')

include hv hw

theorem agreeUnless_ordered (holds : Ordering → Bool) :
    AgreeUnless (·.ordersCollection) (v.ordered holds w) (v'.ordered holds w') := by
  by_cases h : v.isCollection ∨ w.isCollection
  · right
    refine ⟨.argument (.unordered v w), Bool.or_eq_true_iff.mpr h, ?_⟩
    rw [Value.ordered, Value.Alike.compare?_of_isCollection h]
  · obtain ⟨hleft, hright⟩ := not_or.mp h
    rw [hv.eq_of_not_isCollection hleft, hw.eq_of_not_isCollection hright]
    exact .refl _

theorem agreeUnless_compareBy (op : String) :
    AgreeUnless (·.ordersCollection) (compareBy op v w) (compareBy op v' w') := by
  unfold compareBy
  split
  · next operator _ =>
      cases operator with
      | equal => exact .inl (congrArg Except.ok (hv.looseEq_eq hw))
      | unequal => exact .inl (congrArg (fun b => Except.ok !b) (hv.looseEq_eq hw))
      | less => exact agreeUnless_ordered hv hw (· == .lt)
      | greater => exact agreeUnless_ordered hv hw (· == .gt)
      | atMost => exact agreeUnless_ordered hv hw (· != .gt)
      | atLeast => exact agreeUnless_ordered hv hw (· != .lt)
      | contains => exact .inl (congrArg Except.ok (hv.contains_eq hw))
  · exact .refl _

end

theorem agreeUnless_evalTest_of_alike
    {b b' : Bindings} (h : b.Alike b') (test : List String) :
    AgreeUnless (·.ordersCollection) (Condition.evalTest b.context test)
      (Condition.evalTest b'.context test) := by
  unfold Condition.evalTest
  split
  · next operand =>
      left
      have houtcome := h.alikeOutcome_evaluate operand
      generalize b.context.evaluate operand = x, b'.context.evaluate operand = x' at houtcome ⊢
      cases houtcome with
      | ok hv => exact congrArg Except.ok hv.isTruthy_eq
      | error e => rfl
  · next left op right =>
      have hleft := h.alikeOutcome_evaluate left
      have hright := h.alikeOutcome_evaluate right
      generalize b.context.evaluate left = x, b'.context.evaluate left = x' at hleft ⊢
      generalize b.context.evaluate right = y, b'.context.evaluate right = y' at hright ⊢
      cases hleft with
      | error e => exact .refl _
      | ok hv =>
          cases hright with
          | error e => exact .refl _
          | ok hw => exact agreeUnless_compareBy hv hw op
  · exact .refl _

/-- Bindings of alike values are coupled. -/
theorem coupling_alike : Coupling (·.ordersCollection) Bindings.Alike where
  recoverable := by
    intro e he
    cases e with
    | fatal => exact absurd he Bool.false_ne_true
    | _ => rfl
  text := by
    intro b b' h markup
    unfold Context.variableText
    split
    · exact .refl _
    · left
      have houtcome := h.alikeOutcome_evaluate markup
      generalize b.context.evaluate markup = x, b'.context.evaluate markup = x' at houtcome ⊢
      cases houtcome with
      | ok hv => exact congrArg Except.ok hv.display_eq
      | error e => rfl
  condition := by
    intro b b' h condition
    exact Condition.agreeUnless_eval (agreeUnless_evalTest_of_alike h) condition
  items := by
    intro b b' h name collection
    have hcollection : (b.context.lookup collection).Alike (b'.context.lookup collection) := by
      rw [Context.lookup, Context.lookup]
      have hfound := h.rel_find? collection
      generalize b.context.find? collection = x, b'.context.find? collection = x' at hfound ⊢
      cases hfound with
      | none => exact .scalar Bool.false_ne_true
      | some hv => exact hv
    exact hcollection.items.imp fun v v' hv => ⟨h.root, .cons ⟨rfl, hv⟩ h.locals, h.strict⟩

/-- Data with distinct keys may be handed over in any order of the entries of their maps and of the
fields of their records, at any depth: their values are equal up to the order of entries, so are the
values found at every path, their texts are the same, and a tree of standard tags is rendered to the
same text, errors and interrupts, unless a condition orders a list or a map.  The equality of values
holds between the two as it does between the first and itself, where a number may be unequal to
itself. -/
theorem order_of_entries_never_shows
    {d d' : Datum} {v : Value} (hv : d.toValue = .ok v) (hkeys : d.DistinctKeys)
    (h : d.Reordered d') :
    ∃ v', d'.toValue = .ok v' ∧ v.Alike v' ∧ v.strictEq v' = v.strictEq v ∧
      v.display = v'.display ∧
      (∀ (options : Options) (path : String), Option.Rel Value.Alike
        ((Context.new v options).find? path) ((Context.new v' options).find? path)) ∧
      ∀ (nodes : List Node) (options : Options), Node.AllStandard nodes →
        let result := renderFrom (renderAll nodes) (.new v options)
        let result' := renderFrom (renderAll nodes) (.new v' options)
        (∀ e ∈ result.2.errors, ¬e.ordersCollection) →
          result.1 = result'.1 ∧ result.2.errors = result'.2.errors ∧
            result.2.interrupts = result'.2.interrupts := by
  obtain ⟨-, halike, -⟩ := h.exchangeable hkeys
  obtain ⟨v', hv', hvalues⟩ := halike v hv
  have hbindings (options : Options) :
      Bindings.Alike ⟨v, [], options.strict⟩ ⟨v', [], options.strict⟩ :=
    ⟨hvalues, .nil, rfl⟩
  have hself : v.Alike v := Datum.alike_self_of_toValue hv
  refine ⟨v', hv', hvalues, (hself.strictEq_eq hvalues).symm, hvalues.display_eq, ?_, ?_⟩
  · intro options path
    exact (hbindings options).rel_find? path
  · intro nodes options hn result result' hnone
    rcases coupling_alike.renderAll hn (hbindings options) with hsame | ⟨e, hmem, he⟩
    · exact hsame
    · exact absurd he (hnone e hmem)

/-- A map in a key, which stands in an item of a list, a shown map, and an error of ordering values
that are neither lists nor maps. -/
theorem order_of_entries_never_shows_map_in_key :
    let key : Datum := .map [(.text "y", .absent), (.text "x", .bool true)]
    let key' : Datum := .map [(.text "x", .bool true), (.text "y", .absent)]
    let row : Datum := .map [(.text "b", .signed 2), (key, .signed 1)]
    let row' : Datum := .map [(key', .signed 1), (.text "b", .signed 2)]
    let d : Datum := .record [("n", .signed 3), ("rows", .sequence [row])]
    let d' : Datum := .record [("rows", .sequence [row']), ("n", .signed 3)]
    let v : Value :=
      .map [("n", .int 3), ("rows", .list [.map [("b", .int 2), ("xtruey", .int 1)]])]
    let nodes : List Node :=
      [.loop "for" "row" "rows"
        [.conditional "if" "row.b < n" [.expression "row"] none,
          .conditional "if" "row.b < 'x'" [] none]]
    let rendered (v : Value) := renderFrom (renderAll nodes) (.new v {})
    (d.toValue = .ok v ∧ d.DistinctKeys ∧ d.Reordered d') ∧
      ∃ v', d'.toValue = .ok v' ∧ v.display = v'.display ∧ (rendered v).1 = (rendered v').1 ∧
        (rendered v).2.errors = (rendered v').2.errors ∧
        (rendered v).1.toOption =
          some "b2xtruey1Liquid error: Comparison of Int(2) with Str(\"x\") failed" := by
  intro key key' row row' d d' v nodes rendered
  have hv : d.toValue = .ok v := by
    rfl
  have hkeys : d.DistinctKeys := by
    have leaf {d : Datum} (h : d.ownKeys = [] ∧ d.parts = []) : d.DistinctKeys := by
      refine .intro (h.1 ▸ List.nodup_nil) ?_
      simp [h.2]
    have hkey : key.DistinctKeys := by
      refine .intro (by decide +kernel) ?_
      simp [key, Datum.parts, leaf, Datum.ownKeys]
    have hrow : row.DistinctKeys := by
      refine .intro (by decide +kernel) ?_
      simp [row, Datum.parts, leaf, Datum.ownKeys, hkey]
    have hrows : (Datum.sequence [row]).DistinctKeys := by
      refine .intro List.nodup_nil ?_
      simp [Datum.parts, hrow]
    refine .intro (by decide +kernel) ?_
    simp [d, Datum.parts, leaf, Datum.ownKeys, hrows]
  have h : d.Reordered d' := by
    have hkey : key.Reordered key' := .map (.swap _ _ _)
    have hrow : row.Reordered row' :=
      .trans (.key hkey (.signed 1) [(.text "b", .signed 2)] []) (.map (.swap _ _ _))
    exact .trans (.field (.item hrow [] []) "rows" [("n", .signed 3)] []) (.record (.swap _ _ _))
  have hn : Node.AllStandard nodes := by
    simp [nodes, Node.AllStandardOver, Node.StandardOver]
  have hnone : ∀ e ∈ (rendered v).2.errors, ¬e.ordersCollection := by
    decide +kernel
  have htext : (rendered v).1.toOption =
      some "b2xtruey1Liquid error: Comparison of Int(2) with Str(\"x\") failed" := by
    decide +kernel
  obtain ⟨v', hv', -, -, hdisplay, -, hrendered⟩ := order_of_entries_never_shows hv hkeys h
  obtain ⟨hsame, herrors, -⟩ := hrendered nodes {} hn hnone
  exact ⟨⟨hv, hkeys, h⟩, v', hv', hdisplay, hsame, herrors, htext⟩

end Liquid
