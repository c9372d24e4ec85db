import Liquid.Proofs.Composition
import Liquid.Proofs.Digits
import Liquid.Proofs.Mentions

/-!
# Paths and the items of loops

Where no name holds a point, a path is followed segment by segment from the binding of its first
one, so that paths can be put together.  The body of a loop sees each item under the name of the
item just as the item is seen from outside by its number in the list.
-/

namespace Liquid

/-! ## Segments -/

namespace Text

theorem divideAt?_eq_none
    {α : Type} [BEq α] [LawfulBEq α] {sep : α} {l : List α} (h : sep ∉ l) :
    divideAt? sep l = none := by
  induction l with
  | nil => rfl
  | cons a rest ih =>
      have ha : ¬(a == sep) := fun heq => h (eq_of_beq heq ▸ List.mem_cons_self)
      have hrest : sep ∉ rest := fun hmem => h (List.mem_cons_of_mem a hmem)
      rw [divideAt?, if_neg ha, ih hrest]
      rfl

/-- A list is divided at its first separator. -/
theorem divideAt?_append
    {α : Type} [BEq α] [LawfulBEq α] {sep : α} {before : List α} (h : sep ∉ before)
    (after : List α) :
    divideAt? sep (before ++ sep :: after) = some (before, after) := by
  induction before with
  | nil => simp [divideAt?]
  | cons a rest ih =>
      have ha : ¬(a == sep) := fun heq => h (eq_of_beq heq ▸ List.mem_cons_self)
      have hrest : sep ∉ rest := fun hmem => h (List.mem_cons_of_mem a hmem)
      rw [List.cons_append, divideAt?, if_neg ha, ih hrest]
      rfl

end Text

theorem pathSegments_of_not_mem
    {name : String} (h : '.' ∉ name.toList) :
    pathSegments name = [name] := by
  have hne : ∀ c ∈ name.toList, (c == '.') = false := by
    intro c hc
    rw [beq_eq_false_iff_ne]
    rintro rfl
    exact h hc
  rw [pathSegments, List.splitOn, List.splitOnP_eq_singleton hne]
  simp

theorem pathSegments_append (p q : String) :
    pathSegments (p ++ "." ++ q) = pathSegments p ++ pathSegments q := by
  have hchars : (p ++ "." ++ q).toList = p.toList ++ '.' :: q.toList := by simp
  rw [pathSegments, hchars, List.splitOn, List.splitOnP_append_cons _ _ (by decide),
    List.map_append]
  rfl

theorem pathSegments_ne_nil (p : String) : pathSegments p ≠ [] := by
  intro h
  exact List.splitOnP_ne_nil _ _ (List.map_eq_nil_iff.mp h)

theorem Value.follow?_append (v : Value) (xs ys : List String) :
    v.follow? (xs ++ ys) = (v.follow? xs).bind (·.follow? ys) := by
  induction xs generalizing v with
  | nil => rfl
  | cons key rest ih =>
      rw [List.cons_append, follow?, follow?]
      cases v.child? key with
      | none => rfl
      | some w => exact ih w

/-! ## Names without points -/

namespace Context

/-- No local name and no key of the data holds a point. -/
structure Undotted (ctx : Context) : Prop where
  locals : ∀ binding ∈ ctx.locals, '.' ∉ binding.1.toList
  root : ∀ entries, ctx.root = .map entries → ∀ entry ∈ entries, '.' ∉ entry.1.toList

/-- The value at the end of some segments, the first of which is a name. -/
def follow? (ctx : Context) : List String → Option Value
  | [] => none
  | head :: rest => (ctx.binding? head).bind (·.follow? rest)

theorem follow?_append
    (ctx : Context) {xs : List String} (hxs : xs ≠ []) (ys : List String) :
    ctx.follow? (xs ++ ys) = (ctx.follow? xs).bind (·.follow? ys) := by
  cases xs with
  | nil => exact absurd rfl hxs
  | cons head rest =>
      rw [List.cons_append, follow?, follow?, Option.bind_assoc]
      simp only [Value.follow?_append]

variable {ctx : Context}

theorem Undotted.of_bindings
    (h : ctx.Undotted) {after : Context} (heq : after.bindings = ctx.bindings) :
    after.Undotted := by
  obtain ⟨hroot, hlocals, -⟩ := Bindings.mk.inj heq
  constructor
  · rw [hlocals]
    exact h.locals
  · rw [hroot]
    exact h.root

theorem Undotted.push
    (h : ctx.Undotted) {name : String} (hname : '.' ∉ name.toList) (v : Value) :
    (ctx.push name v).Undotted :=
  ⟨List.forall_mem_cons.mpr ⟨hname, h.locals⟩, h.root⟩

theorem lookup_eq_none_of_dotted
    {entries : List (String × Value)} (h : ∀ entry ∈ entries, '.' ∉ entry.1.toList)
    {path : String} (hpath : '.' ∈ path.toList) :
    entries.lookup path = none := by
  rw [List.lookup_eq_none_iff]
  intro entry hentry
  rw [bne_iff_ne]
  intro heq
  exact h entry hentry (heq ▸ hpath)

/-- A path with a point is not bound as a whole. -/
theorem Undotted.binding?_eq_none
    (h : ctx.Undotted) {path : String} (hpath : '.' ∈ path.toList) :
    ctx.binding? path = none := by
  rw [binding?_eq, lookup_eq_none_of_dotted h.locals hpath, Option.none_or]
  unfold Value.entry?
  split
  next entries hroot => exact lookup_eq_none_of_dotted (h.root entries hroot) hpath
  next => rfl

/-- A name is bound as a whole or not at all. -/
theorem find?_of_not_mem
    (ctx : Context) {name : String} (hname : '.' ∉ name.toList) :
    ctx.find? name = ctx.binding? name := by
  unfold find?
  rw [Text.divideAt?_eq_none hname]
  cases ctx.binding? name with
  | none => rfl
  | some v => rfl

theorem Undotted.find?_eq_follow?
    (h : ctx.Undotted) (path : String) :
    ctx.find? path = ctx.follow? (pathSegments path) := by
  by_cases hpath : '.' ∈ path.toList
  · obtain ⟨before, after, hsplit, hbefore⟩ := List.eq_append_cons_of_mem hpath
    have hwhole : path = String.ofList before ++ "." ++ String.ofList after := by
      rw [← String.toList_inj, hsplit]
      simp
    have hhead : pathSegments (String.ofList before) = [String.ofList before] :=
      pathSegments_of_not_mem (by rwa [String.toList_ofList])
    have hsegments : pathSegments path =
        String.ofList before :: pathSegments (String.ofList after) := by
      rw [hwhole, pathSegments_append, hhead]
      rfl
    unfold find?
    rw [h.binding?_eq_none hpath, hsplit, Text.divideAt?_append hbefore, hsegments, follow?]
    dsimp only
    cases ctx.binding? (String.ofList before) with
    | none => rfl
    | some v => rfl
  · rw [find?_of_not_mem ctx hpath, pathSegments_of_not_mem hpath, follow?]
    cases ctx.binding? path with
    | none => rfl
    | some v => rfl

/-- A path goes on from the value at the end of its first part. -/
theorem Undotted.find?_append
    (h : ctx.Undotted) (p q : String) :
    ctx.find? (p ++ "." ++ q) = (ctx.find? p).bind (·.follow? (pathSegments q)) := by
  rw [h.find?_eq_follow?, h.find?_eq_follow?, pathSegments_append,
    follow?_append ctx (pathSegments_ne_nil p)]

/-- An item of a list is found by its number. -/
theorem Undotted.find?_item
    (h : ctx.Undotted) {p : String} {items : List Value} (hp : ctx.find? p = some (.list items))
    (i : Nat) :
    ctx.find? (p ++ "." ++ toString i) = items[i]? := by
  have hdigits : Text.AllDigits (toString i).toList := by
    rw [Text.toList_toString]
    exact Text.allDigits_digitsOf i
  have hpoint : '.' ∉ (toString i).toList := fun hmem => absurd (hdigits '.' hmem) (by decide)
  have hother {word : String} {c : Char} (hc : c ∈ word.toList) (hcd : ¬c.isDigit) :
      (toString i == word) = false := by
    rw [beq_eq_false_iff_ne]
    rintro rfl
    exact hcd (hdigits c hc)
  have hfirst : (toString i == "first") = false := hother (c := 'f') (by decide) (by decide)
  have hlast : (toString i == "last") = false := hother (c := 'l') (by decide) (by decide)
  have hnat : Text.nat? (toString i).toList = some i := by
    rw [Text.toList_toString, Text.nat?_digitsOf]
  rw [h.find?_append, hp, pathSegments_of_not_mem hpoint, Option.bind_some, Value.follow?,
    Value.child?]
  simp only [hfirst, hlast, hnat, Bool.false_eq_true, if_false]
  cases items[i]? with
  | none => rfl
  | some v => rfl

theorem find?_push_self
    (ctx : Context) {name : String} (hname : '.' ∉ name.toList) (v : Value) :
    (ctx.push name v).find? name = some v := by
  rw [find?_of_not_mem _ hname]
  simp [binding?, push]

end Context

/-! ## Where the body of a loop starts -/

/-- The contexts from which a loop over some items renders its body, in order. -/
def bodyStarts (item : String) (body : RenderM String) : List Value → Context → List Context
  | [], _ => []
  | v :: rest, ctx =>
    match renderFrom body (ctx.push item v) with
    | (.ok _, after) =>
      if after.interrupts.head? = some .leave then [ctx.push item v]
      else ctx.push item v :: bodyStarts item body rest after.pop.popInterrupt.2
    | (.error _, _) => [ctx.push item v]

section

variable {item : String} {body body' : RenderM String}

/-- The first start is there whatever comes of the body. -/
theorem exists_bodyStarts_cons
    (item : String) (body : RenderM String) (v : Value) (rest : List Value) (ctx : Context) :
    ∃ later, bodyStarts item body (v :: rest) ctx = ctx.push item v :: later ∧
      (later = [] ∨
        later = bodyStarts item body rest
          (renderFrom body (ctx.push item v)).2.pop.popInterrupt.2) := by
  rw [bodyStarts]
  rcases renderFrom body (ctx.push item v) with ⟨outcome, after⟩
  cases outcome with
  | error e => exact ⟨[], rfl, .inl rfl⟩
  | ok text =>
      by_cases hleave : after.interrupts.head? = some .leave
      · exact ⟨[], if_pos hleave, .inl rfl⟩
      · exact ⟨_, if_neg hleave, .inr rfl⟩

/-- A loop asks its body for nothing but what it does from these contexts. -/
theorem renderItems_congr_bodyStarts
    {items : List Value} {ctx : Context}
    (h : ∀ start ∈ bodyStarts item body items ctx, renderFrom body' start = renderFrom body start) :
    renderFrom (renderItems item body' items) ctx =
      renderFrom (renderItems item body items) ctx := by
  induction items generalizing ctx with
  | nil => rfl
  | cons v rest ih =>
      have hfirst : renderFrom body' (ctx.push item v) = renderFrom body (ctx.push item v) := by
        obtain ⟨later, hstarts, -⟩ := exists_bodyStarts_cons item body v rest ctx
        exact h _ (hstarts ▸ List.mem_cons_self)
      rw [renderItems_cons, renderItems_cons, hfirst]
      rw [bodyStarts] at h
      rcases hout : renderFrom body (ctx.push item v) with ⟨outcome, after⟩
      rw [hout] at h
      cases outcome with
      | error e => rfl
      | ok text =>
          by_cases hleave : after.interrupts.head? = some .leave
          · simp only [if_pos hleave]
          · simp only [if_neg hleave] at h ⊢
            rw [ih fun start hstart => h start (List.mem_cons_of_mem _ hstart)]

/-- The body starts with its item as the latest binding, whatever it did before. -/
theorem exists_push_of_bodyStarts
    {items : List Value} {ctx start : Context} {i : Nat}
    (h : (bodyStarts item body items ctx)[i]? = some start) :
    ∃ (outside : Context) (v : Value), items[i]? = some v ∧ start = outside.push item v := by
  induction items generalizing ctx i with
  | nil => exact absurd h (by simp [bodyStarts])
  | cons v rest ih =>
      obtain ⟨later, hstarts, hlater⟩ := exists_bodyStarts_cons item body v rest ctx
      rw [hstarts] at h
      cases i with
      | zero =>
          obtain rfl : ctx.push item v = start := by simpa using h
          exact ⟨ctx, v, rfl, rfl⟩
      | succ i =>
          rw [List.getElem?_cons_succ] at h
          rcases hlater with rfl | rfl
          · exact absurd h (by simp)
          · exact ih h

end

/-! ## Bodies that keep the bindings -/

/-- A rendering that leaves what expressions can see as it was. -/
def KeepsBindings {α : Type} (x : RenderM α) : Prop :=
  ∀ ctx, (renderFrom x ctx).2.bindings = ctx.bindings

namespace KeepsBindings

variable {α β : Type}

theorem ofContext (f : Context → Except Error α) : KeepsBindings (RenderM.ofContext f) := by
  intro ctx
  rw [renderFrom_ofContext]

theorem bind
    {x : RenderM α} {f : α → RenderM β} (hx : KeepsBindings x) (hf : ∀ a, KeepsBindings (f a)) :
    KeepsBindings (x >>= f) := by
  intro ctx
  have hfirst := hx ctx
  rw [renderFrom_bind]
  rcases hout : renderFrom x ctx with ⟨outcome, after⟩
  rw [hout] at hfirst
  cases outcome with
  | error e => exact hfirst
  | ok a => exact (hf a after).trans hfirst

theorem withLocal
    {name : String} {v : Value} {body : RenderM String} (h : KeepsBindings body) :
    KeepsBindings (withLocal name v body) := by
  intro ctx
  obtain ⟨hroot, hlocals, hstrict⟩ := Bindings.mk.inj (h (ctx.push name v))
  rw [renderFrom_withLocal]
  exact Bindings.mk.injEq .. ▸ ⟨hroot, congrArg List.tail hlocals, hstrict⟩

theorem recovering
    {x : RenderM Output} (h : KeepsBindings x) :
    KeepsBindings (recovering x) := by
  intro ctx
  have hx := h ctx
  rw [renderFrom_recovering]
  rcases hout : renderFrom x ctx with ⟨outcome, after⟩
  rw [hout] at hx
  cases outcome with
  | ok output => exact hx
  | error e =>
      by_cases he : e.isRecoverable
      · simp only [he, if_true]
        exact hx
      · simp only [he]
        exact hx

/-- A body that keeps the bindings starts where nothing but its item has been added. -/
theorem undotted_of_bodyStarts
    {item : String} {body : RenderM String} (h : KeepsBindings body) (hitem : '.' ∉ item.toList)
    {items : List Value} {ctx : Context} (hctx : ctx.Undotted) :
    ∀ start ∈ bodyStarts item body items ctx, start.Undotted := by
  induction items generalizing ctx with
  | nil => exact fun start hstart => absurd hstart List.not_mem_nil
  | cons v rest ih =>
      intro start hstart
      obtain ⟨later, hstarts, hlater⟩ := exists_bodyStarts_cons item body v rest ctx
      rw [hstarts] at hstart
      rcases List.mem_cons.mp hstart with rfl | hstart
      · exact hctx.push hitem v
      · rcases hlater with rfl | rfl
        · exact absurd hstart List.not_mem_nil
        · have hround : KeepsBindings (Liquid.withLocal item v body) := h.withLocal
          have hkept :
              (renderFrom body (ctx.push item v)).2.pop.popInterrupt.2.bindings = ctx.bindings :=
            hround ctx
          exact ih (hctx.of_bindings hkept) start hstart

end KeepsBindings

theorem compositional_keepsBindings : Compositional KeepsBindings where
  pure _ := fun _ => rfl
  get := fun _ => rfl
  variableText _ := .ofContext _
  condition _ := .ofContext _
  pushInterrupt _ := fun _ => rfl
  takeInterrupt := fun _ => rfl
  bind := .bind
  withLocal := .withLocal
  recovering := .recovering

/-! ## Paths put together -/

/-- Where no name holds a point, a path is followed on from the value of its first part.  The body
of a loop over a list at some path finds its item under the name of the item, and what can be
reached from there, as they are found outside under the path and the number of the item.  It starts
without such names unless its tags add some, and the loop asks it for nothing else. -/
theorem Context.paths_compose
    {ctx : Context} (h : ctx.Undotted) :
    (∀ p q : String,
      (ctx.find? p = none → ctx.find? (p ++ "." ++ q) = none) ∧
        ∀ v, ctx.find? p = some v →
          ctx.find? (p ++ "." ++ q) = v.follow? (pathSegments q)) ∧
      ∀ (x p : String) (items : List Value) (body : List Node), '.' ∉ x.toList →
        ctx.find? p = some (.list items) →
          let starts := bodyStarts x (renderAll body) items ctx
          (∀ (i : Nat) (start : Context), starts[i]? = some start → start.Undotted →
            start.find? x = ctx.find? (p ++ "." ++ toString i) ∧
              ∀ q, start.find? (x ++ "." ++ q) =
                ctx.find? (p ++ "." ++ toString i ++ "." ++ q)) ∧
            (Node.AllStandardOver KeepsBindings body → ∀ start ∈ starts, start.Undotted) ∧
            ∀ (name : String) (body' : List Node),
              (∀ start ∈ starts,
                renderFrom (renderAll body') start = renderFrom (renderAll body) start) →
                renderFrom (Node.loop name x p body').render ctx =
                  renderFrom (Node.loop name x p body).render ctx := by
  refine ⟨fun p q => ⟨?_, ?_⟩, ?_⟩
  · intro hp
    rw [h.find?_append, hp, Option.bind_none]
  · intro v hp
    rw [h.find?_append, hp, Option.bind_some]
  · intro x p items body hx hp starts
    refine ⟨?_, ?_, ?_⟩
    · intro i start hstart hundotted
      obtain ⟨outside, v, hv, rfl⟩ := exists_push_of_bodyStarts hstart
      have hitem : (outside.push x v).find? x = ctx.find? (p ++ "." ++ toString i) := by
        rw [find?_push_self outside hx, h.find?_item hp, hv]
      refine ⟨hitem, fun q => ?_⟩
      rw [hundotted.find?_append, h.find?_append, hitem]
    · intro hbody
      exact (compositional_keepsBindings.renderAll body hbody).undotted_of_bodyStarts hx h
    · intro name body' hbody'
      have hitems : (ctx.lookup p).items = items := by
        rw [lookup, hp]
        rfl
      simp only [Node.render, renderFrom_bind, renderFrom_get, renderFrom_map, hitems,
        renderItems_congr_bodyStarts hbody']

/-- The item of the loop hides the first part of the path to its list, and the second start follows
a request to go on. -/
theorem Context.paths_compose_item_hides_head :
    let items : List Value := [.int 7, .map [("b", .list [.nil, .str "v"])]]
    let ctx : Context :=
      { root := .map [("a", .map [("rows", .list items)])], locals := [("n", .nil)] }
    let body : List Node :=
      [.expression "a.b", .leaf "fails" (throw (.argument (.stated "bad"))),
        .interrupt "continue" .next, .text "unseen"]
    let start : Context :=
      { ctx with
        locals := [("a", .map [("b", .list [.nil, .str "v"])]), ("n", .nil)]
        errors := [.argument (.stated "bad")] }
    ctx.Undotted ∧ '.' ∉ "a".toList ∧ ctx.find? "a.rows" = some (.list items) ∧
      Node.AllStandardOver KeepsBindings body ∧
      (bodyStarts "a" (renderAll body) items ctx)[1]? = some start ∧ start.Undotted ∧
      start.find? "a" = ctx.find? ("a.rows" ++ "." ++ toString 1) ∧
      start.find? ("a" ++ "." ++ "b.last") =
        ctx.find? ("a.rows" ++ "." ++ toString 1 ++ "." ++ "b.last") ∧
      start.find? ("a" ++ "." ++ "b.last") = some (.str "v") := by
  intro items ctx body start
  have h : ctx.Undotted := by
    constructor
    · simp [ctx]
    · rintro entries ⟨⟩
      simp
  have hx : '.' ∉ "a".toList := by
    decide
  have hp : ctx.find? "a.rows" = some (.list items) := by
    rfl
  have hbody : Node.AllStandardOver KeepsBindings body :=
    ⟨trivial, fun _ => rfl, trivial, trivial, trivial⟩
  have hstart : (bodyStarts "a" (renderAll body) items ctx)[1]? = some start := by
    rfl
  obtain ⟨-, hloop⟩ := Context.paths_compose h
  obtain ⟨hfinds, hundotted, -⟩ := hloop "a" "a.rows" items body hx hp
  have hplain : start.Undotted := hundotted hbody start (List.mem_of_getElem? hstart)
  obtain ⟨hitem, hrest⟩ := hfinds 1 start hstart hplain
  exact ⟨h, hx, hp, hbody, hstart, hplain, hitem, hrest "b.last", rfl⟩

end Liquid
