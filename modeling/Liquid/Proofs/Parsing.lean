import Liquid.Proofs.StandardReading

/-!
# Reading what the grammar derives

A sequence of tokens that the grammar derives is read, wherever there is room for its blocks, and
its nodes come to stand at the end of the innermost block.
-/

namespace Liquid

namespace Body

theorem fill_append (b : Body) (nodes more : List Node) :
    b.fill (nodes ++ more) = (b.fill nodes).fill more :=
  List.foldl_append

/-- Before the second list has begun, nodes go to the first. -/
theorem fill_of_first
    {b : Body} (first : b.alternative = none) (nodes : List Node) :
    (b.fill nodes).main.toList = b.main.toList ++ nodes ∧ (b.fill nodes).alternative = none := by
  induction nodes generalizing b with
  | nil => simp [fill, first]
  | cons n rest ih =>
      have hpush : (b.push n).alternative = none ∧
          (b.push n).main.toList = b.main.toList ++ [n] := by
        simp [push, first]
      obtain ⟨hmain, halternative⟩ := ih hpush.1
      refine ⟨?_, halternative⟩
      rw [hpush.2, List.append_assoc] at hmain
      exact hmain

/-- After that, they go to the second. -/
theorem fill_of_second
    {b : Body} {second : Array Node} (hsecond : b.alternative = some second)
    (nodes : List Node) :
    (b.fill nodes).main = b.main ∧
      (b.fill nodes).alternative.map Array.toList = some (second.toList ++ nodes) := by
  induction nodes generalizing b second with
  | nil => simp [fill, hsecond]
  | cons n rest ih =>
      have hpush : (b.push n).alternative = some (second.push n) ∧ (b.push n).main = b.main := by
        simp [push, hsecond]
      obtain ⟨hmain, halternative⟩ := ih hpush.1
      refine ⟨hmain.trans hpush.2, ?_⟩
      rw [Array.toList_push, List.append_assoc] at halternative
      exact halternative

end Body

theorem OpenBlock.fill_append (b : OpenBlock) (nodes more : List Node) :
    b.fill (nodes ++ more) = (b.fill nodes).fill more := by
  simp [fill, Body.fill_append]

/-! ## Items -/

theorem run_of_reads
    {options : Options} {s s' : ReaderState} (framed : Framed s.block.rules s.outer)
    (idle : s.request = none) {t : Token} (reads : Reads options s t s') (rest : List Token) :
    s.run .standard options (t :: rest) = s'.run .standard options rest := by
  rw [ReaderState.run, step_of_reads framed idle reads]

/-- The tokens are read as these nodes wherever so many blocks may still be opened. -/
def ReadAs (options : Options) (m : Nat) (ts : List Token) (nodes : List Node) : Prop :=
  ∀ s : ReaderState, Framed s.block.rules s.outer → s.request = none →
    s.depth + m ≤ options.maxDepth + 1 → ∃ line, ∀ rest,
      s.run .standard options (ts ++ rest) =
        ReaderState.run .standard options { s with block := s.block.fill nodes, line := line } rest

namespace ReadAs

variable {options : Options} {m : Nat}

theorem nil : ReadAs options m [] [] :=
  fun s _ _ _ => ⟨s.line, fun _ => rfl⟩

theorem append
    {ts us : List Token} {nodes more : List Node} (hts : ReadAs options m ts nodes)
    (hus : ReadAs options m us more) :
    ReadAs options m (ts ++ us) (nodes ++ more) := by
  intro s framed idle room
  obtain ⟨line, hfirst⟩ := hts s framed idle room
  obtain ⟨line', hsecond⟩ :=
    hus { s with block := s.block.fill nodes, line := line } framed idle room
  refine ⟨line', fun rest => ?_⟩
  rw [List.append_assoc, hfirst, hsecond, OpenBlock.fill_append]

theorem token
    {t : Token} {here : List Node} (item : t.StandsFor here) :
    ReadAs options m [t] here := by
  intro s framed idle _
  exact ⟨t.line, run_of_reads framed idle (.token item)⟩

end ReadAs

/-! ## Blocks -/

/-- What stands in a block is read, wherever the block opens, as a body with these nodes. -/
def BodyReadAs (options : Options) (m : Nat) (o : Opening) (ts : List Token) (first : List Node)
    (second : Option (List Node)) : Prop :=
  ∀ (s : ReaderState) (t : Token), s.request = none → s.depth + m ≤ options.maxDepth →
    ∃ body line, o.nodeOf body = o.node first second ∧ ∀ rest,
      (s.opened t o).run .standard options (ts ++ rest) =
        ReaderState.run .standard options
          { s.opened t o with block := ⟨o.rules, t.line, body⟩, line := line } rest

namespace BodyReadAs

variable {options : Options} {m : Nat}

theorem plain
    {o : Opening} {ts : List Token} {first : List Node} (inner : ReadAs options m ts first) :
    BodyReadAs options m o ts first none := by
  intro s t idle room
  have hroom : (s.opened t o).depth + m ≤ options.maxDepth + 1 := by
    change s.depth + 1 + m ≤ options.maxDepth + 1
    omega
  obtain ⟨line, hinner⟩ := inner (s.opened t o) (.inside o s.block s.outer) idle hroom
  obtain ⟨hmain, halternative⟩ := Body.fill_of_first (b := {}) rfl first
  refine ⟨Body.fill {} first, line, ?_, hinner⟩
  simp [Opening.nodeOf, hmain, halternative]

theorem split
    {e : Token} {condition separating : String} {ts us : List Token} {first second : List Node}
    (inner : ReadAs options m ts first) (separator : e.IsTag "else" separating)
    (other : ReadAs options m us second) :
    BodyReadAs options m (.conditional condition) (ts ++ e :: us) first (some second) := by
  intro s t idle room
  let o : Opening := .conditional condition
  obtain ⟨body, line, hbody, hinner⟩ := plain (o := o) inner s t idle room
  -- The node of the body so far shows that its second list has not begun.
  obtain ⟨-, -, hmain, hnone⟩ := Node.conditional.inj hbody
  have hfirst : body.alternative = none := Option.map_eq_none_iff.mp hnone
  let before : ReaderState := { s.opened t o with block := ⟨o.rules, t.line, body⟩, line := line }
  let after : ReaderState :=
    { s.opened t o with block := ⟨o.rules, t.line, body.beginAlternative⟩, line := e.line }
  have framed : Framed o.rules (⟨s.block, o.resume⟩ :: s.outer) := .inside o s.block s.outer
  have hstep : Reads options before e after := .separator rfl hfirst separator
  have hroom : after.depth + m ≤ options.maxDepth + 1 := by
    change s.depth + 1 + m ≤ options.maxDepth + 1
    omega
  obtain ⟨line', hother⟩ := other after framed idle hroom
  obtain ⟨hkept, hsecond⟩ :=
    @Body.fill_of_second body.beginAlternative #[] rfl second
  refine ⟨body.beginAlternative.fill second, line', ?_, fun rest => ?_⟩
  · have hmain' : (body.beginAlternative.fill second).main.toList = first := by
      rw [hkept]
      exact hmain
    simp [Opening.nodeOf, hmain', hsecond]
  · calc (s.opened t o).run .standard options (ts ++ e :: us ++ rest)
        = before.run .standard options (e :: (us ++ rest)) := by
          rw [List.append_assoc]
          exact hinner (e :: (us ++ rest))
      _ = after.run .standard options (us ++ rest) := run_of_reads (s := before) framed idle hstep _
      _ = _ := hother rest

end BodyReadAs

/-- A block is read when what stands in it is. -/
theorem ReadAs.block
    {options : Options} {m : Nat} {t e : Token} {o : Opening} {markup : String} {ts : List Token}
    {first : List Node} {second : Option (List Node)} (opening : t.Opens o)
    (inner : BodyReadAs options m o ts first second) (closing : e.IsTag o.endName markup) :
    ReadAs options (m + 1) (t :: (ts ++ [e])) [o.node first second] := by
  intro s framed idle room
  have hopen : Reads options s t (s.opened t o) := .opening opening (by omega)
  obtain ⟨body, line, hbody, hinner⟩ := inner s t idle (by omega)
  let filled : ReaderState :=
    { s.opened t o with block := ⟨o.rules, t.line, body⟩, line := line }
  have hclose : Reads options filled e
      { s with block := s.block.fill [o.nodeOf body], line := e.line } := .closing rfl rfl closing
  have hframed : Framed filled.block.rules filled.outer := .inside o s.block s.outer
  refine ⟨e.line, fun rest => ?_⟩
  calc s.run .standard options (t :: (ts ++ [e]) ++ rest)
      = (s.opened t o).run .standard options (ts ++ e :: rest) := by
        rw [← run_of_reads framed idle hopen]
        simp
    _ = filled.run .standard options (e :: rest) := hinner _
    _ = _ := by
        rw [run_of_reads hframed idle hclose, hbody]

/-- The reader reads what the grammar derives. -/
theorem Derives.readAs
    {options : Options} {m : Nat} {ts : List Token} {nodes : List Node} (h : Derives m ts nodes) :
    ReadAs options m ts nodes := by
  induction h with
  | nil => exact .nil
  | token item _ ih =>
      have h := (ReadAs.token item).append ih
      exact h
  | block opening _ closing _ ihInner ihRest =>
      have h := (ReadAs.block opening (.plain ihInner) closing).append ihRest
      simpa using h
  | choice opening _ separator _ closing _ ihInner ihOther ihRest =>
      have h := (ReadAs.block opening (.split ihInner separator ihOther) closing).append ihRest
      simpa using h

end Liquid
