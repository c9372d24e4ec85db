import Liquid.Reader

/-!
# Blocks inside blocks

The reader keeps the blocks that are open on a stack.  Nothing that it does looks at the blocks
around the innermost ones until these are closed, so a block inside another is read just as it would
be on its own, and then the tag that waits for it goes on.
-/

namespace Liquid

/-- How the reading goes on in a block, with these blocks around it, when the block inside it has
been read. -/
def WaitingBlock.goOn (w : WaitingBlock) (options : Options) (outer : List WaitingBlock)
    (body : Body) (line depth : Nat) : Except Error ReaderState :=
  ReaderState.proceed options ⟨w.block, outer, none, line, depth⟩ (w.resume body)

/-- The reading with more blocks around it. -/
def ReaderState.under (s : ReaderState) (below : List WaitingBlock) : ReaderState :=
  { s with outer := s.outer ++ below }

/-- What a step leads to with more blocks around it: the nearest of them gets the body of the block
that is closed. -/
def Progress.under (options : Options) (w : WaitingBlock) (outer : List WaitingBlock) (line : Nat) :
    Progress → Except Error Progress
  | .reading s => .ok (.reading (s.under (w :: outer)))
  | .closed body depth => .reading <$> w.goOn options outer body line depth

/-- How the reading goes on after a step, where these tokens are left. -/
def Progress.goOn (registry : Registry) (options : Options) (left : TokenStream) :
    Progress → Except Error (Body × Reader)
  | .reading s => s.run registry options left.unread
  | .closed body depth => .ok (body, ⟨left, depth⟩)

namespace ReaderState

variable {registry : Registry} {options : Options}

/-! ## Steps -/

theorem map_reading_eq_ok_iff
    {x : Except Error ReaderState} {progress : Progress} :
    Progress.reading <$> x = .ok progress ↔ ∃ after, x = .ok after ∧ progress = .reading after := by
  cases x with
  | error e => simp [Functor.map, Except.map]
  | ok after => simp [Functor.map, Except.map, eq_comm]

theorem enter_under
    (s : ReaderState) (below : List WaitingBlock) (rules : BlockRules) (held : Body)
    (resume : Body → Reading) :
    (s.under below).enter options rules held resume =
      (s.enter options rules held resume).map (·.under below) := by
  unfold enter
  by_cases hdeep : options.maxDepth < s.depth
  · rw [if_pos (show options.maxDepth < (s.under below).depth from hdeep), if_pos hdeep]
    rfl
  · rw [if_neg (show ¬options.maxDepth < (s.under below).depth from hdeep), if_neg hdeep]
    rfl

theorem proceed_under
    (s : ReaderState) (below : List WaitingBlock) (reading : Reading) :
    (s.under below).proceed options reading =
      (s.proceed options reading).map (·.under below) := by
  cases reading with
  | done node => rfl
  | become body => rfl
  | refuse error => rfl
  | tokens resume exhausted => rfl
  | block rules held resume => exact enter_under s below rules held resume

theorem map_reading_under
    {x : Except Error ReaderState} {w : WaitingBlock} {outer : List WaitingBlock} {line : Nat} :
    Progress.reading <$> x.map (·.under (w :: outer)) =
      (Progress.reading <$> x) >>= Progress.under options w outer line := by
  cases x with
  | error e => rfl
  | ok s => rfl

theorem close_under
    {s : ReaderState} (idle : s.request = none) (w : WaitingBlock) (outer : List WaitingBlock) :
    (s.under (w :: outer)).close options =
      s.close options >>= Progress.under options w outer s.line := by
  obtain ⟨block, inner, request, line, depth⟩ := s
  obtain rfl : request = none := idle
  cases inner with
  | nil => rfl
  | cons waiting inner =>
      let next : ReaderState := ⟨waiting.block, inner, none, line, depth - 1⟩
      calc (ReaderState.under ⟨block, waiting :: inner, none, line, depth⟩ (w :: outer)).close options
          = .reading <$> (next.under (w :: outer)).proceed options
              (waiting.resume block.body.close) := rfl
        _ = (.reading <$> next.proceed options (waiting.resume block.body.close)) >>=
              Progress.under options w outer line := by
            rw [proceed_under, map_reading_under]

theorem readTag_under
    {s : ReaderState} (idle : s.request = none) (w : WaitingBlock) (outer : List WaitingBlock)
    (name markup : String) :
    (s.under (w :: outer)).readTag registry options name markup =
      s.readTag registry options name markup >>= Progress.under options w outer s.line := by
  unfold readTag
  by_cases hdelimiter : s.block.rules.delimiter == some name
  · rw [if_pos hdelimiter, ← close_under idle]
    exact if_pos hdelimiter
  · rw [if_neg hdelimiter]
    refine (if_neg hdelimiter).trans ?_
    cases if isReserved name then none else registry.find? name with
    | some definition =>
        simp only
        rw [proceed_under, map_reading_under]
        rfl
    | none =>
        simp only
        have hblock : (s.under (w :: outer)).block = s.block := rfl
        have hline : (s.under (w :: outer)).line = s.line := rfl
        rw [hblock, hline]
        cases s.block.rules.unknownTag ⟨name, markup, s.line, options⟩ s.block.body with
        | ok reading =>
            simp only
            rw [proceed_under, map_reading_under]
        | error e => rfl

theorem readToken_under
    {s : ReaderState} (idle : s.request = none) (w : WaitingBlock) (outer : List WaitingBlock)
    (t : Token) :
    (s.under (w :: outer)).readToken registry options t =
      s.readToken registry options t >>= Progress.under options w outer s.line := by
  unfold readToken
  generalize t.kind = kind
  match kind with
  | .tag =>
      cases t.tag? with
      | some parts => exact readTag_under idle w outer parts.1 parts.2
      | none => rfl
  | .variable =>
      cases t.expression? with
      | some markup => rfl
      | none => rfl
  | .empty => rfl
  | .text => rfl

/-- A step looks at the blocks around only when it closes the outermost block. -/
theorem step_under
    (s : ReaderState) (w : WaitingBlock) (outer : List WaitingBlock) (t : Token) :
    (s.under (w :: outer)).step registry options t =
      s.step registry options t >>= Progress.under options w outer t.line := by
  obtain ⟨block, inner, request, line, depth⟩ := s
  cases request with
  | none =>
      exact readToken_under (s := ⟨block, inner, none, t.line, depth⟩) rfl w outer t
  | some request =>
      unfold step
      simp only [under]
      cases request.resume (t :: request.taken) with
      | none => rfl
      | some reading =>
          simp only
          rw [← map_reading_under, ← proceed_under]
          rfl

/-! ## The end of the template -/

/-- The reading after some tokens, if it goes on through all of them. -/
def after? (registry : Registry) (options : Options) :
    ReaderState → List Token → Option ReaderState
  | s, [] => some s
  | s, t :: rest =>
    match s.step registry options t with
    | .ok (.reading s) => after? registry options s rest
    | _ => none

theorem after?_cons_eq_some_iff
    {s after : ReaderState} {t : Token} {rest : List Token} :
    s.after? registry options (t :: rest) = some after ↔
      ∃ next, s.step registry options t = .ok (.reading next) ∧
        next.after? registry options rest = some after := by
  rw [after?]
  cases s.step registry options t with
  | error e => simp
  | ok progress =>
      cases progress with
      | reading next => simp
      | closed body depth => simp

end ReaderState

/-! ## One block in another -/

/-- The reading inside a block that a reader enters. -/
def Reader.inside (rules : BlockRules) (held : Body) (r : Reader) : ReaderState where
  block := ⟨rules, r.tokens.line, held.clear⟩
  outer := []
  request := none
  line := r.tokens.line
  depth := r.depth + 1

end Liquid
