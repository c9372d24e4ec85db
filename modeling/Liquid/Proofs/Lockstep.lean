import Liquid.Proofs.Documents
import Liquid.Proofs.Texts

/-!
# Readings in lockstep

Where the same blocks are open in two readings, the same tags are refused, for the same cause.  It
does not matter which nodes the blocks hold, nor which texts stand between the tags, and the line of
an error moves with the lines of the tokens.
-/

namespace Liquid

theorem Body.alternative_fill (b : Body) (nodes : List Node) :
    (b.fill nodes).alternative = none ↔ b.alternative = none := by
  cases halternative : b.alternative with
  | none => simp [(Body.fill_of_first halternative nodes).2]
  | some second =>
      have hsecond := (Body.fill_of_second halternative nodes).2
      have hne : (b.fill nodes).alternative ≠ none := by
        intro hnone
        rw [hnone] at hsecond
        exact absurd hsecond (by simp)
      simp [hne]

/-- How a standard tag is read does not depend on the line on which it stands. -/
theorem reading_cases
    {name : String} {definition : Definition}
    (h : Registry.standard.find? name = some definition) (markup : String) (options : Options) :
    (∃ node, ∀ line, definition ⟨name, markup, line, options⟩ = .done node) ∨
      (∃ cause, ∀ line, definition ⟨name, markup, line, options⟩ = .refuse (.atLine cause)) ∨
      ∃ o : Opening, ∀ line, definition ⟨name, markup, line, options⟩ =
        .block o.rules {} o.resume := by
  rcases find?_standard_cases h with
    ⟨rfl, rfl⟩ | ⟨rfl, rfl⟩ | ⟨rfl, rfl⟩ | ⟨rfl, rfl⟩ | ⟨rfl, rfl⟩
  · by_cases given : markup.isEmpty
    · exact .inr (.inl ⟨.missingCondition, fun line => if_pos given⟩)
    · exact .inr (.inr ⟨.conditional markup, fun line => if_neg given⟩)
  · cases parts : StandardTags.loopParts? markup with
    | none =>
        refine .inr (.inl ⟨.malformedLoop, fun line => ?_⟩)
        simp only [StandardTags.loop, parts]
    | some itemAndCollection =>
        refine .inr (.inr ⟨.loop itemAndCollection.1 itemAndCollection.2, fun line => ?_⟩)
        simp only [StandardTags.loop, parts]
        rfl
  · exact .inr (.inr ⟨.comment, fun line => rfl⟩)
  · exact .inl ⟨.interrupt "break" .leave, fun line => rfl⟩
  · exact .inl ⟨.interrupt "continue" .next, fun line => rfl⟩

theorem cause_eq_of_error_eq
    {α : Type} {cause cause' : Cause} {line : Nat}
    (h : (.error (.atLine cause line) : Except Error α) = .error (.atLine cause' line)) :
    cause = cause' :=
  (Error.malformed.inj (Except.error.inj h)).1

/-! ## The same blocks -/

/-- The same blocks are open in two readings, in the second so many lines further down.  They may
hold different nodes, but in each the second list has begun in both readings or in neither. -/
inductive SameBlocks (d : Nat) :
    OpenBlock → List WaitingBlock → OpenBlock → List WaitingBlock → Prop
  | document {line line' : Nat} {body body' : Body} :
    SameBlocks d ⟨documentRules, line, body⟩ [] ⟨documentRules, line', body'⟩ []
  | inside {o : Opening} {line : Nat} {body body' : Body} {waiting waiting' : OpenBlock}
    {outer outer' : List WaitingBlock} (around : SameBlocks d waiting outer waiting' outer')
    (lists : body'.alternative = none ↔ body.alternative = none) :
    SameBlocks d ⟨o.rules, line, body⟩ (⟨waiting, o.resume⟩ :: outer)
      ⟨o.rules, line + d, body'⟩ (⟨waiting', o.resume⟩ :: outer')

namespace SameBlocks

variable {d : Nat} {block block' : OpenBlock} {outer outer' : List WaitingBlock}

theorem framed (h : SameBlocks d block outer block' outer') : Framed block.rules outer := by
  cases h with
  | document => exact .document
  | inside around lists => exact .inside _ _ _

theorem framed' (h : SameBlocks d block outer block' outer') : Framed block'.rules outer' := by
  cases h with
  | document => exact .document
  | inside around lists => exact .inside _ _ _

theorem rules_eq (h : SameBlocks d block outer block' outer') : block'.rules = block.rules := by
  cases h with
  | document => rfl
  | inside around lists => rfl

theorem fill
    (h : SameBlocks d block outer block' outer') (nodes nodes' : List Node) :
    SameBlocks d (block.fill nodes) outer (block'.fill nodes') outer' := by
  cases h with
  | document => exact .document
  | @inside o line body body' waiting waiting' outer outer' around lists =>
      refine .inside around ?_
      rw [Body.alternative_fill, Body.alternative_fill]
      exact lists

/-- What one block refuses, the other does. -/
theorem unknownTag
    (h : SameBlocks d block outer block' outer') {name markup : String} {line : Nat}
    {options : Options} {cause : Cause}
    (refused : block.rules.unknownTag ⟨name, markup, line, options⟩ block.body =
      .error (.atLine cause line)) :
    block'.rules.unknownTag ⟨name, markup, line + d, options⟩ block'.body =
      .error (.atLine cause (line + d)) := by
  cases h with
  | document =>
      obtain rfl := cause_eq_of_error_eq refused
      rfl
  | @inside o _ body body' _ _ _ _ _ lists =>
      cases o with
      | conditional condition =>
          by_cases htakes : name = "else" ∧ body.alternative = none
          · simp [Opening.rules, StandardTags.conditionalRules, htakes] at refused
          · have htakes' : ¬(name = "else" ∧ body'.alternative = none) := by rwa [lists]
            simp only [Opening.rules, StandardTags.conditionalRules, Bool.and_eq_true, beq_iff_eq,
              Option.isNone_iff_eq_none, htakes, htakes', if_false] at refused ⊢
            rw [cause_eq_of_error_eq refused]
      | loop item collection =>
          obtain rfl := cause_eq_of_error_eq refused
          rfl
      | comment =>
          obtain rfl := cause_eq_of_error_eq refused
          rfl

end SameBlocks

/-- Two readings with the same blocks open. -/
structure Lockstep (d : Nat) (s s' : ReaderState) : Prop where
  idle : s.request = none
  idle' : s'.request = none
  depth : s'.depth = s.depth
  blocks : SameBlocks d s.block s.outer s'.block s'.outer

namespace Lockstep

variable {options : Options} {d : Nat} {s s' : ReaderState}

/-! ## One step -/

/-- What a token does to one reading it does to the other. -/
theorem read
    (h : Lockstep d s s') {t : Token} {after : ReaderState} (reads : Reads options s t after) :
    ∃ after', Reads options s' (t.below d) after' ∧ Lockstep d after after' := by
  obtain ⟨block, outer, request, line, depth⟩ := s
  obtain ⟨block', outer', request', line', depth'⟩ := s'
  obtain ⟨idle, idle', hdepth, blocks⟩ := h
  obtain rfl : depth' = depth := hdepth
  cases reads with
  | token item => exact ⟨_, .token (item.below d), idle, idle', rfl, blocks.fill _ _⟩
  | opening opens room =>
      exact ⟨_, .opening (opens.below d) room, idle, idle', rfl, .inside blocks Iff.rfl⟩
  | separator rules first tag =>
      have hrules : block'.rules = StandardTags.conditionalRules := blocks.rules_eq.trans rules
      cases blocks with
      | document =>
          have hdelimiter := congrArg BlockRules.delimiter rules
          exact absurd hdelimiter (by simp [documentRules, StandardTags.conditionalRules])
      | inside around lists =>
          exact ⟨_, .separator hrules (lists.mpr first) tag, idle, idle', rfl,
            .inside around (by simp [Body.beginAlternative])⟩
  | closing rules outside tag =>
      have hrules := blocks.rules_eq.trans rules
      cases blocks with
      | document => exact absurd outside (by simp)
      | inside around lists =>
          obtain ⟨hframe, rfl⟩ := List.cons.inj outside
          obtain ⟨rfl, hresume⟩ := WaitingBlock.mk.inj hframe
          rw [hresume]
          exact ⟨_, .closing hrules rfl tag, idle, idle', rfl, around.fill _ _⟩

/-! ## What is refused -/

section

variable (h : Lockstep d s s') {t : Token} {name markup : String} {cause : Cause}

include h

theorem refused_of_find?
    (tag : t.IsTag name markup) (hdelimiter : s.block.rules.delimiter ≠ some name)
    (hreserved : isReserved name = false) {definition : Definition}
    (hfind : Registry.standard.find? name = some definition)
    (refused : s.step .standard options t = .error (.atLine cause t.line)) :
    s'.step .standard options (t.below d) = .error (.atLine cause (t.line + d)) := by
  have hdelimiter' : s'.block.rules.delimiter ≠ some name := by rwa [h.blocks.rules_eq]
  have tag' : (t.below d).IsTag name markup := tag
  rw [step_of_find? h.idle tag hdelimiter hreserved hfind] at refused
  rw [step_of_find? h.idle' tag' hdelimiter' hreserved hfind]
  rcases reading_cases hfind markup options with ⟨node, hd⟩ | ⟨cause', hd⟩ | ⟨o, hd⟩
  · rw [hd] at refused
    exact absurd refused (by simp [ReaderState.proceed, Functor.map, Except.map])
  · rw [hd] at refused ⊢
    obtain rfl := cause_eq_of_error_eq refused
    rfl
  · rw [hd] at refused ⊢
    by_cases hdeep : options.maxDepth < s.depth
    · simp only [ReaderState.proceed, ReaderState.enter, h.depth, hdeep, if_true] at refused ⊢
      obtain rfl := cause_eq_of_error_eq refused
      rfl
    · simp only [ReaderState.proceed, ReaderState.enter, hdeep, if_false] at refused
      exact absurd refused (by simp [Functor.map, Except.map])

omit h in
theorem not_reads_of_refused
    (framed : Framed s.block.rules s.outer) (idle : s.request = none)
    (refused : s.step .standard options t = .error (.atLine cause t.line)) {after : ReaderState} :
    ¬Reads options s t after := by
  intro reads
  rw [step_of_reads framed idle reads] at refused
  exact absurd refused (by simp)

theorem refused_of_unknown
    (tag : t.IsTag name markup) (hdelimiter : s.block.rules.delimiter ≠ some name)
    (hknown : (if isReserved name then none else Registry.standard.find? name) = none)
    (refused : s.step .standard options t = .error (.atLine cause t.line)) :
    s'.step .standard options (t.below d) = .error (.atLine cause (t.line + d)) := by
  have hdelimiter' : s'.block.rules.delimiter ≠ some name := by rwa [h.blocks.rules_eq]
  have tag' : (t.below d).IsTag name markup := tag
  rcases unknownTag_cases h.blocks.framed ⟨name, markup, t.line, options⟩ s.block.body with
    ⟨rules, first, rfl⟩ | ⟨cause', hunknown⟩
  · exact absurd (.separator rules first tag) (not_reads_of_refused h.blocks.framed h.idle refused)
  have hunknown' : s'.block.rules.unknownTag ⟨name, markup, (t.below d).line, options⟩
      s'.block.body = .error (.atLine cause' (t.line + d)) := h.blocks.unknownTag hunknown
  rw [step_of_isTag h.idle tag] at refused
  rw [step_of_isTag h.idle' tag']
  simp only [ReaderState.readTag, beq_iff_eq, hdelimiter, hdelimiter', if_false, hknown, hunknown,
    hunknown'] at refused ⊢
  rw [cause_eq_of_error_eq refused]

theorem refused_of_isTag
    (tag : t.IsTag name markup)
    (refused : s.step .standard options t = .error (.atLine cause t.line)) :
    s'.step .standard options (t.below d) = .error (.atLine cause (t.line + d)) := by
  by_cases hdelimiter : s.block.rules.delimiter = some name
  · obtain ⟨after, reads⟩ : ∃ after, Reads options s t after :=
      exists_reads_of_delimiter h.blocks.framed tag hdelimiter
    exact absurd reads (not_reads_of_refused h.blocks.framed h.idle refused)
  · cases hknown : if isReserved name then none else Registry.standard.find? name with
    | none => exact h.refused_of_unknown tag hdelimiter hknown refused
    | some definition =>
        obtain ⟨hreserved, hfind⟩ := Option.ite_none_left_eq_some.mp hknown
        have hfree : isReserved name = false := eq_false_of_ne_true hreserved
        exact h.refused_of_find? tag hdelimiter hfree hfind refused

/-- What is refused in one reading is refused in the other, for the same cause. -/
theorem refused
    (refused : s.step .standard options t = .error (.atLine cause t.line)) :
    s'.step .standard options (t.below d) = .error (.atLine cause (t.line + d)) := by
  have hreads {after : ReaderState} : ¬Reads options s t after :=
    not_reads_of_refused h.blocks.framed h.idle refused
  match kind : t.kind with
  | .empty => exact absurd (.token (.nothing kind)) hreads
  | .text => exact absurd (.token (.text kind)) hreads
  | .variable =>
      have kind' : (t.below d).kind = .variable := kind
      cases written : t.expression? with
      | some markup =>
          have item := Token.StandsFor.expression (Token.expression?_eq_some_iff.mp written)
          exact absurd (.token item) hreads
      | none =>
          have written' : (t.below d).expression? = none := written
          simp only [ReaderState.step, ReaderState.readToken, h.idle, h.idle', kind, kind',
            written, written'] at refused ⊢
          obtain rfl := cause_eq_of_error_eq refused
          rfl
  | .tag =>
      have kind' : (t.below d).kind = .tag := kind
      cases parts : t.tag? with
      | some nameAndMarkup => exact h.refused_of_isTag (Token.tag?_eq_some_iff.mp parts) refused
      | none =>
          have parts' : (t.below d).tag? = none := parts
          simp only [ReaderState.step, ReaderState.readToken, h.idle, h.idle', kind, kind',
            parts, parts'] at refused ⊢
          obtain rfl := cause_eq_of_error_eq refused
          rfl

end

/-! ## Runs -/

/-- A text is read in one reading alone. -/
theorem skip
    (h : Lockstep d s s') (options : Options) {t : Token} (plain : ¬t.isMarker) :
    ∃ after, Lockstep d after s' ∧
      ∀ rest, s.run .standard options (t :: rest) = after.run .standard options rest := by
  have item := Token.standsFor_copied plain
  refine ⟨_, ?_, run_of_reads h.blocks.framed h.idle (.token item)⟩
  exact ⟨h.idle, h.idle', h.depth, h.blocks.fill t.copied []⟩

/-- Texts are read in the other reading alone. -/
theorem skip_all
    (h : Lockstep d s s') (options : Options) {ts : List Token}
    (plain : ts.filter Token.isMarker = []) :
    ∃ after', Lockstep d s after' ∧
      ∀ rest, s'.run .standard options (ts ++ rest) = after'.run .standard options rest := by
  induction ts generalizing s' with
  | nil => exact ⟨s', h, fun rest => rfl⟩
  | cons t ts ih =>
      have hplain := List.filter_eq_nil_iff.mp plain
      have item := Token.standsFor_copied (hplain t List.mem_cons_self)
      have hnext : Lockstep d s { s' with block := s'.block.fill t.copied, line := t.line } :=
        ⟨h.idle, h.idle', h.depth, h.blocks.fill [] t.copied⟩
      have hts : ts.filter Token.isMarker = [] :=
        List.filter_eq_nil_iff.mpr fun u hu => hplain u (List.mem_cons_of_mem t hu)
      obtain ⟨after', hafter, hrun⟩ := ih hnext hts
      refine ⟨after', hafter, fun rest => ?_⟩
      rw [List.cons_append, run_of_reads h.blocks.framed' h.idle' (.token item), hrun]

/-- A block that is never closed in one reading is not closed in the other. -/
theorem run_nil_error
    (h : Lockstep d s s') {e : Error} (error : s.run .standard options [] = .error e) :
    ∃ cause line, e = .atLine cause line ∧
      s'.run .standard options [] = .error (.atLine cause (line + d)) := by
  obtain ⟨block, outer, request, line, depth⟩ := s
  obtain ⟨block', outer', request', line', depth'⟩ := s'
  obtain ⟨rfl, rfl, -, blocks⟩ := h
  cases blocks with
  | document =>
      simp [ReaderState.run, ReaderState.finish, ReaderState.finishBlocks, documentRules] at error
  | @inside o openedAt body body' waiting waiting' outer outer' around lists =>
      refine ⟨.unclosed o.name, openedAt, ?_, ?_⟩
      · simpa [ReaderState.run, ReaderState.finish, ReaderState.finishBlocks, o.unclosed_rules,
          eq_comm] using error
      · simp [ReaderState.run, ReaderState.finish, ReaderState.finishBlocks, o.unclosed_rules]

/-- Where one reading fails, so does another one of the same tags, for the same cause, and so many
lines further down. -/
theorem run_error
    (h : Lockstep d s s') {ts ts' : List Token}
    (same : ts'.filter Token.isMarker = (ts.filter Token.isMarker).map (Token.below d)) {e : Error}
    (error : s.run .standard options ts = .error e) :
    ∃ cause line, e = .atLine cause line ∧
      s'.run .standard options ts' = .error (.atLine cause (line + d)) := by
  -- Each reading has texts of its own, so a step of one may be no step of the other.
  induction ts generalizing s s' ts' with
  | nil =>
      obtain ⟨after', hafter, hrun⟩ := h.skip_all options same
      have hend := hrun []
      rw [List.append_nil] at hend
      rw [hend]
      exact hafter.run_nil_error error
  | cons t ts ih =>
      by_cases hmarker : t.isMarker
      · rw [List.filter_cons_of_pos hmarker, List.map_cons] at same
        obtain ⟨us, vs, rfl, hus, hvs⟩ := @exists_of_filter_eq_append_cons _ _ [] _ _ same
        obtain ⟨mid', hmid, hrun⟩ := h.skip_all options hus
        rw [hrun]
        rcases readOrRefused hmid.blocks.framed hmid.idle t with ⟨after, reads⟩ | ⟨cause, refused⟩
        · obtain ⟨after', reads', hafter⟩ := hmid.read reads
          rw [run_of_reads hmid.blocks.framed hmid.idle reads] at error
          rw [run_of_reads hmid.blocks.framed' hmid.idle' reads']
          exact ih hafter hvs error
        · refine ⟨cause, t.line, ?_, ?_⟩
          · rw [ReaderState.run, refused] at error
            exact (Except.error.inj error).symm
          · rw [ReaderState.run, hmid.refused refused]
      · rw [List.filter_cons_of_neg hmarker] at same
        obtain ⟨after, hafter, hrun⟩ := h.skip options hmarker
        rw [hrun] at error
        exact ih hafter same error

end Lockstep
end Liquid
