import Liquid.Reader
import Liquid.StandardTags
import Liquid.Proofs.Grammar

/-!
# One step of reading the standard language

What a token can do to a reading with the standard tags, as a relation between two states, and that
a step follows this relation or is refused on the line of its token.
-/

namespace Liquid

open StandardTags

namespace Opening

def rules : Opening → BlockRules
  | conditional _ => conditionalRules
  | loop _ _ => { name := "for" }
  | comment => { name := "comment" }

/-- The node of a block that has been read. -/
def nodeOf (o : Opening) (b : Body) : Node :=
  o.node b.main.toList (b.alternative.map Array.toList)

/-- How the tag of a block goes on when it gets its body. -/
def resume (o : Opening) (b : Body) : Reading :=
  .done (o.nodeOf b)

theorem delimiter_rules (o : Opening) : o.rules.delimiter = some o.endName := by
  cases o <;> rfl

theorem unclosed_rules (o : Opening) (line : Nat) :
    o.rules.unclosed line = .error (.atLine (.unclosed o.name) line) := by
  cases o <;> rfl

end Opening

/-- The innermost block is the document itself, or a block of the standard language in another that
waits for it. -/
inductive Framed : BlockRules → List WaitingBlock → Prop
  | document : Framed documentRules []
  | inside (o : Opening) (waiting : OpenBlock) (outer : List WaitingBlock) :
    Framed o.rules (⟨waiting, o.resume⟩ :: outer)

def Body.fill (b : Body) (nodes : List Node) : Body :=
  nodes.foldl Body.push b

def OpenBlock.fill (b : OpenBlock) (nodes : List Node) : OpenBlock :=
  { b with body := b.body.fill nodes }

def ReaderState.opened (s : ReaderState) (t : Token) (o : Opening) : ReaderState :=
  { s with
    block := ⟨o.rules, t.line, {}⟩
    outer := ⟨s.block, o.resume⟩ :: s.outer
    line := t.line
    depth := s.depth + 1 }

/-- What a token does to a reading. -/
inductive Reads (options : Options) (s : ReaderState) (t : Token) : ReaderState → Prop
  | token {here : List Node} (item : t.StandsFor here) :
    Reads options s t { s with block := s.block.fill here, line := t.line }
  | opening {o : Opening} (opens : t.Opens o) (room : s.depth ≤ options.maxDepth) :
    Reads options s t (s.opened t o)
  | separator {markup : String} (rules : s.block.rules = conditionalRules)
    (first : s.block.body.alternative = none) (tag : t.IsTag "else" markup) :
    Reads options s t
      { s with
        block := { s.block with body := s.block.body.beginAlternative }
        line := t.line }
  | closing {o : Opening} {markup : String} {waiting : OpenBlock} {outer : List WaitingBlock}
    (rules : s.block.rules = o.rules) (around : s.outer = ⟨waiting, o.resume⟩ :: outer)
    (tag : t.IsTag o.endName markup) :
    Reads options s t
      { s with
        block := waiting.fill [o.nodeOf s.block.body]
        outer := outer
        line := t.line
        depth := s.depth - 1 }

/-! ## The definitions of the standard tags -/

theorem find?_standard_cases
    {name : String} {d : Definition} (h : Registry.standard.find? name = some d) :
    (name = "if" ∧ d = conditional) ∨ (name = "for" ∧ d = loop) ∨
      (name = "comment" ∧ d = comment) ∨ (name = "break" ∧ d = interrupt) ∨
      (name = "continue" ∧ d = interrupt) := by
  obtain ⟨before, after, hentries, -⟩ := List.lookup_eq_some_iff.mp h
  have hmem : (name, d) ∈ Registry.standard.entries := by
    rw [hentries]
    simp
  simpa [Registry.standard] using hmem

theorem words_eq_iff
    {s : String} {ws : List String} :
    Text.words s = ws ↔ Text.wordsOf s.toList = ws.map String.toList := by
  have hinverse : String.toList ∘ String.ofList = id := funext fun _ => String.toList_ofList
  have hinverse' : String.ofList ∘ String.toList = id := funext fun _ => String.ofList_toList
  constructor
  · rintro rfl
    rw [Text.words, List.map_map, hinverse, List.map_id]
  · intro h
    rw [Text.words, h, List.map_map, hinverse', List.map_id]

/-- The parts of a loop are found in just the markups that spell a loop. -/
theorem loopParts?_eq_some_iff
    {markup item collection : String} (trimmed : Text.Trimmed markup.toList) :
    loopParts? markup = some (item, collection) ↔
      IsLoopMarkup markup.toList item.toList collection.toList := by
  have hwords : loopParts? markup = some (item, collection) ↔
      Text.words markup = [item, "in", collection] := by
    unfold loopParts?
    split
    · next first word last hthree =>
        rw [hthree]
        by_cases hword : word = "in"
        · simp [hword]
        · simp [hword]
    · next hother =>
        have hne : Text.words markup ≠ [item, "in", collection] := hother item "in" collection
        simp [hne]
  have hin : Text.IsWord "in".toList := by decide
  rw [hwords, words_eq_iff]
  simp only [List.map_cons, List.map_nil, Text.wordsOf_eq_three_iff trimmed, hin, true_and]
  rfl

/-- The reading of a tag that opens a block asks for the body of that block. -/
theorem exists_definition_of_opens
    {t : Token} {o : Opening} (h : t.Opens o) :
    ∃ name markup definition, t.IsTag name markup ∧ isReserved name = false ∧
      (∀ o' : Opening, o'.endName ≠ name) ∧ Registry.standard.find? name = some definition ∧
      ∀ line options, definition ⟨name, markup, line, options⟩ = .block o.rules {} o.resume := by
  cases h with
  | @conditional condition tag given =>
      refine ⟨"if", condition, conditional, tag, rfl, fun o => o.endName_ne (by decide), rfl, ?_⟩
      intro line options
      simp only [conditional, String.isEmpty_iff, given, ↓reduceIte]
      rfl
  | @loop markup item collection tag spelled =>
      refine ⟨"for", markup, loop, tag, rfl, fun o => o.endName_ne (by decide), rfl, ?_⟩
      intro line options
      simp only [loop, (loopParts?_eq_some_iff tag.trimmed).mpr spelled]
      rfl
  | @comment markup tag =>
      exact ⟨"comment", markup, comment, tag, rfl, fun o => o.endName_ne (by decide), rfl,
        fun _ _ => rfl⟩

/-- A tag that a block of the standard language does not know is the `else` of a conditional, or it
is refused. -/
theorem unknownTag_cases
    {rules : BlockRules} {outer : List WaitingBlock} (framed : Framed rules outer) (site : Site)
    (body : Body) :
    (rules = conditionalRules ∧ body.alternative = none ∧ site.name = "else") ∨
      ∃ cause, rules.unknownTag site body = .error (.atLine cause site.line) := by
  cases framed with
  | document => exact .inr ⟨_, rfl⟩
  | inside o waiting outer =>
      cases o with
      | conditional condition =>
          by_cases h : site.name = "else" ∧ body.alternative = none
          · exact .inl ⟨rfl, h.2, h.1⟩
          · refine .inr ⟨unexpectedTag "if" (some (endNameOf "if")) site.name, ?_⟩
            simp [Opening.rules, conditionalRules, h]
      | loop item collection => exact .inr ⟨_, rfl⟩
      | comment => exact .inr ⟨_, rfl⟩

/-! ## What a step comes to -/

theorem Framed.delimiter_ne
    {rules : BlockRules} {outer : List WaitingBlock} (framed : Framed rules outer) {name : String}
    (hname : ∀ o : Opening, o.endName ≠ name) :
    rules.delimiter ≠ some name := by
  cases framed with
  | document => simp [documentRules]
  | inside o waiting outer => simpa [o.delimiter_rules] using hname o

theorem step_of_isTag
    {registry : Registry} {options : Options} {s : ReaderState} (idle : s.request = none)
    {t : Token} {name markup : String} (tag : t.IsTag name markup) :
    s.step registry options t =
      ReaderState.readTag registry options { s with line := t.line } name markup := by
  simp [ReaderState.step, ReaderState.readToken, idle, tag.kind, Token.tag?_eq_some_iff.mpr tag]

/-- The step on a tag that the registry knows. -/
theorem step_of_find?
    {registry : Registry} {options : Options} {s : ReaderState} (idle : s.request = none)
    {t : Token} {name markup : String} (tag : t.IsTag name markup)
    (hdelimiter : s.block.rules.delimiter ≠ some name) (hreserved : isReserved name = false)
    {d : Definition} (hfind : registry.find? name = some d) :
    s.step registry options t =
      .reading <$> ReaderState.proceed options { s with line := t.line }
        (d ⟨name, markup, t.line, options⟩) := by
  rw [step_of_isTag idle tag]
  simp [ReaderState.readTag, hdelimiter, hreserved, hfind]

theorem step_of_opens
    {options : Options} {s : ReaderState} (framed : Framed s.block.rules s.outer)
    (idle : s.request = none) {t : Token} {o : Opening} (opens : t.Opens o) :
    s.step .standard options t =
      .reading <$> ReaderState.enter options { s with line := t.line } o.rules {} o.resume := by
  obtain ⟨name, markup, d, tag, hreserved, hend, hfind, hd⟩ := exists_definition_of_opens opens
  rw [step_of_find? idle tag (framed.delimiter_ne hend) hreserved hfind, hd]
  rfl

theorem step_of_standsFor
    {options : Options} {s : ReaderState} (framed : Framed s.block.rules s.outer)
    (idle : s.request = none) {t : Token} {here : List Node} (item : t.StandsFor here) :
    s.step .standard options t =
      .ok (.reading { s with block := s.block.fill here, line := t.line }) := by
  cases item with
  | nothing kind =>
      simp only [ReaderState.step, ReaderState.readToken, idle, kind]
      rfl
  | text kind =>
      simp only [ReaderState.step, ReaderState.readToken, idle, kind]
      rfl
  | expression written =>
      simp only [ReaderState.step, ReaderState.readToken, idle, written.kind,
        Token.expression?_eq_some_iff.mpr written]
      rfl
  | leave tag =>
      have hdelimiter := framed.delimiter_ne fun o => o.endName_ne (by decide : "break" ∉ _)
      rw [step_of_find? idle tag hdelimiter rfl rfl]
      rfl
  | next tag =>
      have hdelimiter := framed.delimiter_ne fun o => o.endName_ne (by decide : "continue" ∉ _)
      rw [step_of_find? idle tag hdelimiter rfl rfl]
      rfl

/-- A step does what the token can do. -/
theorem step_of_reads
    {options : Options} {s s' : ReaderState} (framed : Framed s.block.rules s.outer)
    (idle : s.request = none) {t : Token} (reads : Reads options s t s') :
    s.step .standard options t = .ok (.reading s') := by
  cases reads with
  | token item => exact step_of_standsFor framed idle item
  | opening opens room =>
      rw [step_of_opens framed idle opens]
      simp only [ReaderState.enter, Nat.not_lt.mpr room, ↓reduceIte, Body.clear]
      rfl
  | separator rules first tag =>
      rw [step_of_isTag idle tag]
      have hdelimiter : s.block.rules.delimiter ≠ some "else" := by
        simp [rules, conditionalRules, endNameOf]
      have hunknown (site : Site) (helse : site.name = "else") :
          s.block.rules.unknownTag site s.block.body =
            .ok (.become s.block.body.beginAlternative) := by
        simp [rules, conditionalRules, first, helse]
      simp only [ReaderState.readTag, beq_iff_eq, hdelimiter, if_false, isReserved, hunknown]
      rfl
  | closing rules around tag =>
      rw [step_of_isTag idle tag]
      simp only [ReaderState.readTag, rules, Opening.delimiter_rules, beq_self_eq_true, ↓reduceIte,
        ReaderState.close, around]
      rfl

/-! ## Tokens that are refused -/

/-- The token does what it can do, or it is refused on its own line. -/
def ReadOrRefused (options : Options) (s : ReaderState) (t : Token) : Prop :=
  (∃ s', Reads options s t s') ∨
    ∃ cause, s.step .standard options t = .error (.atLine cause t.line)

section

variable {options : Options} {s : ReaderState} (framed : Framed s.block.rules s.outer)
  (idle : s.request = none) {t : Token} {name markup : String}

include framed idle

theorem readOrRefused_of_opens
    {o : Opening} (opens : t.Opens o) :
    ReadOrRefused options s t := by
  by_cases room : s.depth ≤ options.maxDepth
  · exact .inl ⟨_, .opening opens room⟩
  · refine .inr ⟨.tooDeep options.maxDepth, ?_⟩
    rw [step_of_opens framed idle opens]
    simp only [ReaderState.enter, Nat.not_le.mp room, ↓reduceIte]
    rfl

theorem readOrRefused_of_find?
    (tag : t.IsTag name markup) (hdelimiter : s.block.rules.delimiter ≠ some name)
    (hreserved : isReserved name = false) {d : Definition}
    (hfind : Registry.standard.find? name = some d) :
    ReadOrRefused options s t := by
  have hstep : s.step .standard options t = _ :=
    step_of_find? idle tag hdelimiter hreserved hfind
  rcases find?_standard_cases hfind with
    ⟨rfl, rfl⟩ | ⟨rfl, rfl⟩ | ⟨rfl, rfl⟩ | ⟨rfl, rfl⟩ | ⟨rfl, rfl⟩
  · by_cases given : markup = ""
    · refine .inr ⟨.missingCondition, ?_⟩
      rw [hstep, given]
      rfl
    · exact readOrRefused_of_opens framed idle (.conditional tag given)
  · cases parts : loopParts? markup with
    | some itemAndCollection =>
        have spelled := (loopParts?_eq_some_iff tag.trimmed).mp parts
        exact readOrRefused_of_opens framed idle (.loop tag spelled)
    | none =>
        refine .inr ⟨.malformedLoop, ?_⟩
        rw [hstep]
        simp only [loop, parts]
        rfl
  · exact readOrRefused_of_opens framed idle (.comment tag)
  · exact .inl ⟨_, .token (.leave tag)⟩
  · exact .inl ⟨_, .token (.next tag)⟩

/-- A tag that no definition knows is left to the block, which may refuse it. -/
theorem readOrRefused_of_unknown
    (tag : t.IsTag name markup) (hdelimiter : s.block.rules.delimiter ≠ some name)
    (hknown : (if isReserved name then none else Registry.standard.find? name) = none) :
    ReadOrRefused options s t := by
  rcases unknownTag_cases framed ⟨name, markup, t.line, options⟩ s.block.body with
    ⟨rules, first, rfl⟩ | ⟨cause, hunknown⟩
  · exact .inl ⟨_, .separator rules first tag⟩
  · refine .inr ⟨cause, ?_⟩
    rw [step_of_isTag idle tag]
    simp [ReaderState.readTag, hdelimiter, hknown, hunknown]

omit idle in
theorem exists_reads_of_delimiter
    (tag : t.IsTag name markup) (hdelimiter : s.block.rules.delimiter = some name) :
    ∃ s', Reads options s t s' := by
  generalize hrules : s.block.rules = rules at framed
  generalize houter : s.outer = outer at framed
  cases framed with
  | document =>
      rw [hrules] at hdelimiter
      exact absurd hdelimiter (by simp [documentRules])
  | inside o waiting outer =>
      rw [hrules, o.delimiter_rules] at hdelimiter
      obtain rfl := Option.some.inj hdelimiter
      exact ⟨_, .closing hrules houter tag⟩

theorem readOrRefused_of_isTag
    (tag : t.IsTag name markup) :
    ReadOrRefused options s t := by
  by_cases hdelimiter : s.block.rules.delimiter = some name
  · exact .inl (exists_reads_of_delimiter framed tag hdelimiter)
  · cases hknown : if isReserved name then none else Registry.standard.find? name with
    | none => exact readOrRefused_of_unknown framed idle tag hdelimiter hknown
    | some d =>
        obtain ⟨hreserved, hfind⟩ := Option.ite_none_left_eq_some.mp hknown
        have hfree : isReserved name = false := eq_false_of_ne_true hreserved
        exact readOrRefused_of_find? framed idle tag hdelimiter hfree hfind

/-- Every token does what it can do, or it is refused on its own line. -/
theorem readOrRefused (t : Token) : ReadOrRefused options s t := by
  match kind : t.kind with
  | .empty => exact .inl ⟨_, .token (.nothing kind)⟩
  | .text => exact .inl ⟨_, .token (.text kind)⟩
  | .variable =>
      cases written : t.expression? with
      | some markup =>
          exact .inl ⟨_, .token (.expression (Token.expression?_eq_some_iff.mp written))⟩
      | none =>
          refine .inr ⟨.unterminatedVariable t.text, ?_⟩
          simp [ReaderState.step, ReaderState.readToken, idle, kind, written]
  | .tag =>
      cases parts : t.tag? with
      | some nameAndMarkup =>
          exact readOrRefused_of_isTag framed idle (Token.tag?_eq_some_iff.mp parts)
      | none =>
          refine .inr ⟨.unterminatedTag t.text, ?_⟩
          simp [ReaderState.step, ReaderState.readToken, idle, kind, parts]

end

end Liquid
