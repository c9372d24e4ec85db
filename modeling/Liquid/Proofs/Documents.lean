import Liquid.Proofs.Parsing

/-!
# Documents

The reader accepts just the token sequences that the grammar derives, and gives the trees of their
derivations.  What carries this is an invariant of the reading: the tokens read so far lead, through
the blocks that are open, to the nodes that these blocks hold.
-/

namespace Liquid

/-- The tokens lead to an open block with these blocks around it, when at most `limit` blocks may be
open inside one another and so many more may be opened now. -/
inductive Leads (limit : Nat) : List Token → OpenBlock → List WaitingBlock → Nat → Prop
  | document {ts : List Token} {line : Nat} {body : Body}
    (items : Derives limit ts body.main.toList) (first : body.alternative = none) :
    Leads limit ts ⟨documentRules, line, body⟩ [] limit
  | inside {pre ts : List Token} {t : Token} {o : Opening} {waiting : OpenBlock}
    {outer : List WaitingBlock} {body : Body} {m : Nat}
    (around : Leads limit pre waiting outer (m + 1)) (opening : t.Opens o)
    (content : Content m o ts body.main.toList (body.alternative.map Array.toList)) :
    Leads limit (pre ++ t :: ts) ⟨o.rules, t.line, body⟩ (⟨waiting, o.resume⟩ :: outer) m

/-- The tokens have been read, and the reading stands here. -/
structure Reached (options : Options) (pre : List Token) (s : ReaderState) : Prop where
  idle : s.request = none
  leads : ∃ m, s.depth + m = options.maxDepth + 1 ∧
    Leads options.maxDepth pre s.block s.outer m

namespace Leads

variable {limit : Nat} {pre : List Token} {block : OpenBlock} {outer : List WaitingBlock} {m : Nat}

theorem framed (h : Leads limit pre block outer m) : Framed block.rules outer := by
  cases h with
  | document items first => exact .document
  | inside around opening content => exact .inside _ _ _

theorem le_limit (h : Leads limit pre block outer m) : m ≤ limit := by
  induction h with
  | document items first => exact Nat.le_refl limit
  | inside around opening content ih => exact Nat.le_of_succ_le ih

end Leads

/-- Items that follow the content of a block belong to it. -/
theorem Content.append
    {m : Nat} {o : Opening} {ts us : List Token} {body : Body} {more : List Node}
    (h : Content m o ts body.main.toList (body.alternative.map Array.toList))
    (items : Derives m us more) :
    Content m o (ts ++ us) (body.fill more).main.toList
      ((body.fill more).alternative.map Array.toList) := by
  cases halternative : body.alternative with
  | none =>
      obtain ⟨hmain, hnone⟩ := Body.fill_of_first halternative more
      rw [hmain, hnone]
      rw [halternative] at h
      cases h with
      | plain inner => exact .plain (inner.append items)
  | some second =>
      obtain ⟨hmain, hsecond⟩ := Body.fill_of_second halternative more
      rw [hmain, hsecond]
      rw [halternative] at h
      cases h with
      | @split e condition separating ts us first second' inner separator other =>
          have hmore := @Content.split m e condition separating ts _ _ _ inner separator
            (other.append items)
          simpa using hmore

/-- Items that follow belong to the innermost block. -/
theorem Leads.append
    {limit : Nat} {pre us : List Token} {block : OpenBlock} {outer : List WaitingBlock} {m : Nat}
    {more : List Node} (h : Leads limit pre block outer m) (items : Derives m us more) :
    Leads limit (pre ++ us) (block.fill more) outer m := by
  cases h with
  | @document ts line body before first =>
      obtain ⟨hmain, hfirst⟩ := Body.fill_of_first first more
      refine .document ?_ hfirst
      rw [hmain]
      exact before.append items
  | inside around opening content =>
      rw [List.append_assoc, List.cons_append]
      exact .inside around opening (content.append items)

theorem Opening.resume_inj
    {o o' : Opening} (h : o.resume = o'.resume) (b : Body) :
    o.nodeOf b = o'.nodeOf b :=
  Reading.done.inj (congrFun h b)

theorem Opening.endName_inj
    {o o' : Opening} (h : o.rules = o'.rules) :
    o.endName = o'.endName := by
  have hdelimiter := congrArg BlockRules.delimiter h
  rw [o.delimiter_rules, o'.delimiter_rules] at hdelimiter
  exact Option.some.inj hdelimiter

/-- Only a conditional is read by the rules that take an `else`. -/
theorem Opening.eq_conditional
    {o : Opening} (h : o.rules = StandardTags.conditionalRules) :
    ∃ condition, o = .conditional condition := by
  have hname := congrArg BlockRules.name h
  cases o with
  | conditional condition => exact ⟨condition, rfl⟩
  | loop item collection => exact absurd hname (by simp [rules, StandardTags.conditionalRules])
  | comment => exact absurd hname (by simp [rules, StandardTags.conditionalRules])

/-- An `else` in a conditional begins its second list. -/
theorem Leads.separated
    {limit : Nat} {pre : List Token} {block : OpenBlock} {outer : List WaitingBlock} {m : Nat}
    {t : Token} {markup : String} (h : Leads limit pre block outer m)
    (rules : block.rules = StandardTags.conditionalRules) (first : block.body.alternative = none)
    (tag : t.IsTag "else" markup) :
    Leads limit (pre ++ [t]) { block with body := block.body.beginAlternative } outer m := by
  cases h with
  | document items _ =>
      have hdelimiter := congrArg BlockRules.delimiter rules
      exact absurd hdelimiter (by simp [documentRules, StandardTags.conditionalRules])
  | inside around opening content =>
      obtain ⟨condition, rfl⟩ := Opening.eq_conditional rules
      rw [first] at content
      cases content with
      | plain inner =>
          rw [List.append_assoc, List.cons_append]
          exact .inside around opening (.split inner tag .nil)

/-- A closing tag makes the block a node of the block around it. -/
theorem Leads.closed
    {limit : Nat} {pre : List Token} {block waiting : OpenBlock} {outer : List WaitingBlock}
    {m : Nat} {t : Token} {o : Opening} {markup : String}
    (h : Leads limit pre block (⟨waiting, o.resume⟩ :: outer) m) (rules : block.rules = o.rules)
    (tag : t.IsTag o.endName markup) :
    Leads limit (pre ++ [t]) (waiting.fill [o.nodeOf block.body]) outer (m + 1) := by
  generalize hframes : (⟨waiting, o.resume⟩ :: outer : List WaitingBlock) = frames at h
  cases h with
  | document items first => exact absurd hframes (by simp)
  | @inside pre ts t' o' waiting' outer' body m around opening content =>
      obtain ⟨hframe, rfl⟩ := List.cons.inj hframes
      obtain ⟨rfl, hresume⟩ := WaitingBlock.mk.inj hframe
      rw [Opening.endName_inj rules.symm] at tag
      have hitem := Derives.closed opening content tag
      rw [Opening.resume_inj hresume, List.append_assoc]
      exact around.append hitem

/-- What a token does to a reading keeps the invariant. -/
theorem Reached.read
    {options : Options} {pre : List Token} {s s' : ReaderState} {t : Token}
    (h : Reached options pre s) (reads : Reads options s t s') :
    Reached options (pre ++ [t]) s' := by
  obtain ⟨idle, m, room, leads⟩ := h
  cases reads with
  | token item => exact ⟨idle, m, room, leads.append (.single item)⟩
  | opening opens hroom =>
      -- There is room for a block, so one fewer may be opened inside it.
      obtain ⟨n, rfl⟩ : ∃ n, m = n + 1 := ⟨m - 1, by omega⟩
      refine ⟨idle, n, ?_, .inside leads opens (.plain .nil)⟩
      change s.depth + 1 + n = options.maxDepth + 1
      omega
  | separator rules first tag => exact ⟨idle, m, room, leads.separated rules first tag⟩
  | closing rules around tag =>
      rw [around] at leads
      have hm := leads.le_limit
      refine ⟨idle, m + 1, ?_, leads.closed rules tag⟩
      change s.depth - 1 + (m + 1) = options.maxDepth + 1
      omega

/-! ## Runs -/

/-- The reading before the first token. -/
def ReaderState.start (line : Nat) : ReaderState where
  block := ⟨documentRules, line, {}⟩
  outer := []
  request := none
  line := line
  depth := 1

theorem parse_eq
    (registry : Registry) (options : Options) (stream : TokenStream) :
    parse registry options stream =
      match (ReaderState.start stream.line).run registry options stream.unread with
      | .ok (body, _) => .ok body.main.toList
      | .error e => .error e :=
  rfl

theorem Reached.start (options : Options) (line : Nat) :
    Reached options [] (.start line) :=
  ⟨rfl, options.maxDepth, Nat.add_comm _ _, .document .nil rfl⟩

theorem Reached.framed
    {options : Options} {pre : List Token} {s : ReaderState} (h : Reached options pre s) :
    Framed s.block.rules s.outer := by
  obtain ⟨-, m, -, leads⟩ := h
  exact leads.framed

/-- Tokens are read to the last, or there is a first one that is refused, whatever comes after
it. -/
theorem Reached.run_cases
    {options : Options} {pre : List Token} {s : ReaderState} (h : Reached options pre s)
    (ts : List Token) :
    (∃ s', Reached options (pre ++ ts) s' ∧
        ∀ rest, s.run .standard options (ts ++ rest) = s'.run .standard options rest) ∨
      ∃ us t vs cause s', ts = us ++ t :: vs ∧ Reached options (pre ++ us) s' ∧
        ∀ rest, s.run .standard options (us ++ t :: rest) = .error (.atLine cause t.line) := by
  induction ts generalizing pre s with
  | nil =>
      rw [List.append_nil]
      exact .inl ⟨s, h, fun rest => rfl⟩
  | cons t ts ih =>
      rcases readOrRefused h.framed h.idle t with ⟨s₁, reads⟩ | ⟨cause, refused⟩
      · have hrun := run_of_reads h.framed h.idle reads
        have hnext := ih (h.read reads)
        rw [List.append_assoc, List.singleton_append] at hnext
        rcases hnext with ⟨s', hs', hrest⟩ | ⟨us, t', vs, cause, s', rfl, hs', hrest⟩
        · refine .inl ⟨s', hs', fun rest => ?_⟩
          rw [List.cons_append, hrun, hrest]
        · refine .inr ⟨t :: us, t', vs, cause, s', rfl, ?_, fun rest => ?_⟩
          · rw [List.append_assoc, List.singleton_append] at hs'
            exact hs'
          · rw [List.cons_append, hrun, hrest]
      · refine .inr ⟨[], t, ts, cause, s, rfl, ?_, fun rest => ?_⟩
        · rw [List.append_nil]
          exact h
        · rw [List.nil_append, ReaderState.run, refused]

/-- At the end of the tokens the document is complete, or the innermost block was never closed. -/
theorem Reached.run_nil_cases
    {options : Options} {pre : List Token} {s : ReaderState} (h : Reached options pre s) :
    (∃ reader, s.run .standard options [] = .ok (s.block.body, reader) ∧
        Derives options.maxDepth pre s.block.body.main.toList) ∨
      ∃ before t ts o first second m, pre = before ++ t :: ts ∧ t.Opens o ∧
        Content m o ts first second ∧
        s.run .standard options [] = .error (.atLine (.unclosed o.name) t.line) := by
  obtain ⟨block, outer, request, line, depth⟩ := s
  obtain ⟨rfl, m, room, leads⟩ := h
  cases leads with
  | document items first => exact .inl ⟨_, rfl, items⟩
  | @inside before ts t o waiting outer body m around opening content =>
      refine .inr ⟨before, t, ts, o, _, _, m, rfl, opening, content, ?_⟩
      simp [ReaderState.run, ReaderState.finish, ReaderState.finishBlocks, o.unclosed_rules]

theorem derives_of_parse
    {options : Options} {stream : TokenStream} {nodes : List Node}
    (h : parse .standard options stream = .ok nodes) :
    Derives options.maxDepth stream.unread nodes := by
  rw [parse_eq] at h
  rcases (Reached.start options stream.line).run_cases stream.unread with
    ⟨s, hs, hrun⟩ | ⟨us, t, vs, cause, s, hsplit, -, hrun⟩
  · have hall := hrun []
    rw [List.append_nil] at hall
    rw [hall] at h
    rcases hs.run_nil_cases with ⟨reader, hok, items⟩ | ⟨_, t, _, o, _, _, _, -, -, -, herror⟩
    · rw [hok] at h
      obtain rfl := Except.ok.inj h
      exact items
    · rw [herror] at h
      exact absurd h (by simp)
  · rw [hsplit, hrun vs] at h
    exact absurd h (by simp)

/-- A document is read from the start, whatever comes after it. -/
theorem Derives.run_start
    {options : Options} {ts : List Token} {nodes : List Node}
    (h : Derives options.maxDepth ts nodes) (first : Nat) :
    ∃ line, ∀ rest, (ReaderState.start first).run .standard options (ts ++ rest) =
      ReaderState.run .standard options
        { ReaderState.start first with
          block := (ReaderState.start first).block.fill nodes
          line := line } rest := by
  have hroom : (ReaderState.start first).depth + options.maxDepth ≤ options.maxDepth + 1 :=
    Nat.le_of_eq (Nat.add_comm 1 options.maxDepth)
  exact h.readAs (.start first) .document rfl hroom

theorem Derives.parse_eq_ok
    {options : Options} {stream : TokenStream} {nodes : List Node}
    (h : Derives options.maxDepth stream.unread nodes) :
    parse .standard options stream = .ok nodes := by
  obtain ⟨line, hrun⟩ := h.run_start stream.line
  have hall := hrun []
  rw [List.append_nil] at hall
  rw [parse_eq, hall]
  have hmain := (Body.fill_of_first (b := {}) rfl nodes).1
  exact congrArg Except.ok hmain

/-- The grammar is unambiguous. -/
theorem Derives.unique
    {m : Nat} {ts : List Token} {nodes nodes' : List Node} (h : Derives m ts nodes)
    (h' : Derives m ts nodes') :
    nodes = nodes' := by
  let stream : TokenStream := { unread := ts }
  have hparse : parse .standard { maxDepth := m } stream = .ok nodes := h.parse_eq_ok
  have hparse' : parse .standard { maxDepth := m } stream = .ok nodes' := h'.parse_eq_ok
  exact Except.ok.inj (hparse.symm.trans hparse')

/-- Reading with the standard tags succeeds on just the tokens that the grammar derives, with the
nodes that it derives. -/
theorem parse_standard_eq_ok_iff
    (options : Options) (stream : TokenStream) (nodes : List Node) :
    parse .standard options stream = .ok nodes ↔
      Derives options.maxDepth stream.unread nodes :=
  ⟨derives_of_parse, Derives.parse_eq_ok⟩

end Liquid
