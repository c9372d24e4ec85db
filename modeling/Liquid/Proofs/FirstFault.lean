import Liquid.Template
import Liquid.Proofs.Documents
import Liquid.Proofs.Splitting

/-!
# Where a malformed template is reported

An error names the line of the first token after which the template cannot be completed any more.
If there is no such token, a block was never closed, and the error names the line on which it
opened.
-/

namespace Liquid

/-- The tokens, or the tokens and more after them, are a document. -/
def Continuable (options : Options) (line : Nat) (ts : List Token) : Prop :=
  ∃ rest nodes, parse .standard options ⟨ts ++ rest, line⟩ = .ok nodes

/-- The token opens the innermost block that is still open after these tokens: all that follows it
is what may stand in the block, with every block in it closed. -/
def InnermostOpen (ts : List Token) (t : Token) (o : Opening) : Prop :=
  ∃ before inner m first second, ts = before ++ t :: inner ∧ t.Opens o ∧
    Content m o inner first second

/-- The error and its line tell of the first place where the tokens go wrong. -/
def TellsFirstFault (options : Options) (stream : TokenStream) (e : Error) (line : Nat) : Prop :=
  (∃ i t, stream.unread[i]? = some t ∧ line = t.line ∧
      Continuable options stream.line (stream.unread.take i) ∧
      ¬Continuable options stream.line (stream.unread.take (i + 1))) ∨
    ((∀ pre, pre <+: stream.unread → Continuable options stream.line pre) ∧
      ∃ t o, InnermostOpen stream.unread t o ∧ line = t.line ∧
        e.message = o.name ++ " tag was never closed")

/-! ## What has been read can be completed -/

/-- A tag without blanks and markup. -/
def bareTag (name : String) : Token :=
  ⟨"\x7b%" ++ name ++ "%\x7d", 1⟩

theorem isTag_bareTag
    {name : String} (hname : IsName name.toList) :
    (bareTag name).IsTag name "" := by
  refine ⟨[], [], [], ?_, ?_, ?_, ?_, hname, ?_, ?_⟩ <;>
    simp [Text.AllBlank, Text.Trimmed, bareTag]

/-- Closing the open blocks, the innermost first, completes the document. -/
theorem Leads.exists_derives
    {limit : Nat} {pre : List Token} {block : OpenBlock} {outer : List WaitingBlock} {m : Nat}
    (h : Leads limit pre block outer m) :
    ∃ rest nodes, Derives limit (pre ++ rest) nodes := by
  -- Closing the innermost block reads a token more, so the induction is on the blocks around it.
  induction outer generalizing pre block m with
  | nil =>
      cases h with
      | @document _ _ body items first =>
          refine ⟨[], body.main.toList, ?_⟩
          rw [List.append_nil]
          exact items
  | cons waiting outer ih =>
      cases h with
      | @inside _ ts t o waiting _ body _ around opening content =>
          have hopen := Leads.inside around opening content
          obtain ⟨rest, nodes, hitems⟩ := ih (hopen.closed rfl (isTag_bareTag o.isName_endName))
          refine ⟨bareTag o.endName :: rest, nodes, ?_⟩
          rw [List.append_assoc] at hitems
          exact hitems

theorem Reached.continuable
    {options : Options} {pre : List Token} {s : ReaderState} (h : Reached options pre s)
    (line : Nat) :
    Continuable options line pre := by
  obtain ⟨-, m, -, leads⟩ := h
  obtain ⟨rest, nodes, items⟩ := leads.exists_derives
  exact ⟨rest, nodes, Derives.parse_eq_ok items⟩

theorem Continuable.shorten
    {options : Options} {line : Nat} {pre ts : List Token} (h : Continuable options line ts)
    (hpre : pre <+: ts) :
    Continuable options line pre := by
  obtain ⟨more, rfl⟩ := hpre
  obtain ⟨rest, nodes, hok⟩ := h
  refine ⟨more ++ rest, nodes, ?_⟩
  rwa [List.append_assoc] at hok

/-! ## Faults -/

theorem exists_first_fault
    {options : Options} {stream : TokenStream} {e : Error}
    (h : parse .standard options stream = .error e) :
    ∃ cause line, e = .atLine cause line ∧ TellsFirstFault options stream e line := by
  rw [parse_eq] at h
  rcases (Reached.start options stream.line).run_cases stream.unread with
    ⟨s, hs, hrun⟩ | ⟨us, t, vs, cause, s, hsplit, hs, hrun⟩
  · have hall := hrun []
    rw [List.append_nil] at hall
    rw [hall] at h
    rcases hs.run_nil_cases with
      ⟨reader, hok, -⟩ | ⟨before, t, inner, o, first, second, m, hsplit, opens, content, herror⟩
    · rw [hok] at h
      exact absurd h (by simp)
    · rw [herror] at h
      obtain rfl := Except.error.inj h
      refine ⟨.unclosed o.name, t.line, rfl, .inr ⟨?_, t, o, ?_, rfl, rfl⟩⟩
      · intro pre hpre
        exact (hs.continuable stream.line).shorten hpre
      · exact ⟨before, inner, m, first, second, hsplit, opens, content⟩
  · have hfail := hrun vs
    rw [← hsplit] at hfail
    rw [hfail] at h
    obtain rfl := Except.error.inj h
    refine ⟨cause, t.line, rfl, .inl ⟨us.length, t, ?_, rfl, ?_, ?_⟩⟩
    · simp [hsplit]
    · rw [hsplit, List.take_left]
      exact hs.continuable stream.line
    · have htake : stream.unread.take (us.length + 1) = us ++ [t] := by
        rw [hsplit, List.append_cons]
        exact List.take_left' (by simp)
      rw [htake]
      rintro ⟨rest, nodes, hok⟩
      rw [parse_eq, List.append_assoc, List.singleton_append, hrun rest] at hok
      exact absurd hok (by simp)

theorem TellsFirstFault.exists_mem
    {options : Options} {stream : TokenStream} {e : Error} {line : Nat}
    (h : TellsFirstFault options stream e line) :
    ∃ t ∈ stream.unread, line = t.line := by
  rcases h with ⟨i, t, ht, hline, -⟩ | ⟨-, t, o, hopen, hline, -⟩
  · exact ⟨t, List.mem_of_getElem? ht, hline⟩
  · obtain ⟨before, inner, m, first, second, hsplit, -⟩ := hopen
    refine ⟨t, ?_, hline⟩
    rw [hsplit]
    exact List.mem_append_right before List.mem_cons_self

theorem parse_of_template_error
    {registry : Registry} {options : Options} {source : String} {e : Error}
    (h : Template.parse registry options source = .error e) :
    parse registry options (.ofSource source) = .error e := by
  unfold Template.parse at h
  split at h
  · exact absurd h (by simp)
  · next e' herror =>
      obtain rfl := Except.error.inj h
      exact herror

/-- An error in reading with the standard tags tells of the first place where the tokens go wrong,
and in a template it names one of the lines of the template. -/
theorem parse_standard_error_tells_first_fault (options : Options) :
    (∀ (stream : TokenStream) (e : Error), parse .standard options stream = .error e →
        ∃ cause line, e = .malformed cause (some line) ∧
          TellsFirstFault options stream e line) ∧
      ∀ (source : String) (e : Error), Template.parse .standard options source = .error e →
        ∃ cause line, e = .malformed cause (some line) ∧
          1 ≤ line ∧ line ≤ 1 + source.toList.count '\n' := by
  refine ⟨fun stream e h => exists_first_fault h, fun source e h => ?_⟩
  obtain ⟨cause, line, rfl, tells⟩ := exists_first_fault (parse_of_template_error h)
  obtain ⟨t, ht, rfl⟩ := tells.exists_mem
  exact ⟨cause, t.line, rfl, Source.line_of_mem_tokens ht⟩

/-- A second `else` is where this template goes wrong, and it stands on the third line. -/
theorem parse_standard_error_tells_first_fault_second_else :
    (∃ cause line, Error.atLine (.unexpectedElse "if") 3 = .malformed cause (some line) ∧
        TellsFirstFault {}
          ⟨[⟨"\x7b% if a %\x7d", 1⟩, ⟨"\x7b% else %\x7d", 2⟩, ⟨"\x7b% else %\x7d", 3⟩], 1⟩
          (.atLine (.unexpectedElse "if") 3) line) ∧
      ∃ cause line, Error.atLine (.unexpectedElse "if") 3 = .malformed cause (some line) ∧
        1 ≤ line ∧ line ≤ 3 := by
  have hstream : parse .standard {}
      ⟨[⟨"\x7b% if a %\x7d", 1⟩, ⟨"\x7b% else %\x7d", 2⟩, ⟨"\x7b% else %\x7d", 3⟩], 1⟩ =
        .error (.atLine (.unexpectedElse "if") 3) := by
    rfl
  have htokens : Source.tokens "\x7b% if a %\x7d\n\x7b% else %\x7d\n\x7b% else %\x7d" =
      [⟨"\x7b% if a %\x7d", 1⟩, ⟨"\n", 1⟩, ⟨"\x7b% else %\x7d", 2⟩, ⟨"\n", 2⟩,
        ⟨"\x7b% else %\x7d", 3⟩] := by
    decide +kernel
  have hsource : Template.parse .standard {}
      "\x7b% if a %\x7d\n\x7b% else %\x7d\n\x7b% else %\x7d" =
        .error (.atLine (.unexpectedElse "if") 3) := by
    rw [Template.parse, TokenStream.ofSource, htokens]
    rfl
  have h := parse_standard_error_tells_first_fault {}
  exact ⟨h.1 _ _ hstream, h.2 _ _ hsource⟩

end Liquid
