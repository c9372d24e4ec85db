import Liquid.Reader
import Liquid.StandardTags
import Liquid.Proofs.Marker

/-!
# The definitions that a template asks for

A registry is asked for the names of the tags among the tokens and for nothing else, and never for
`else` and `end`.  Two registries with the same definitions under those names read the same tree or
fail with the same error, whatever the definitions do.
-/

namespace Liquid

/-- Some tag among the tokens has this name. -/
def NamesTag (ts : List Token) (name : String) : Prop :=
  ∃ t ∈ ts, ∃ markup, t.IsTag name markup

theorem namesTag_iff
    {ts : List Token} {name : String} :
    NamesTag ts name ↔ name ∈ ts.filterMap fun t => t.tag?.map Prod.fst := by
  simp only [NamesTag, List.mem_filterMap, Option.map_eq_some_iff, Prod.exists, exists_and_right,
    exists_eq_right, Token.tag?_eq_some_iff]

instance (ts : List Token) (name : String) : Decidable (NamesTag ts name) :=
  decidable_of_iff _ namesTag_iff.symm

/-- Two registries have the same definitions, or none, under the names of the tags among the tokens.
Under `else` and `end` they may have any. -/
def Registry.AgreeOn (r r' : Registry) (ts : List Token) : Prop :=
  ∀ name, NamesTag ts name → name ≠ "else" → name ≠ "end" → r.find? name = r'.find? name

theorem Registry.AgreeOn.tail
    {r r' : Registry} {t : Token} {ts : List Token} (h : r.AgreeOn r' (t :: ts)) :
    r.AgreeOn r' ts := by
  rintro name ⟨u, hu, markup, tag⟩
  exact h name ⟨u, List.mem_cons_of_mem t hu, markup, tag⟩

/-- What is looked up for a tag is the same in two registries that agree on the tag. -/
theorem Registry.AgreeOn.find?_head
    {r r' : Registry} {t : Token} {ts : List Token} (h : r.AgreeOn r' (t :: ts))
    {name markup : String} (tag : t.IsTag name markup) :
    (if isReserved name then none else r.find? name) =
      if isReserved name then none else r'.find? name := by
  by_cases hreserved : isReserved name
  · rw [if_pos hreserved, if_pos hreserved]
  · obtain ⟨helse, hend⟩ : name ≠ "else" ∧ name ≠ "end" := by
      simpa [isReserved] using hreserved
    rw [if_neg hreserved, if_neg hreserved]
    exact h name ⟨t, List.mem_cons_self, markup, tag⟩ helse hend

/-! ## One step -/

section

variable {r r' : Registry} {t : Token} {ts : List Token} (options : Options)

theorem ReaderState.readToken_eq_of_agreeOn
    (h : r.AgreeOn r' (t :: ts)) (s : ReaderState) :
    s.readToken r options t = s.readToken r' options t := by
  unfold ReaderState.readToken
  split
  · split
    · next name markup hparts =>
        have hfind := h.find?_head (Token.tag?_eq_some_iff.mp hparts)
        unfold ReaderState.readTag
        rw [hfind]
    · rfl
  all_goals rfl

theorem ReaderState.step_eq_of_agreeOn
    (h : r.AgreeOn r' (t :: ts)) (s : ReaderState) :
    s.step r options t = s.step r' options t := by
  unfold ReaderState.step
  simp only [ReaderState.readToken_eq_of_agreeOn options h]

/-! ## Runs -/

theorem ReaderState.run_eq_of_agreeOn
    (h : r.AgreeOn r' ts) (s : ReaderState) :
    s.run r options ts = s.run r' options ts := by
  induction ts generalizing s with
  | nil => rfl
  | cons t rest ih =>
      rw [ReaderState.run, ReaderState.run, ReaderState.step_eq_of_agreeOn options h s]
      split
      · next after _ => exact ih h.tail after
      · rfl
      · rfl

theorem Reader.readBlock_eq_of_agreeOn
    (rules : BlockRules) (held : Body) {reader : Reader} (h : r.AgreeOn r' reader.tokens.unread) :
    reader.readBlock r options rules held = reader.readBlock r' options rules held := by
  unfold Reader.readBlock
  rw [ReaderState.run_eq_of_agreeOn options h]

theorem parse_eq_of_agreeOn
    {tokens : TokenStream} (h : r.AgreeOn r' tokens.unread) :
    parse r options tokens = parse r' options tokens := by
  have hread : Reader.readBlock r options documentRules {} ⟨tokens, 0⟩ =
      Reader.readBlock r' options documentRules {} ⟨tokens, 0⟩ :=
    Reader.readBlock_eq_of_agreeOn options documentRules {} h
  rw [parse, parse, hread]

end

theorem Registry.agreeOn_of_reserved
    {r r' : Registry} {name : String} (hname : name = "else" ∨ name = "end")
    (h : ∀ other, other ≠ name → r.find? other = r'.find? other) (ts : List Token) :
    r.AgreeOn r' ts := by
  intro other _ helse hend
  apply h other
  rcases hname with rfl | rfl
  · exact helse
  · exact hend

/-- What is read, a tree or an error with its line, depends on the tokens, on the settings and on
the definitions under the names of the tags among the tokens.  What is defined under `else` or under
`end`, if anything, makes no difference to any template. -/
theorem parse_depends_on_named_tags (options : Options) (tokens : TokenStream) :
    (∀ r r' : Registry, r.AgreeOn r' tokens.unread →
      parse r options tokens = parse r' options tokens) ∧
    ∀ (r : Registry) (name : String), name = "else" ∨ name = "end" →
      (∀ d, parse (r.insert name d) options tokens = parse r options tokens) ∧
        parse (r.erase name) options tokens = parse r options tokens := by
  refine ⟨fun r r' h => parse_eq_of_agreeOn options h, ?_⟩
  intro r name hname
  constructor
  · intro d
    apply parse_eq_of_agreeOn options
    apply Registry.agreeOn_of_reserved hname
    intro other hother
    rw [Registry.find?_insert, if_neg hother]
  · apply parse_eq_of_agreeOn options
    apply Registry.agreeOn_of_reserved hname
    intro other hother
    rw [Registry.find?_erase, if_neg hother]

/-- A tag that takes tokens as they are stands in the second list of a conditional.  One registry
has no loops, a tag that the template does not name, and a definition under `else`. -/
theorem parse_depends_on_named_tags_verbatim_after_else :
    let verbatim : Definition := fun site =>
      .tokens
        (fun taken =>
          if (taken.map Token.text).head? == some "\x7b% endraw %\x7d" then
            some (.done (.leaf site.name (pure (.emitted ""))))
          else none)
        fun _ => .refuse (.atLine (.stated "ran out"))
    let r := Registry.standard.insert "raw" verbatim
    let r' := ((r.erase "for").insert "else" verbatim).insert "shout" verbatim
    let tokens : TokenStream :=
      ⟨[⟨"\x7b% if a %\x7d", 1⟩, ⟨"\x7b", 1⟩, ⟨"\x7b% else %\x7d", 1⟩, ⟨"\x7b% raw %\x7d", 1⟩,
        ⟨"\x7b% for", 2⟩, ⟨"\x7b% endraw %\x7d", 2⟩, ⟨"\x7b% endif %\x7d", 3⟩], 1⟩
    (r.AgreeOn r' tokens.unread ∧ parse r {} tokens = parse r' {} tokens) ∧
      parse (r.insert "end" verbatim) {} tokens = parse r {} tokens ∧
      parse (r'.erase "else") {} tokens = parse r' {} tokens ∧
      (parse r {} tokens).toOption.any fun nodes =>
        Shape.beqAll (Node.shapes nodes) [.tag "if" [[.text "\x7b"], [.tag "raw" []]]] := by
  intro verbatim r r' tokens
  have hagree : r.AgreeOn r' tokens.unread := by
    intro name hname helse hend
    have hother : name ≠ "for" ∧ name ≠ "shout" := by
      constructor
      · rintro rfl
        exact absurd hname (by decide +kernel)
      · rintro rfl
        exact absurd hname (by decide +kernel)
    symm
    rw [Registry.find?_insert, if_neg hother.2, Registry.find?_insert, if_neg helse,
      Registry.find?_erase, if_neg hother.1]
  obtain ⟨hparse, hreserved⟩ := parse_depends_on_named_tags {} tokens
  refine ⟨⟨hagree, hparse r r' hagree⟩, (hreserved r "end" (.inr rfl)).1 verbatim,
    (hreserved r' "else" (.inl rfl)).2, ?_⟩
  decide +kernel

end Liquid
