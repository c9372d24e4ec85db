import Liquid.Proofs.FirstFault
import Liquid.Proofs.Lockstep
import Liquid.Proofs.Seam
import Liquid.Proofs.Survival

/-!
# One template after another

A template that is read by itself is read in the same way with another one after it: the nodes are
those of both, and so is what is rendered.  If the other one is malformed, so are the two together,
for the same cause.
-/

namespace Liquid

/-! ## Trees that are read -/

theorem allStandardOver_append
    {P : RenderM Output → Prop} {nodes more : List Node} (h : Node.AllStandardOver P nodes)
    (h' : Node.AllStandardOver P more) :
    Node.AllStandardOver P (nodes ++ more) := by
  induction nodes with
  | nil => exact h'
  | cons n rest ih => exact ⟨h.1, ih h.2⟩

/-- A tree that is read holds nothing but text, expressions and standard tags. -/
theorem Derives.allStandardOver
    {m : Nat} {ts : List Token} {nodes : List Node} (h : Derives m ts nodes)
    (P : RenderM Output → Prop) :
    Node.AllStandardOver P nodes := by
  induction h with
  | nil => trivial
  | token item _ ih =>
      apply allStandardOver_append ?_ ih
      cases item with
      | nothing kind => trivial
      | text kind => exact ⟨trivial, trivial⟩
      | expression written => exact ⟨trivial, trivial⟩
      | leave tag => exact ⟨trivial, trivial⟩
      | next tag => exact ⟨trivial, trivial⟩
  | @block m t e o markup ts us body nodes _ _ _ _ ihInner ihRest =>
      refine ⟨?_, ihRest⟩
      cases o with
      | conditional condition => exact ihInner
      | loop item collection => exact ihInner
      | comment => exact ihInner
  | choice _ _ _ _ _ _ ihInner ihOther ihRest => exact ⟨⟨ihInner, ihOther⟩, ihRest⟩

/-! ## Tokens with the empty ones at the ends -/

namespace Source

theorem derives_tokens_iff
    {m : Nat} {source : String} {nodes : List Node} :
    Derives m (tokens source) nodes ↔ Derives m (allTokens source) nodes := by
  let keep : Token → Bool := (!·.text.toList.isEmpty)
  have hkeep (t : Token) : keep t ↔ t.text ≠ "" := by simp [keep]
  have hfilter : (tokens source).filter keep = (allTokens source).filter keep :=
    filter_tokens (fun t ht => by simp [keep, ht]) source
  constructor
  · intro h
    exact (h.filter hkeep).of_filter hfilter.symm
  · intro h
    exact (h.filter hkeep).of_filter hfilter

/-- A text between an opening and a closing marker of the same kind. -/
def IsEnclosed (p : List Char) : Prop :=
  (∃ inner, p = '{' :: '%' :: (inner ++ ['%', '}'])) ∨
    ∃ inner, p = '{' :: '{' :: (inner ++ ['}', '}'])

/-- A marker of a template that ends with a closing marker ends with the first one. -/
theorem MarkerBefore.isMarker
    {after p : List Char} (h : MarkerBefore after p) (enclosed : IsEnclosed p) :
    IsMarker p := by
  cases h with
  | tag first => exact .inl ⟨_, first, rfl⟩
  | expression first => exact .inr ⟨_, first, rfl⟩
  | openTag unclosed => rcases enclosed with ⟨inner, h⟩ | ⟨inner, h⟩ <;> simp at h
  | openExpression unclosed => rcases enclosed with ⟨inner, h⟩ | ⟨inner, h⟩ <;> simp at h
  | @halfExpression front first single =>
      rcases enclosed with ⟨inner, h⟩ | ⟨inner, h⟩
      · simp at h
      · have hends : front ++ ['}'] = (inner ++ ['}']) ++ ['}'] := by simpa using h
        have hfront : front = inner ++ ['}'] := List.append_cancel_right hends
        exact absurd (by simp [hfront]) first

end Source

theorem Token.IsTag.isEnclosed
    {t : Token} {name markup : String} (h : t.IsTag name markup) :
    Source.IsEnclosed t.text.toList := by
  obtain ⟨before, between, after, -, -, -, htext, -⟩ := h
  exact .inl ⟨before ++ name.toList ++ between ++ markup.toList ++ after, by simpa using htext⟩

theorem Token.IsVariable.isEnclosed
    {t : Token} {markup : String} (h : t.IsVariable markup) :
    Source.IsEnclosed t.text.toList := by
  obtain ⟨before, after, -, -, htext, -⟩ := h
  exact .inr ⟨before ++ markup.toList ++ after, by simpa using htext⟩

/-- Every tag and every variable of a derivation ends with a closing marker. -/
theorem Derives.isEnclosed
    {m : Nat} {ts : List Token} {nodes : List Node} (h : Derives m ts nodes) {t : Token}
    (ht : t ∈ ts) (marker : t.isMarker) :
    Source.IsEnclosed t.text.toList := by
  have hopens {t : Token} {o : Opening} (opening : t.Opens o) :
      Source.IsEnclosed t.text.toList := by
    obtain ⟨name, markup, tag⟩ := opening.exists_isTag
    exact tag.isEnclosed
  induction h with
  | nil => exact absurd ht List.not_mem_nil
  | token item _ ih =>
      rcases List.mem_cons.mp ht with rfl | ht
      · cases item with
        | nothing kind => simp [Token.isMarker, kind] at marker
        | text kind => simp [Token.isMarker, kind] at marker
        | expression written => exact written.isEnclosed
        | leave tag => exact tag.isEnclosed
        | next tag => exact tag.isEnclosed
      · exact ih ht
  | block opening _ closing _ ihInner ihRest =>
      simp only [List.mem_cons, List.mem_append] at ht
      rcases ht with rfl | ht | rfl | ht
      · exact hopens opening
      · exact ihInner ht
      · exact closing.isEnclosed
      · exact ihRest ht
  | choice opening _ separator _ closing _ ihInner ihOther ihRest =>
      simp only [List.mem_cons, List.mem_append] at ht
      rcases ht with rfl | ht | rfl | ht | rfl | ht
      · exact hopens opening
      · exact ihInner ht
      · exact separator.isEnclosed
      · exact ihOther ht
      · exact closing.isEnclosed
      · exact ihRest ht

/-- The markers of a template that is read are closed. -/
theorem Source.isMarker_of_derives
    {m : Nat} {source : String} {nodes : List Node} (h : Derives m (allTokens source) nodes) :
    ∀ p ∈ pieces source.toList, IsMarked p → IsMarker p := by
  intro p hp hmarked
  obtain ⟨before, after, hsplit⟩ := List.append_of_mem hp
  have hmarker : MarkerBefore after.flatten p :=
    (isCut_pieces source.toList).1.marker p after ⟨before, hsplit.symm⟩ hmarked
  have hmem : p ∈ (allTokens source).map (·.text.toList) := by
    rwa [allTokens, map_text_withLines]
  obtain ⟨t, ht, rfl⟩ := List.mem_map.mp hmem
  exact hmarker.isMarker (h.isEnclosed ht (Token.isMarker_iff.mpr hmarked))

theorem Source.isChain_allTokens (source : String) :
    (allTokens source).IsChain fun t u => t.isMarker ∨ u.isMarker := by
  have hcut := (isCut_pieces source.toList).1.alternate
  rw [← map_text_withLines 1 (pieces source.toList), List.isChain_map] at hcut
  apply hcut.imp
  intro t u halternate
  rw [Token.isMarker_iff, Token.isMarker_iff, halternate]
  exact (em _).symm

/-! ## The seam -/

theorem mergeTexts_copied
    {a b ab : Token} (text : ab.text = a.text ++ b.text) (front back : List Node) :
    Node.mergeTexts (front ++ a.copied ++ (b.copied ++ back)) =
      Node.mergeTexts (front ++ (ab.copied ++ back)) := by
  have hseam : Node.mergeTexts (a.copied ++ (b.copied ++ back)) =
      Node.mergeTexts (ab.copied ++ back) := by
    by_cases ha : a.text = ""
    · have hb : ab.text = b.text := by simp [text, ha]
      simp [Token.copied, ha, hb]
    · have hab : ab.text ≠ "" := by simp [text, ha]
      by_cases hb : b.text = ""
      · have ha' : ab.text = a.text := by simp [text, hb]
        simp [Token.copied, ha', hb]
      · simp only [Token.copied, ha, hb, hab, if_false, List.cons_append, List.nil_append]
        exact (Node.consMerged_text_text _ _ _).trans (by rw [← text]; rfl)
  rw [List.append_assoc, Node.mergeTexts_append, hseam, ← Node.mergeTexts_append]

/-- The tokens of two templates that are read derive the nodes of both. -/
theorem Source.Joined.derives
    {m : Nat} {source more : String} {front back : List Token} {a b ab : Token}
    (h : Joined source more front back a b ab) {nodes nodes' : List Node}
    (hsource : Derives m (allTokens source) nodes) (hmore : Derives m (allTokens more) nodes') :
    Derives m (allTokens (source ++ more)) (Node.mergeTexts (nodes ++ nodes')) := by
  obtain ⟨first, rfl, hfront⟩ := hsource.dropLast_of_plain h.left h.plain_left
  rw [h.right] at hmore
  obtain ⟨rest, rfl, hback⟩ := hmore.tail_of_plain h.plain_right
  have hall : Derives m (allTokens (source ++ more)) (first ++ (ab.copied ++ rest)) := by
    rw [h.both]
    exact hfront.append (.token (Token.standsFor_copied h.plain_both) (hback.map_below _))
  have hapart := (hall.apart (isChain_allTokens _)).1
  rw [mergeTexts_copied h.text, Node.mergeTexts_of_apart hapart]
  exact hall

theorem parse_eq_error_iff
    {registry : Registry} {options : Options} {stream : TokenStream} {e : Error} :
    parse registry options stream = .error e ↔
      (ReaderState.start stream.line).run registry options stream.unread = .error e := by
  rw [parse_eq]
  cases (ReaderState.start stream.line).run registry options stream.unread with
  | ok result => simp
  | error e' => simp

/-- What is malformed is malformed after a template that is read, too. -/
theorem Source.Joined.parse_eq_error
    {options : Options} {source more : String} {front back : List Token} {a b ab : Token}
    (h : Joined source more front back a b ab) {nodes : List Node}
    (hsource : Derives options.maxDepth (tokens source) nodes) {e : Error}
    (hmore : parse .standard options (.ofSource more) = .error e) :
    ∃ cause line, e = .atLine cause line ∧
      parse .standard options (.ofSource (source ++ more)) =
        .error (.atLine cause (line + source.toList.count '\n')) := by
  let d := source.toList.count '\n'
  let start := ReaderState.start 1
  obtain ⟨line, hread⟩ := hsource.run_start 1
  have hmore' : start.run .standard options (tokens more) = .error e := parse_eq_error_iff.mp hmore
  -- What comes after the first template is read as if nothing stood before it.
  have hstep : Lockstep d start { start with block := start.block.fill nodes, line := line } :=
    ⟨rfl, rfl, rfl, .document⟩
  have hbelow : ((tokens more).map (Token.below d)).filter Token.isMarker =
      ((tokens more).filter Token.isMarker).map (Token.below d) := List.filter_map
  obtain ⟨cause, line', rfl, hrest⟩ := hstep.run_error hbelow hmore'
  rw [← hread] at hrest
  -- The two templates have the same tags together as one by one.
  have hsame : (tokens (source ++ more)).filter Token.isMarker =
      ((tokens source ++ (tokens more).map (Token.below d)).filter Token.isMarker).map
        (Token.below 0) := by
    rw [h.filter_isMarker, List.filter_append, hbelow]
    exact (List.map_id _).symm
  have hself : Lockstep 0 start start := ⟨rfl, rfl, rfl, .document⟩
  obtain ⟨cause', line'', heq, hboth⟩ := hself.run_error hsame hrest
  obtain ⟨rfl, hline⟩ := Error.malformed.inj heq
  obtain rfl := Option.some.inj hline
  exact ⟨cause, line', rfl, parse_eq_error_iff.mpr hboth⟩

theorem Template.parse_eq_ok_iff
    {registry : Registry} {options : Options} {source : String} {t : Template} :
    Template.parse registry options source = .ok t ↔
      Liquid.parse registry options (.ofSource source) = .ok t.root ∧ t.options = options := by
  rw [Template.parse]
  cases Liquid.parse registry options (.ofSource source) with
  | error e => simp
  | ok root =>
      obtain ⟨root', options'⟩ := t
      simp [eq_comm]

/-- With another template after it, a template that is read and does not end as a marker begins
gives the nodes of both, with texts merged where the two meet, and what is rendered is what the two
render one after the other.  What is malformed in the other template is malformed in the two
together, on a line that is further down by the lines of the first. -/
theorem Template.parse_append
    {options : Options} {source : String} {t : Template}
    (read : Template.parse .standard options source = .ok t)
    (ends : source.toList.getLast? ≠ some '{') :
    (∀ (more : String) (u : Template), Template.parse .standard options more = .ok u →
        ∃ both, Template.parse .standard options (source ++ more) = .ok both ∧
          both.root = Node.mergeTexts (t.root ++ u.root) ∧
            ∀ ctx, ∃ text mid text' after, t.renderWith ctx = (.ok text, mid) ∧
              u.renderWith mid = (.ok text', after) ∧
                both.renderWith ctx = (.ok (text ++ text'), after)) ∧
      ∀ (more : String) (e : Error), Template.parse .standard options more = .error e →
        ∃ e' line, Template.parse .standard options (source ++ more) = .error e' ∧
          e'.kind = e.kind ∧ e'.message = e.message ∧ e.line? = some line ∧
            e'.line? = some (line + source.toList.count '\n') := by
  have hsource : Derives options.maxDepth (Source.tokens source) t.root :=
    derives_of_parse (Template.parse_eq_ok_iff.mp read).1
  have hsource' := Source.derives_tokens_iff.mp hsource
  have hclosed := Source.isMarker_of_derives hsource'
  constructor
  · intro more u hmore
    have hmore' : Derives options.maxDepth (Source.tokens more) u.root :=
      derives_of_parse (Template.parse_eq_ok_iff.mp hmore).1
    obtain ⟨front, back, a, b, ab, hjoined⟩ := Source.exists_joined hclosed ends more
    have hboth := Source.derives_tokens_iff.mpr
      (hjoined.derives hsource' (Source.derives_tokens_iff.mp hmore'))
    refine ⟨⟨Node.mergeTexts (t.root ++ u.root), options⟩, ?_, rfl, ?_⟩
    · exact Template.parse_eq_ok_iff.mpr ⟨hboth.parse_eq_ok, rfl⟩
    · intro ctx
      obtain ⟨text, mid, htext⟩ := exists_renderAll_eq_ok (hsource.allStandardOver Survives) ctx
      obtain ⟨text', after, htext'⟩ :=
        exists_renderAll_eq_ok (hmore'.allStandardOver Survives) mid
      refine ⟨text, mid, text', after, htext, htext', ?_⟩
      rw [Template.renderWith, renderAll_mergeTexts, renderAll_append, htext]
      simp [htext', Except.map]
  · intro more e hmore
    obtain ⟨front, back, a, b, ab, hjoined⟩ := Source.exists_joined hclosed ends more
    obtain ⟨cause, line, rfl, herror⟩ :=
      hjoined.parse_eq_error hsource (parse_of_template_error hmore)
    let moved := Error.atLine cause (line + source.toList.count '\n')
    have hmoved : Template.parse .standard options (source ++ more) = .error moved := by
      rw [Template.parse, herror]
    exact ⟨moved, line, hmoved, rfl, rfl, rfl, rfl⟩

/-- Two texts meet where the second template begins, and what is malformed on the second line of the
other one is so on the third line of the two. -/
theorem Template.parse_append_texts_meet :
    let source := "a\n\x7b\x7b x \x7d\x7db"
    let more := "c\x7b% break %\x7d"
    let malformed := "\n\x7b% end %\x7d"
    let t : Template := ⟨[.text "a\n", .expression "x", .text "b"], {}⟩
    let u : Template := ⟨[.text "c", .interrupt "break" .leave], {}⟩
    Template.parse .standard {} source = .ok t ∧ source.toList.getLast? ≠ some '{' ∧
      Template.parse .standard {} more = .ok u ∧
        (∃ both, Template.parse .standard {} (source ++ more) = .ok both ∧
          both.root =
              [.text "a\n", .expression "x", .text "bc", .interrupt "break" .leave] ∧
            ∀ ctx, ∃ text mid text' after, t.renderWith ctx = (.ok text, mid) ∧
              u.renderWith mid = (.ok text', after) ∧
                both.renderWith ctx = (.ok (text ++ text'), after)) ∧
          Template.parse .standard {} malformed =
            .error (.atLine (.bareEnd "document" none) 2) ∧
            ∃ e', Template.parse .standard {} (source ++ malformed) = .error e' ∧
              e'.kind = .malformed ∧ e'.message = (Cause.bareEnd "document" none).message ∧
                e'.line? = some 3 := by
  intro source more malformed t u
  have hsource : Source.tokens source =
      [⟨"a\n", 1⟩, ⟨"\x7b\x7b x \x7d\x7d", 2⟩, ⟨"b", 2⟩] := by
    decide +kernel
  have hmore : Source.tokens more = [⟨"c", 1⟩, ⟨"\x7b% break %\x7d", 1⟩] := by
    decide +kernel
  have hmalformed : Source.tokens malformed = [⟨"\n", 1⟩, ⟨"\x7b% end %\x7d", 2⟩] := by
    decide +kernel
  have ht : Template.parse .standard {} source = .ok t := by
    refine Template.parse_eq_ok_iff.mpr ⟨Derives.parse_eq_ok ?_, rfl⟩
    rw [TokenStream.ofSource, hsource]
    exact .token (.text rfl)
      (.token (.expression (Token.expression?_eq_some_iff.mp (by decide)))
        (.token (.text rfl) .nil))
  have hu : Template.parse .standard {} more = .ok u := by
    refine Template.parse_eq_ok_iff.mpr ⟨Derives.parse_eq_ok ?_, rfl⟩
    rw [TokenStream.ofSource, hmore]
    have hbreak : (⟨"\x7b% break %\x7d", 1⟩ : Token).IsTag "break" "" :=
      Token.tag?_eq_some_iff.mp (by decide)
    exact .token (.text rfl) (.token (.leave hbreak) .nil)
  have herror : Template.parse .standard {} malformed =
      .error (.atLine (.bareEnd "document" none) 2) := by
    rw [Template.parse, TokenStream.ofSource, hmalformed]
    rfl
  have hends : source.toList.getLast? ≠ some '{' := by decide
  obtain ⟨hok, hfail⟩ := Template.parse_append ht hends
  refine ⟨ht, hends, hu, ?_, herror, ?_⟩
  · obtain ⟨both, hboth, hroot, hrender⟩ := hok more u hu
    exact ⟨both, hboth, hroot, hrender⟩
  · obtain ⟨e', line, he', hkind, hmessage, hline, hline'⟩ := hfail malformed _ herror
    obtain rfl : 2 = line := Option.some.inj hline
    have hcount : source.toList.count '\n' = 1 := by decide
    rw [hcount] at hline'
    exact ⟨e', he', hkind, hmessage, hline'⟩

end Liquid
