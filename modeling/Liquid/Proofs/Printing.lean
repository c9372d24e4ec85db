import Liquid.Template
import Liquid.Proofs.Assembly
import Liquid.Proofs.NestingLimit

/-!
# Reading a printed tree

A tree is printed piece by piece: texts as they are, and a marker for each expression and for each
tag, with any blanks at the places where blanks do not matter.  Reading what was printed gives the
tree back, if its texts and markups can be told from the markers around them.
-/

namespace Liquid

open Text (AllBlank Trimmed IsWord Avoids)

/-! ## Printing -/

/-- An expression in print. -/
def IsPrintedVariable (markup cs : List Char) : Prop :=
  ∃ before after, AllBlank before ∧ AllBlank after ∧
    cs = ['{', '{'] ++ before ++ markup ++ after ++ ['}', '}']

/-- A tag in print.  Blanks are needed only between its name and its markup. -/
def IsPrintedTag (name markup cs : List Char) : Prop :=
  ∃ before between after, AllBlank before ∧ AllBlank between ∧ AllBlank after ∧
    (markup ≠ [] → between ≠ []) ∧
    cs = ['{', '%'] ++ before ++ name ++ between ++ markup ++ after ++ ['%', '}']

/-- The opening tag of a block in print. -/
inductive Opening.PrintedAs : Opening → List Char → Prop
  | conditional {condition : String} {p : List Char}
    (tag : IsPrintedTag "if".toList condition.toList p) : (conditional condition).PrintedAs p
  | loop {item collection : String} {l r p : List Char} (before : AllBlank l) (apart : l ≠ [])
    (after : AllBlank r) (apart' : r ≠ [])
    (tag : IsPrintedTag "for".toList (item.toList ++ l ++ ['i', 'n'] ++ r ++ collection.toList) p) :
    (loop item collection).PrintedAs p
  | comment {p : List Char} (tag : IsPrintedTag "comment".toList [] p) : comment.PrintedAs p

/-- A list of nodes in print, piece by piece. -/
inductive Printed : List Node → List (List Char) → Prop
  | nil : Printed [] []
  | text {content : String} {nodes : List Node} {ps : List (List Char)} (rest : Printed nodes ps) :
    Printed (.text content :: nodes) (content.toList :: ps)
  | expression {markup : String} {p : List Char} {nodes : List Node} {ps : List (List Char)}
    (written : IsPrintedVariable markup.toList p) (rest : Printed nodes ps) :
    Printed (.expression markup :: nodes) (p :: ps)
  | leave {p : List Char} {nodes : List Node} {ps : List (List Char)}
    (tag : IsPrintedTag "break".toList [] p) (rest : Printed nodes ps) :
    Printed (.interrupt "break" .leave :: nodes) (p :: ps)
  | next {p : List Char} {nodes : List Node} {ps : List (List Char)}
    (tag : IsPrintedTag "continue".toList [] p) (rest : Printed nodes ps) :
    Printed (.interrupt "continue" .next :: nodes) (p :: ps)
  | block {o : Opening} {p q : List Char} {body nodes : List Node} {bs ps : List (List Char)}
    (opening : o.PrintedAs p) (inner : Printed body bs)
    (closing : IsPrintedTag o.endName.toList [] q) (rest : Printed nodes ps) :
    Printed (o.node body none :: nodes) (p :: (bs ++ q :: ps))
  | choice {condition : String} {p s q : List Char} {first second nodes : List Node}
    {fs ss ps : List (List Char)} (opening : (Opening.conditional condition).PrintedAs p)
    (inner : Printed first fs) (separator : IsPrintedTag "else".toList [] s)
    (other : Printed second ss) (closing : IsPrintedTag "endif".toList [] q)
    (rest : Printed nodes ps) :
    Printed ((Opening.conditional condition).node first (some second) :: nodes)
      (p :: (fs ++ s :: (ss ++ q :: ps)))

/-! ## What can be read back -/

/-- The markup of a block can be told from its tag. -/
def Opening.Printable : Opening → Prop
  | conditional condition =>
    condition ≠ "" ∧ Trimmed condition.toList ∧ Avoids '%' '}' condition.toList
  | loop item collection =>
    IsWord item.toList ∧ Avoids '%' '}' item.toList ∧
      IsWord collection.toList ∧ Avoids '%' '}' collection.toList
  | comment => True

/-- A text can be told from what comes after it: that is no text, and it does not make an opening
marker of the end of the text. -/
def Node.FitsBefore (rest : List Node) (followed : Bool) : Node → Prop
  | text content =>
    (∀ other more, rest ≠ text other :: more) ∧
      (rest ≠ [] ∨ followed = true → '{' ∉ content.toList.getLast?)
  | _ => True

mutual

/-- A node of the standard language whose texts and markups can be told from the markers around
them. -/
def Node.Printable : Node → Prop
  | .text content => Source.IsPlain content.toList
  | .expression markup => Trimmed markup.toList ∧ '}' ∉ markup.toList
  | .conditional _ condition body none =>
    (Opening.conditional condition).Printable ∧ PrintableAll body true
  | .conditional _ condition body (some alternative) =>
    (Opening.conditional condition).Printable ∧ PrintableAll body true ∧
      PrintableAll alternative true
  | .loop _ item collection body =>
    (Opening.loop item collection).Printable ∧ PrintableAll body true
  | .comment _ body => PrintableAll body true
  | .interrupt _ _ => True
  | .leaf _ _ => False
  | .block _ _ _ => False
termination_by structural n => n

/-- The nodes of a list are so, and so are its texts before what follows them in the list.  A marker
may follow the list. -/
def PrintableAll : List Node → Bool → Prop
  | [], _ => True
  | n :: rest, followed => n.Printable ∧ n.FitsBefore rest followed ∧ PrintableAll rest followed
termination_by structural l => l

end

theorem printable_node
    {o : Opening} {body : List Node} :
    (o.node body none).Printable ↔ o.Printable ∧ PrintableAll body true := by
  cases o with
  | conditional condition => exact Iff.rfl
  | loop item collection => exact Iff.rfl
  | comment => exact (and_iff_right trivial).symm

/-! ## Markers in print -/

theorem ne_of_isBlank
    {c : Char} (hc : Text.isBlank c) :
    '%' ≠ c ∧ '}' ≠ c := by
  constructor
  · rintro rfl
    exact absurd hc (by decide)
  · rintro rfl
    exact absurd hc (by decide)

theorem not_mem_of_allBlank
    {l : List Char} (hl : AllBlank l) :
    '%' ∉ l ∧ '}' ∉ l :=
  ⟨fun h => (ne_of_isBlank (hl _ h)).1 rfl, fun h => (ne_of_isBlank (hl _ h)).2 rfl⟩

theorem not_mem_of_isName
    {name : List Char} (h : IsName name) :
    '%' ∉ name := by
  intro hmem
  exact absurd (h.2 _ hmem) (by decide)

theorem IsPrintedTag.isMarker
    {name markup p : List Char} (h : IsPrintedTag name markup p) (hname : IsName name)
    (hmarkup : Avoids '%' '}' markup) :
    Source.IsMarker p := by
  obtain ⟨before, between, after, hbefore, hbetween, hafter, -, rfl⟩ := h
  have hfront : '%' ∉ before ++ name ++ between := by
    simp [not_mem_of_allBlank hbefore, not_mem_of_isName hname, not_mem_of_allBlank hbetween]
  have hback : Avoids '%' '}' (markup ++ after) := by
    apply hmarkup.append (Text.avoids_of_not_mem_right (not_mem_of_allBlank hafter).2)
    rintro ⟨-, hhead⟩
    exact (not_mem_of_allBlank hafter).2 (List.mem_of_mem_head? hhead)
  have hinner : Avoids '%' '}' (before ++ name ++ between ++ (markup ++ after)) := by
    apply (Text.avoids_of_not_mem_left hfront).append hback
    rintro ⟨hlast, -⟩
    exact hfront (List.mem_of_getLast? hlast)
  exact .inl ⟨_, hinner, by simp⟩

theorem IsPrintedTag.isMarker_of_name
    {name p : List Char} (h : IsPrintedTag name [] p) (hname : IsName name) :
    Source.IsMarker p :=
  h.isMarker hname (Text.avoids_nil _ _)

theorem IsPrintedVariable.isMarker
    {markup p : List Char} (h : IsPrintedVariable markup p) (hmarkup : '}' ∉ markup) :
    Source.IsMarker p := by
  obtain ⟨before, after, hbefore, hafter, rfl⟩ := h
  refine .inr ⟨before ++ markup ++ after, ?_, by simp⟩
  simp [not_mem_of_allBlank hbefore, not_mem_of_allBlank hafter, hmarkup]

theorem IsPrintedTag.isTagText
    {name markup p : List Char} (h : IsPrintedTag name markup p) (hname : IsName name)
    (hmarkup : Trimmed markup) :
    IsTagText p name markup := by
  obtain ⟨before, between, after, hbefore, hbetween, hafter, hsome, rfl⟩ := h
  refine ⟨before, between, after, hbefore, hbetween, hafter, rfl, hname, ?_, hmarkup⟩
  intro c hc
  cases between with
  | nil =>
      have hnil : markup = [] := Classical.byContradiction fun hne => hsome hne rfl
      rw [hnil] at hc
      exact absurd hc (by simp)
  | cons d between =>
      obtain rfl : d = c := by simpa using hc
      simp [Text.not_isWordChar_of_isBlank (hbetween d List.mem_cons_self)]

theorem IsPrintedVariable.isVariableText
    {markup p : List Char} (h : IsPrintedVariable markup p) (hmarkup : Trimmed markup) :
    IsVariableText p markup := by
  obtain ⟨before, after, hbefore, hafter, rfl⟩ := h
  exact ⟨before, after, hbefore, hafter, rfl, hmarkup⟩

theorem trimmed_of_isWord
    {a b : List Char} (ha : IsWord a) (hb : IsWord b) (between : List Char) :
    Trimmed (a ++ between ++ b) := by
  constructor
  · intro c hc
    obtain ⟨d, a, rfl⟩ := List.exists_cons_of_ne_nil ha.1
    obtain rfl : d = c := by simpa using hc
    exact ha.2 d List.mem_cons_self
  · intro c hc
    rw [List.getLast?_append, List.getLast?_eq_some_getLast hb.1] at hc
    obtain rfl : b.getLast hb.1 = c := by simpa using hc
    exact hb.2 _ (List.getLast_mem hb.1)

/-- The markup of a loop is kept apart from the marker that closes its tag. -/
theorem avoids_loopMarkup
    {item l r collection : List Char} (hitem : Avoids '%' '}' item) (hl : AllBlank l)
    (hne : l ≠ []) (hr : AllBlank r) (hcollection : Avoids '%' '}' collection) :
    Avoids '%' '}' (item ++ l ++ ['i', 'n'] ++ r ++ collection) := by
  have hmiddle : '%' ∉ l ++ ['i', 'n'] ++ r := by
    simp [not_mem_of_allBlank hl, not_mem_of_allBlank hr]
  have hback : Avoids '%' '}' (l ++ ['i', 'n'] ++ r ++ collection) := by
    apply (Text.avoids_of_not_mem_left hmiddle).append hcollection
    rintro ⟨hlast, -⟩
    exact hmiddle (List.mem_of_getLast? hlast)
  have hall : Avoids '%' '}' (item ++ (l ++ ['i', 'n'] ++ r ++ collection)) := by
    apply hitem.append hback
    rintro ⟨-, hhead⟩
    obtain ⟨d, l, rfl⟩ := List.exists_cons_of_ne_nil hne
    obtain rfl : d = '}' := by simpa using hhead
    exact absurd (hl _ List.mem_cons_self) (by decide)
  simpa using hall

namespace Opening.PrintedAs

theorem isMarker
    {o : Opening} {p : List Char} (h : o.PrintedAs p) (ho : o.Printable) :
    Source.IsMarker p := by
  cases h with
  | conditional tag => exact tag.isMarker (by decide) ho.2.2
  | loop before apart after apart' tag =>
      obtain ⟨-, hitem, -, hcollection⟩ := ho
      exact tag.isMarker (by decide) (avoids_loopMarkup hitem before apart after hcollection)
  | comment tag => exact tag.isMarker_of_name (by decide)

theorem opens
    {o : Opening} {t : Token} (h : o.PrintedAs t.text.toList) (ho : o.Printable) :
    t.Opens o := by
  cases h with
  | conditional tag =>
      obtain ⟨given, trimmed, -⟩ := ho
      exact .conditional (tag.isTagText (by decide) trimmed) given
  | @loop item collection l r p before apart after apart' tag =>
      obtain ⟨hitem, -, hcollection, -⟩ := ho
      have trimmed := trimmed_of_isWord hitem hcollection (l ++ ['i', 'n'] ++ r)
      have htag := tag.isTagText (by decide) (by simpa using trimmed)
      obtain ⟨markup, hmarkup⟩ : ∃ markup : String,
          markup.toList = item.toList ++ l ++ ['i', 'n'] ++ r ++ collection.toList :=
        ⟨String.ofList _, String.toList_ofList⟩
      rw [← hmarkup] at htag
      exact .loop htag ⟨hitem, hcollection, l, r, before, apart, after, apart', hmarkup⟩
  | comment tag =>
      have hmarkup : t.IsTag "comment" "" := tag.isTagText (by decide) (by simp [Trimmed])
      exact .comment hmarkup

end Opening.PrintedAs

/-! ## The pieces of a printed tree -/

/-- What comes next, if anything does, is a marker. -/
def StartsMarked (ps : List (List Char)) : Prop :=
  ∀ p ∈ ps.head?, Source.IsMarker p

theorem Printed.eq_nil
    {ps : List (List Char)} (h : Printed [] ps) :
    ps = [] := by
  cases h with
  | nil => rfl

theorem separated_marker
    {p : List Char} {ps : List (List Char)} (hp : Source.IsMarker p) (hps : Source.Separated ps) :
    Source.Separated (p :: ps) ∧ StartsMarked (p :: ps) := by
  refine ⟨.marker hp hps, fun q hq => ?_⟩
  obtain rfl : p = q := Option.some.inj hq
  exact hp

theorem separated_text
    {p : List Char} {ps : List (List Char)} (plain : Source.IsPlain p)
    (hends : ps ≠ [] → '{' ∉ p.getLast?) (hps : Source.Separated ps) (hnext : StartsMarked ps) :
    Source.Separated (p :: ps) := by
  cases ps with
  | nil => exact .last plain
  | cons q ps => exact .text plain (hends (List.cons_ne_nil q ps)) (hnext q rfl) hps.tail

/-- The pieces of a printed tree can be told from each other and from what follows them; only a text
at the front does not start with a marker. -/
theorem Printed.separated
    {nodes : List Node} {ps : List (List Char)} (h : Printed nodes ps) {followed : Bool}
    (printable : PrintableAll nodes followed) {ks : List (List Char)}
    (hks : Source.Separated ks) (hmarked : StartsMarked ks)
    (hfollowed : ks ≠ [] → followed = true) :
    Source.Separated (ps ++ ks) ∧
      ((∀ content more, nodes ≠ .text content :: more) → StartsMarked (ps ++ ks)) := by
  induction h generalizing followed ks with
  | nil => exact ⟨hks, fun _ => hmarked⟩
  | @text content nodes ps rest ih =>
      obtain ⟨plain, ⟨hfirst, hlast⟩, printable⟩ := printable
      obtain ⟨hseparated, hnext⟩ := ih printable hks hmarked hfollowed
      refine ⟨?_, fun hne => absurd rfl (hne content nodes)⟩
      refine separated_text plain (fun hne => hlast ?_) hseparated (hnext hfirst)
      by_cases hnodes : nodes = []
      · subst hnodes
        rw [rest.eq_nil] at hne
        exact .inr (hfollowed hne)
      · exact .inl hnodes
  | @expression markup p nodes ps written rest ih =>
      obtain ⟨hmarkup, -, printable⟩ := printable
      obtain ⟨hseparated, -⟩ := ih printable hks hmarked hfollowed
      have hall := separated_marker (written.isMarker hmarkup.2) hseparated
      exact ⟨hall.1, fun _ => hall.2⟩
  | leave tag rest ih =>
      obtain ⟨-, -, printable⟩ := printable
      obtain ⟨hseparated, -⟩ := ih printable hks hmarked hfollowed
      have hall := separated_marker (tag.isMarker_of_name (by decide)) hseparated
      exact ⟨hall.1, fun _ => hall.2⟩
  | next tag rest ih =>
      obtain ⟨-, -, printable⟩ := printable
      obtain ⟨hseparated, -⟩ := ih printable hks hmarked hfollowed
      have hall := separated_marker (tag.isMarker_of_name (by decide)) hseparated
      exact ⟨hall.1, fun _ => hall.2⟩
  | @block o p q body nodes bs ps opening inner closing rest ihInner ihRest =>
      obtain ⟨hnode, -, printable⟩ := printable
      obtain ⟨ho, hbody⟩ := printable_node.mp hnode
      obtain ⟨hrest, -⟩ := ihRest printable hks hmarked hfollowed
      have hclose := separated_marker (closing.isMarker_of_name o.isName_endName) hrest
      -- Whatever follows the block, its closing tag follows what stands in it.
      obtain ⟨hinner, -⟩ := ihInner hbody hclose.1 hclose.2 fun _ => rfl
      have hall := separated_marker (opening.isMarker ho) hinner
      rw [List.cons_append, List.append_assoc, List.cons_append]
      exact ⟨hall.1, fun _ => hall.2⟩
  | @choice condition p s q first second nodes fs ss ps opening inner separator other closing rest
      ihInner ihOther ihRest =>
      obtain ⟨⟨ho, hfirst, hsecond⟩, -, printable⟩ := printable
      obtain ⟨hrest, -⟩ := ihRest printable hks hmarked hfollowed
      have hclose := separated_marker (closing.isMarker_of_name (by decide)) hrest
      obtain ⟨hother, -⟩ := ihOther hsecond hclose.1 hclose.2 fun _ => rfl
      have helse := separated_marker (separator.isMarker_of_name (by decide)) hother
      obtain ⟨hinner, -⟩ := ihInner hfirst helse.1 helse.2 fun _ => rfl
      have hall := separated_marker (opening.isMarker ho) hinner
      simp only [List.cons_append, List.append_assoc]
      exact ⟨hall.1, fun _ => hall.2⟩

/-! ## The tokens of a printed tree -/

theorem kind_of_isPlain
    {t : Token} (h : Source.IsPlain t.text.toList) :
    t.kind = .text := by
  obtain ⟨hne, hvariable, htag⟩ := h
  unfold Token.kind TokenKind.ofChars
  split
  · next hnil => exact absurd hnil hne
  · next hopen =>
      rw [hopen] at htag
      exact absurd ⟨rfl, rfl⟩ (Text.avoids_cons_iff.mp htag).1
  · next hopen =>
      rw [hopen] at hvariable
      exact absurd ⟨rfl, rfl⟩ (Text.avoids_cons_iff.mp hvariable).1
  · rfl

theorem IsPrintedTag.isTag
    {t : Token} {name : String} (h : IsPrintedTag name.toList [] t.text.toList)
    (hname : IsName name.toList) :
    t.IsTag name "" :=
  h.isTagText hname (by simp [Trimmed])

/-- The pieces of a printed tree, as tokens on any lines, derive the tree. -/
theorem Printed.derives
    {nodes : List Node} {ps : List (List Char)} (h : Printed nodes ps) {followed : Bool}
    (printable : PrintableAll nodes followed) {m : Nat} (shallow : Node.heights nodes ≤ m)
    {ts : List Token} (hts : ts.map (·.text.toList) = ps) :
    Derives m ts nodes := by
  induction h generalizing followed m ts with
  | nil =>
      obtain rfl := List.map_eq_nil_iff.mp hts
      exact .nil
  | @text content nodes ps rest ih =>
      obtain ⟨plain, -, printable⟩ := printable
      obtain ⟨t, us, rfl, htext, hus⟩ := List.map_eq_cons_iff.mp hts
      obtain rfl := String.toList_inj.mp htext
      obtain ⟨-, shallow⟩ := Node.heights_of_cons shallow
      exact .token (.text (kind_of_isPlain plain)) (ih printable shallow hus)
  | @expression markup p nodes ps written rest ih =>
      obtain ⟨hmarkup, -, printable⟩ := printable
      obtain ⟨t, us, rfl, rfl, hus⟩ := List.map_eq_cons_iff.mp hts
      obtain ⟨-, shallow⟩ := Node.heights_of_cons shallow
      exact .token (.expression (written.isVariableText hmarkup.1)) (ih printable shallow hus)
  | @leave p nodes ps tag rest ih =>
      obtain ⟨-, -, printable⟩ := printable
      obtain ⟨t, us, rfl, rfl, hus⟩ := List.map_eq_cons_iff.mp hts
      obtain ⟨-, shallow⟩ := Node.heights_of_cons shallow
      exact .token (.leave (tag.isTag (by decide))) (ih printable shallow hus)
  | @next p nodes ps tag rest ih =>
      obtain ⟨-, -, printable⟩ := printable
      obtain ⟨t, us, rfl, rfl, hus⟩ := List.map_eq_cons_iff.mp hts
      obtain ⟨-, shallow⟩ := Node.heights_of_cons shallow
      exact .token (.next (tag.isTag (by decide))) (ih printable shallow hus)
  | @block o p q body nodes bs ps opening inner closing rest ihInner ihRest =>
      obtain ⟨hnode, -, printable⟩ := printable
      obtain ⟨ho, hbody⟩ := printable_node.mp hnode
      obtain ⟨t, us, rfl, rfl, hus⟩ := List.map_eq_cons_iff.mp hts
      obtain ⟨inside, vs, rfl, hinside, hvs⟩ := List.map_eq_append_iff.mp hus
      obtain ⟨e, ws, rfl, rfl, hws⟩ := List.map_eq_cons_iff.mp hvs
      obtain ⟨hheight, shallow⟩ := Node.heights_of_cons shallow
      rw [height_node] at hheight
      obtain ⟨n, rfl⟩ : ∃ n, m = n + 1 := ⟨m - 1, by omega⟩
      exact .block (opening.opens ho) (ihInner hbody (by omega) hinside)
        (closing.isTag o.isName_endName) (ihRest printable shallow hws)
  | @choice condition p s q first second nodes fs ss ps opening inner separator other closing rest
      ihInner ihOther ihRest =>
      obtain ⟨⟨ho, hfirst, hsecond⟩, -, printable⟩ := printable
      obtain ⟨t, us, rfl, rfl, hus⟩ := List.map_eq_cons_iff.mp hts
      obtain ⟨inside, vs, rfl, hinside, hvs⟩ := List.map_eq_append_iff.mp hus
      obtain ⟨separating, ws, rfl, rfl, hws⟩ := List.map_eq_cons_iff.mp hvs
      obtain ⟨inside', xs, rfl, hinside', hxs⟩ := List.map_eq_append_iff.mp hws
      obtain ⟨e, ys, rfl, rfl, hys⟩ := List.map_eq_cons_iff.mp hxs
      obtain ⟨hheight, shallow⟩ := Node.heights_of_cons shallow
      have hboth : max (Node.heights first) (Node.heights second) + 1 ≤ m := hheight
      obtain ⟨n, rfl⟩ : ∃ n, m = n + 1 := ⟨m - 1, by omega⟩
      exact .choice (opening.opens ho) (ihInner hfirst (by omega) hinside)
        (separator.isTag (by decide)) (ihOther hsecond (by omega) hinside')
        (closing.isTag (by decide)) (ihRest printable shallow hys)

/-- Reading a printed tree gives the tree back. -/
theorem parse_printed
    {options : Options} {nodes : List Node} {ps : List (List Char)} (printed : Printed nodes ps)
    (printable : PrintableAll nodes false) (shallow : Node.heights nodes ≤ options.maxDepth) :
    Template.parse .standard options (String.ofList ps.flatten) = .ok ⟨nodes, options⟩ := by
  obtain ⟨hseparated, -⟩ := printed.separated printable .nil (by simp [StartsMarked]) (by simp)
  rw [List.append_nil] at hseparated
  have hderives := (printed.derives printable shallow hseparated.map_filter_tokens).of_filter rfl
  have hparse : parse .standard options (.ofSource (String.ofList ps.flatten)) = .ok nodes :=
    Derives.parse_eq_ok hderives
  rw [Template.parse, hparse]

/-- A choice between texts with braces in them, printed with few blanks. -/
theorem parse_printed_choice :
    Template.parse .standard {}
        "a\x7bb\x7b%if x%\x7d\x7b\x7b y\x7d\x7d\x7b%else%\x7dc\x7d\x7b% endif %\x7dd\x7b" =
      .ok ⟨[.text "a\x7bb", .conditional "if" "x" [.expression "y"] (some [.text "c\x7d"]),
          .text "d\x7b"], {}⟩ := by
  have hif : IsPrintedTag "if".toList "x".toList "\x7b%if x%\x7d".toList :=
    ⟨[], [' '], [], by decide, by decide, by decide, by decide, rfl⟩
  have hy : IsPrintedVariable "y".toList "\x7b\x7b y\x7d\x7d".toList :=
    ⟨[' '], [], by decide, by decide, rfl⟩
  have helse : IsPrintedTag "else".toList [] "\x7b%else%\x7d".toList :=
    ⟨[], [], [], by decide, by decide, by decide, by decide, rfl⟩
  have hend : IsPrintedTag "endif".toList [] "\x7b% endif %\x7d".toList :=
    ⟨[' '], [], [' '], by decide, by decide, by decide, by decide, rfl⟩
  have printed : Printed
      [.text "a\x7bb", .conditional "if" "x" [.expression "y"] (some [.text "c\x7d"]),
        .text "d\x7b"]
      ["a\x7bb".toList, "\x7b%if x%\x7d".toList, "\x7b\x7b y\x7d\x7d".toList,
        "\x7b%else%\x7d".toList, "c\x7d".toList, "\x7b% endif %\x7d".toList, "d\x7b".toList] :=
    .text (.choice (.conditional hif) (.expression hy .nil) helse (.text .nil) hend (.text .nil))
  have printable : PrintableAll
      [.text "a\x7bb", .conditional "if" "x" [.expression "y"] (some [.text "c\x7d"]),
        .text "d\x7b"] false := by
    have hfirst : Source.IsPlain "a\x7bb".toList := by decide
    have hcondition : (Opening.conditional "x").Printable :=
      ⟨by decide, by decide, by decide⟩
    have hmarkup : Trimmed "y".toList ∧ '}' ∉ "y".toList := by decide
    have hsecond : Source.IsPlain "c\x7d".toList := by decide
    have hlast : Source.IsPlain "d\x7b".toList := by decide
    refine ⟨hfirst, ⟨by simp, fun _ => by decide⟩, ⟨hcondition, ?_, ?_⟩, trivial, hlast, ?_,
      trivial⟩
    · exact ⟨hmarkup, trivial, trivial⟩
    · exact ⟨hsecond, ⟨by simp, fun _ => by decide⟩, trivial⟩
    · exact ⟨by simp, fun h => absurd h (by simp)⟩
  have h := @parse_printed {} _ _ printed printable (by decide)
  exact h

end Liquid
