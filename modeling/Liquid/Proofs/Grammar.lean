import Liquid.Node
import Liquid.Proofs.Marker
import Liquid.Proofs.Words

/-!
# The grammar of the standard language

Which sequences of tokens are documents, and of which trees.  The grammar says nothing of a reader:
it has no stack, no registry and no rules of blocks, only tokens and the nodes that they stand for.
-/

namespace Liquid

/-- The markup of a loop: an item and a collection, and the word `in` between them. -/
def IsLoopMarkup (markup item collection : List Char) : Prop :=
  Text.IsWord item ∧ Text.IsWord collection ∧
    ∃ before after, Text.AllBlank before ∧ before ≠ [] ∧ Text.AllBlank after ∧ after ≠ [] ∧
      markup = item ++ before ++ ['i', 'n'] ++ after ++ collection

/-- How a block opens: which block it is, and what its markup says. -/
inductive Opening where
  | conditional (condition : String)
  | loop (item collection : String)
  | comment

namespace Opening

def name : Opening → String
  | conditional _ => "if"
  | loop _ _ => "for"
  | comment => "comment"

def endName : Opening → String
  | conditional _ => "endif"
  | loop _ _ => "endfor"
  | comment => "endcomment"

/-- The node of a block with these lists of nodes.  Only a conditional has a second one. -/
def node : Opening → List Node → Option (List Node) → Node
  | conditional condition, first, second => .conditional "if" condition first second
  | loop item collection, body, _ => .loop "for" item collection body
  | comment, body, _ => .comment "comment" body

theorem endName_mem (o : Opening) : o.endName ∈ ["endif", "endfor", "endcomment"] := by
  cases o <;> simp [endName]

/-- A name that closes no block. -/
theorem endName_ne
    (o : Opening) {name : String} (hname : name ∉ ["endif", "endfor", "endcomment"]) :
    o.endName ≠ name := by
  rintro rfl
  exact hname o.endName_mem

theorem isName_endName (o : Opening) : IsName o.endName.toList := by
  have hnames : ∀ name ∈ ["endif", "endfor", "endcomment"], IsName name.toList := by
    decide
  exact hnames o.endName o.endName_mem

end Opening

namespace Token

/-- A token that opens a block. -/
inductive Opens (t : Token) : Opening → Prop
  | conditional {condition : String} (tag : t.IsTag "if" condition) (given : condition ≠ "") :
    t.Opens (.conditional condition)
  | loop {markup item collection : String} (tag : t.IsTag "for" markup)
    (spelled : IsLoopMarkup markup.toList item.toList collection.toList) :
    t.Opens (.loop item collection)
  | comment {markup : String} (tag : t.IsTag "comment" markup) : t.Opens .comment

/-- A token that is complete by itself, and the nodes that it stands for. -/
inductive StandsFor (t : Token) : List Node → Prop
  | nothing (kind : t.kind = .empty) : t.StandsFor []
  | text (kind : t.kind = .text) : t.StandsFor [.text t.text]
  | expression {markup : String} (written : t.IsVariable markup) :
    t.StandsFor [.expression markup]
  | leave {markup : String} (tag : t.IsTag "break" markup) :
    t.StandsFor [.interrupt "break" .leave]
  | next {markup : String} (tag : t.IsTag "continue" markup) :
    t.StandsFor [.interrupt "continue" .next]

end Token

/-- The tokens are a sequence of items, which are these nodes, with at most so many blocks open
inside one another. -/
inductive Derives : Nat → List Token → List Node → Prop
  | nil {m : Nat} : Derives m [] []
  | token {m : Nat} {t : Token} {ts : List Token} {here nodes : List Node}
    (item : t.StandsFor here) (rest : Derives m ts nodes) : Derives m (t :: ts) (here ++ nodes)
  | block {m : Nat} {t e : Token} {o : Opening} {markup : String} {ts us : List Token}
    {body nodes : List Node} (opening : t.Opens o) (inner : Derives m ts body)
    (closing : e.IsTag o.endName markup) (rest : Derives (m + 1) us nodes) :
    Derives (m + 1) (t :: (ts ++ e :: us)) (o.node body none :: nodes)
  | choice {m : Nat} {t s e : Token} {condition separating markup : String}
    {ts us vs : List Token} {first second nodes : List Node}
    (opening : t.Opens (.conditional condition)) (inner : Derives m ts first)
    (separator : s.IsTag "else" separating) (other : Derives m us second)
    (closing : e.IsTag "endif" markup) (rest : Derives (m + 1) vs nodes) :
    Derives (m + 1) (t :: (ts ++ s :: (us ++ e :: vs)))
      ((Opening.conditional condition).node first (some second) :: nodes)

/-- What may stand in a block after its opening tag, up to any place before its closing tag: a
first list of nodes, and in a conditional a second one. -/
inductive Content (m : Nat) : Opening → List Token → List Node → Option (List Node) → Prop
  | plain {o : Opening} {ts : List Token} {first : List Node} (inner : Derives m ts first) :
    Content m o ts first none
  | split {s : Token} {condition separating : String} {ts us : List Token}
    {first second : List Node} (inner : Derives m ts first)
    (separator : s.IsTag "else" separating) (other : Derives m us second) :
    Content m (.conditional condition) (ts ++ s :: us) first (some second)

/-! ## Putting derivations together -/

theorem Derives.append
    {m : Nat} {ts us : List Token} {nodes more : List Node} (hts : Derives m ts nodes)
    (hus : Derives m us more) :
    Derives m (ts ++ us) (nodes ++ more) := by
  induction hts with
  | nil => exact hus
  | token item _ ih =>
      rw [List.cons_append, List.append_assoc]
      exact .token item (ih hus)
  | block opening inner closing _ _ ih =>
      have h := Derives.block opening inner closing (ih hus)
      simpa using h
  | choice opening inner separator other closing _ _ _ ih =>
      have h := Derives.choice opening inner separator other closing (ih hus)
      simpa using h

theorem Derives.single
    {m : Nat} {t : Token} {here : List Node} (item : t.StandsFor here) :
    Derives m [t] here := by
  have h := Derives.token (m := m) item .nil
  rwa [List.append_nil] at h

/-- A block is an item of its own. -/
theorem Derives.closed
    {m : Nat} {t e : Token} {o : Opening} {markup : String} {ts : List Token} {first : List Node}
    {second : Option (List Node)} (opening : t.Opens o) (content : Content m o ts first second)
    (closing : e.IsTag o.endName markup) :
    Derives (m + 1) (t :: (ts ++ [e])) [o.node first second] := by
  cases content with
  | plain inner => exact .block opening inner closing .nil
  | split inner separator other =>
      have h := Derives.choice opening inner separator other closing .nil
      simpa using h

/-! ## Empty tokens -/

theorem Token.kind_of_isEmpty
    {t : Token} (h : t.text.toList.isEmpty) :
    t.kind = .empty := by
  rw [Token.kind, List.isEmpty_iff.mp h]
  rfl

theorem Derives.skip
    {m : Nat} {es ts : List Token} {nodes : List Node}
    (hes : es.filter (!·.text.toList.isEmpty) = []) (h : Derives m ts nodes) :
    Derives m (es ++ ts) nodes := by
  induction es with
  | nil => exact h
  | cons e es ih =>
      have hempty := List.filter_eq_nil_iff.mp hes
      have he : e.text.toList.isEmpty := by simpa using hempty e List.mem_cons_self
      have hes' : es.filter (!·.text.toList.isEmpty) = [] :=
        List.filter_eq_nil_iff.mpr fun t ht => hempty t (List.mem_cons_of_mem e ht)
      exact .token (.nothing (Token.kind_of_isEmpty he)) (ih hes')

theorem exists_of_filter_eq_append_cons
    {p : Token → Bool} {ts us vs : List Token} {e : Token} (h : ts.filter p = us ++ e :: vs) :
    ∃ us' vs', ts = us' ++ e :: vs' ∧ us'.filter p = us ∧ vs'.filter p = vs := by
  obtain ⟨front, back, rfl, hfront, hback⟩ := List.filter_eq_append_iff.mp h
  obtain ⟨es, vs', rfl, hes, -, hvs⟩ := List.filter_eq_cons_iff.mp hback
  refine ⟨front ++ es, vs', by simp, ?_, hvs⟩
  rw [List.filter_append, List.filter_eq_nil_iff.mpr hes, List.append_nil]
  exact hfront

/-- Empty tokens may be left out. -/
theorem Derives.of_filter
    {m : Nat} {ts us : List Token} {nodes : List Node} (h : Derives m us nodes)
    (hts : ts.filter (!·.text.toList.isEmpty) = us) :
    Derives m ts nodes := by
  induction h generalizing ts with
  | nil =>
      rw [← List.append_nil ts]
      exact .skip hts .nil
  | token item _ ih =>
      obtain ⟨es, vs, rfl, hes, hvs⟩ := @exists_of_filter_eq_append_cons _ _ [] _ _ hts
      exact .skip hes (.token item (ih hvs))
  | block opening inner closing _ ihInner ihRest =>
      obtain ⟨es, vs, rfl, hes, hvs⟩ := @exists_of_filter_eq_append_cons _ _ [] _ _ hts
      obtain ⟨inside, ws, rfl, hinside, hws⟩ := exists_of_filter_eq_append_cons hvs
      exact .skip hes (.block opening (ihInner hinside) closing (ihRest hws))
  | choice opening inner separator other closing _ ihInner ihOther ihRest =>
      obtain ⟨es, vs, rfl, hes, hvs⟩ := @exists_of_filter_eq_append_cons _ _ [] _ _ hts
      obtain ⟨inside, ws, rfl, hinside, hws⟩ := exists_of_filter_eq_append_cons hvs
      obtain ⟨inside', xs, rfl, hinside', hxs⟩ := exists_of_filter_eq_append_cons hws
      exact .skip hes
        (.choice opening (ihInner hinside) separator (ihOther hinside') closing (ihRest hxs))

end Liquid
