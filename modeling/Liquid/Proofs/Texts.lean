import Liquid.Proofs.Grammar
import Liquid.Proofs.Merging

/-!
# Texts in the grammar

A text between two markers stands for itself and has no part in what is around it.  It can be taken
off at either end of a document, and it does not matter on which lines the tokens stand.
-/

namespace Liquid

namespace Token

def below (d : Nat) (t : Token) : Token :=
  { t with line := t.line + d }

/-- Whether a token is a tag or a variable, well formed or not. -/
def isMarker (t : Token) : Bool :=
  t.kind == .tag || t.kind == .variable

variable {t : Token} {here : List Node}

theorem StandsFor.below
    (h : t.StandsFor here) (d : Nat) :
    (t.below d).StandsFor here := by
  cases h with
  | nothing kind => exact .nothing kind
  | text kind => exact .text kind
  | expression written => exact .expression written
  | leave tag => exact .leave tag
  | next tag => exact .next tag

theorem Opens.below
    {o : Opening} (h : t.Opens o) (d : Nat) :
    (t.below d).Opens o := by
  cases h with
  | conditional tag given => exact .conditional tag given
  | loop tag spelled => exact .loop tag spelled
  | comment tag => exact .comment tag

theorem text_eq_of_kind
    (h : t.kind = .empty) :
    t.text = "" := by
  unfold kind TokenKind.ofChars at h
  split at h
  · next hnil => exact String.toList_eq_nil_iff.mp hnil
  · exact absurd h (by simp)
  · exact absurd h (by simp)
  · exact absurd h (by simp)

/-- The nodes of a token that is copied: none if it is empty. -/
def copied (t : Token) : List Node :=
  if t.text = "" then [] else [.text t.text]

theorem standsFor_copied
    (plain : ¬t.isMarker) :
    t.StandsFor t.copied := by
  by_cases hempty : t.text = ""
  · rw [copied, if_pos hempty]
    exact .nothing (by simp [kind, hempty, TokenKind.ofChars])
  · rw [copied, if_neg hempty]
    rcases kind : t.kind with _ | _ | _ | _
    · exact absurd (by simp [isMarker, kind]) plain
    · exact absurd (by simp [isMarker, kind]) plain
    · exact absurd (text_eq_of_kind kind) hempty
    · exact .text kind

theorem IsTag.isMarker
    {name markup : String} (h : t.IsTag name markup) :
    t.isMarker := by
  simp [Token.isMarker, h.kind]

theorem Opens.exists_isTag
    {o : Opening} (h : t.Opens o) :
    ∃ name markup, t.IsTag name markup := by
  cases h with
  | conditional tag given => exact ⟨_, _, tag⟩
  | loop tag spelled => exact ⟨_, _, tag⟩
  | comment tag => exact ⟨_, _, tag⟩

theorem Opens.isMarker
    {o : Opening} (h : t.Opens o) :
    t.isMarker := by
  obtain ⟨name, markup, tag⟩ := h.exists_isTag
  exact tag.isMarker

theorem StandsFor.eq_copied
    (h : t.StandsFor here) (plain : ¬t.isMarker) :
    here = t.copied := by
  cases h with
  | nothing kind => rw [copied, if_pos (text_eq_of_kind kind)]
  | text kind =>
      have hne : t.text ≠ "" := by
        intro hempty
        simp [Token.kind, hempty, TokenKind.ofChars] at kind
      rw [copied, if_neg hne]
  | expression written => exact absurd (by simp [isMarker, written.kind]) plain
  | leave tag => exact absurd tag.isMarker plain
  | next tag => exact absurd tag.isMarker plain

theorem StandsFor.exists_eq_singleton
    (h : t.StandsFor here) (marker : t.isMarker) :
    ∃ n, here = [n] ∧ ¬n.isText := by
  cases h with
  | nothing kind => simp [isMarker, kind] at marker
  | text kind => simp [isMarker, kind] at marker
  | expression written => exact ⟨_, rfl, Bool.false_ne_true⟩
  | leave tag => exact ⟨_, rfl, Bool.false_ne_true⟩
  | next tag => exact ⟨_, rfl, Bool.false_ne_true⟩

theorem text_ne_of_isMarker
    (h : t.isMarker) :
    t.text ≠ "" := by
  intro hempty
  simp [isMarker, kind, hempty, TokenKind.ofChars] at h

end Token

/-- What is derived does not depend on the lines of the tokens. -/
theorem Derives.map_below
    {m : Nat} {ts : List Token} {nodes : List Node} (h : Derives m ts nodes) (d : Nat) :
    Derives m (ts.map (Token.below d)) nodes := by
  induction h with
  | nil => exact .nil
  | token item _ ih => exact .token (item.below d) ih
  | block opening _ closing _ ihInner ihRest =>
      rw [List.map_cons, List.map_append, List.map_cons]
      exact .block (opening.below d) ihInner closing ihRest
  | choice opening _ separator _ closing _ ihInner ihOther ihRest =>
      simp only [List.map_cons, List.map_append]
      exact .choice (opening.below d) ihInner separator ihOther closing ihRest

/-- A text at the front stands by itself. -/
theorem Derives.tail_of_plain
    {m : Nat} {t : Token} {ts : List Token} {nodes : List Node} (h : Derives m (t :: ts) nodes)
    (plain : ¬t.isMarker) :
    ∃ rest, nodes = t.copied ++ rest ∧ Derives m ts rest := by
  cases h with
  | token item rest =>
      rw [item.eq_copied plain]
      exact ⟨_, rfl, rest⟩
  | block opening inner closing rest => exact absurd opening.isMarker plain
  | choice opening inner separator other closing rest => exact absurd opening.isMarker plain

theorem eq_or_exists_of_append_cons_eq_concat
    {α : Type} {front back us : List α} {e t : α} (h : front ++ e :: back = us ++ [t]) :
    e = t ∨ ∃ back', back = back' ++ [t] ∧ us = front ++ e :: back' := by
  rcases List.eq_nil_or_concat back with rfl | ⟨back', last, rfl⟩
  · have hlast := (List.append_inj' h rfl).2
    exact .inl (List.cons.inj hlast).1
  · have hsplit : (front ++ e :: back') ++ [last] = us ++ [t] := by simpa using h
    obtain ⟨hfront, hlast⟩ := List.append_inj' hsplit rfl
    obtain rfl := List.singleton_inj.mp hlast
    exact .inr ⟨back', List.concat_eq_append, hfront.symm⟩

/-- A text at the end stands by itself. -/
theorem Derives.dropLast_of_plain
    {m : Nat} {t : Token} {ts us : List Token} {nodes : List Node} (h : Derives m ts nodes)
    (hts : ts = us ++ [t]) (plain : ¬t.isMarker) :
    ∃ front, nodes = front ++ t.copied ∧ Derives m us front := by
  induction h generalizing us with
  | nil => exact absurd hts (by simp)
  | token item rest ih =>
      cases us with
      | nil =>
          obtain ⟨rfl, rfl⟩ := List.cons.inj hts
          cases rest
          rw [item.eq_copied plain]
          exact ⟨[], List.append_nil _, .nil⟩
      | cons u us =>
          obtain ⟨rfl, htail⟩ := List.cons.inj hts
          obtain ⟨front, rfl, hfront⟩ := ih htail
          exact ⟨_, (List.append_assoc _ _ _).symm, .token item hfront⟩
  | @block m u e o markup ts vs body nodes opening inner closing _ _ ih =>
      have hconcat : (u :: ts) ++ e :: vs = us ++ [t] := hts
      rcases eq_or_exists_of_append_cons_eq_concat hconcat with rfl | ⟨vs', hvs, rfl⟩
      · exact absurd closing.isMarker plain
      · obtain ⟨front, rfl, hfront⟩ := ih hvs
        exact ⟨_, rfl, .block opening inner closing hfront⟩
  | @choice m u s e condition separating markup ts vs ws first second nodes opening inner
      separator other closing _ _ _ ih =>
      have hconcat : (u :: (ts ++ s :: vs)) ++ e :: ws = us ++ [t] := by simpa using hts
      rcases eq_or_exists_of_append_cons_eq_concat hconcat with rfl | ⟨ws', hws, rfl⟩
      · exact absurd closing.isMarker plain
      · obtain ⟨front, rfl, hfront⟩ := ih hws
        have hall := Derives.choice opening inner separator other closing hfront
        refine ⟨(Opening.conditional condition).node first (some second) :: front, rfl, ?_⟩
        simpa using hall

/-- What is derived is derived without the empty tokens. -/
theorem Derives.filter
    {m : Nat} {ts : List Token} {nodes : List Node} (h : Derives m ts nodes) {keep : Token → Bool}
    (hkeep : ∀ t, keep t ↔ t.text ≠ "") :
    Derives m (ts.filter keep) nodes := by
  have hkept {t : Token} (marker : t.isMarker) : keep t = true :=
    (hkeep t).mpr (Token.text_ne_of_isMarker marker)
  induction h with
  | nil => exact .nil
  | @token m t ts here nodes item _ ih =>
      by_cases hempty : t.text = ""
      · have plain : ¬t.isMarker := fun marker => Token.text_ne_of_isMarker marker hempty
        have hdropped : ¬keep t := fun hkept => (hkeep t).mp hkept hempty
        rw [List.filter_cons_of_neg hdropped, item.eq_copied plain, Token.copied, if_pos hempty]
        exact ih
      · rw [List.filter_cons_of_pos ((hkeep t).mpr hempty)]
        exact .token item ih
  | block opening _ closing _ ihInner ihRest =>
      rw [List.filter_cons_of_pos (hkept opening.isMarker), List.filter_append,
        List.filter_cons_of_pos (hkept closing.isMarker)]
      exact .block opening ihInner closing ihRest
  | choice opening _ separator _ closing _ ihInner ihOther ihRest =>
      rw [List.filter_cons_of_pos (hkept opening.isMarker), List.filter_append,
        List.filter_cons_of_pos (hkept separator.isMarker), List.filter_append,
        List.filter_cons_of_pos (hkept closing.isMarker)]
      exact .choice opening ihInner separator ihOther closing ihRest

/-- Where texts are kept apart by markers, so are their nodes by other nodes. -/
theorem Derives.apart
    {m : Nat} {ts : List Token} {nodes : List Node} (h : Derives m ts nodes)
    (chain : ts.IsChain fun t u => t.isMarker ∨ u.isMarker) :
    Node.Apart nodes ∧ ((∀ t ∈ ts.head?, t.isMarker) → ∀ n ∈ nodes.head?, ¬n.isText) := by
  have hcons {n : Node} {nodes : List Node} (hn : ¬n.isText) (hnodes : Node.Apart nodes) :
      Node.Apart (n :: nodes) ∧ ∀ n' ∈ (n :: nodes).head?, ¬n'.isText := by
    constructor
    · exact List.isChain_cons.mpr ⟨fun next _ htexts => hn htexts.1, hnodes⟩
    · intro n' hn'
      obtain rfl := Option.some.inj hn'
      exact hn
  induction h with
  | nil => exact ⟨.nil, fun _ => by simp⟩
  | @token m t ts here nodes item _ ih =>
      obtain ⟨hnext, hrest⟩ := List.isChain_cons.mp chain
      obtain ⟨hnodes, hhead⟩ := ih hrest
      by_cases marker : t.isMarker
      · obtain ⟨n, rfl, hn⟩ := item.exists_eq_singleton marker
        exact ⟨(hcons hn hnodes).1, fun _ => (hcons hn hnodes).2⟩
      · have hfree := hhead fun u hu => (hnext u hu).resolve_left marker
        refine ⟨?_, fun hmarked => absurd (hmarked t rfl) marker⟩
        rw [item.eq_copied marker, Token.copied]
        split
        · exact hnodes
        · exact List.isChain_cons.mpr ⟨fun next hmem htexts => hfree next hmem htexts.2, hnodes⟩
  | @block m t e o markup ts us body nodes _ _ _ _ _ ih =>
      have hrest : us.IsChain fun t u => t.isMarker ∨ u.isMarker :=
        chain.suffix ⟨t :: (ts ++ [e]), by simp⟩
      have hnode : ¬(o.node body none).isText := by
        cases o <;> exact Bool.false_ne_true
      have hall := hcons hnode (ih hrest).1
      exact ⟨hall.1, fun _ => hall.2⟩
  | @choice m t s e condition separating markup ts us vs first second nodes _ _ _ _ _ _ _ _ ih =>
      have hrest : vs.IsChain fun t u => t.isMarker ∨ u.isMarker :=
        chain.suffix ⟨t :: (ts ++ s :: (us ++ [e])), by simp⟩
      have hnode : ¬((Opening.conditional condition).node first (some second)).isText :=
        Bool.false_ne_true
      have hall := hcons hnode (ih hrest).1
      exact ⟨hall.1, fun _ => hall.2⟩

end Liquid
