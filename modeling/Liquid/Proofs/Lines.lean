import Liquid.Proofs.Assembly
import Liquid.Proofs.Splitting

/-!
# The lines of tokens

A token carries the line of its first character in the template, an empty token the line of the
place where it stands.  A stream tells the line of the token that was pulled last, also after it has
run out.
-/

namespace Liquid

/-! ## Tokens and the template before them -/

def Token.chars (ts : List Token) : List Char :=
  (ts.map (·.text.toList)).flatten

namespace Source

/-- The piece with some number has the line that is left after all pieces before it. -/
theorem getElem?_withLines (line : Nat) (ps : List (List Char)) (i : Nat) :
    (withLines line ps)[i]? =
      ps[i]?.map fun p => ⟨String.ofList p, line + (ps.take i).flatten.count '\n'⟩ := by
  induction ps generalizing line i with
  | nil => rfl
  | cons p ps ih =>
      rw [withLines]
      cases i with
      | zero => rfl
      | succ i =>
          rw [List.getElem?_cons_succ, List.getElem?_cons_succ, ih, List.take_succ_cons,
            List.flatten_cons, List.count_append, Nat.add_assoc]

theorem pairwise_withLines (line : Nat) (ps : List (List Char)) :
    (withLines line ps).Pairwise (·.line ≤ ·.line) := by
  induction ps generalizing line with
  | nil => exact List.Pairwise.nil
  | cons p ps ih =>
      rw [withLines, List.pairwise_cons]
      refine ⟨?_, ih _⟩
      intro t ht
      exact Nat.le_of_add_right_le (line_of_mem_withLines ht).1

theorem map_text_tokens (source : String) :
    (tokens source).map (·.text.toList) = tokenTexts source.toList :=
  map_text_withLines 1 (tokenTexts source.toList)

theorem chars_tokens (source : String) : Token.chars (tokens source) = source.toList := by
  rw [Token.chars, map_text_tokens, flatten_tokenTexts]

variable {source : String} {i : Nat} {t : Token}

/-- A token divides the template into what stands before it, itself, and what comes after it. -/
theorem toList_eq_of_getElem?_tokens
    (ht : (tokens source)[i]? = some t) :
    source.toList = Token.chars ((tokens source).take i) ++ t.text.toList ++
      Token.chars ((tokens source).drop (i + 1)) := by
  obtain ⟨hi, ht⟩ := List.getElem?_eq_some_iff.mp ht
  have hsplit : tokens source =
      (tokens source).take i ++ t :: (tokens source).drop (i + 1) := by
    rw [← ht, ← List.drop_eq_getElem_cons hi, List.take_append_drop]
  calc source.toList = Token.chars (tokens source) := (chars_tokens source).symm
    _ = Token.chars ((tokens source).take i ++ t :: (tokens source).drop (i + 1)) := by
        rw [← hsplit]
    _ = Token.chars ((tokens source).take i) ++ t.text.toList ++
          Token.chars ((tokens source).drop (i + 1)) := by
        simp [Token.chars]

theorem line_of_getElem?_tokens
    (ht : (tokens source)[i]? = some t) :
    t.line = 1 + (Token.chars ((tokens source).take i)).count '\n' := by
  have hbefore : Token.chars ((tokens source).take i) =
      ((tokenTexts source.toList).take i).flatten := by
    rw [Token.chars, List.map_take, map_text_tokens]
  rw [hbefore]
  rw [tokens, getElem?_withLines] at ht
  obtain ⟨p, -, rfl⟩ := Option.map_eq_some_iff.mp ht
  rfl

end Source

/-! ## Streams -/

namespace TokenStream

/-- The stream after so many pulls, some of which may have found nothing left. -/
def pulled (s : TokenStream) : Nat → TokenStream
  | 0 => s
  | n + 1 => (s.pulled n).next.2

/-- The line of the last of some tokens, or one if there are none. -/
def lastLine (ts : List Token) : Nat :=
  (ts.getLast?.map Token.line).getD 1

variable (s : TokenStream) (n : Nat)

theorem unread_pulled : (s.pulled n).unread = s.unread.drop n := by
  induction n with
  | zero => rfl
  | succ n ih =>
      rw [← List.drop_drop, ← ih, pulled, next]
      split
      · next hnil => simp [hnil]
      · next t rest hcons => simp [hcons]

theorem next_pulled : (s.pulled n).next.1 = s.unread[n]? := by
  rw [← List.head?_drop, ← unread_pulled, next]
  split
  · next hnil => simp [hnil]
  · next t rest hcons => simp [hcons]

/-- A pull that finds a token moves to its line. -/
theorem line_pulled_of_getElem?
    {s : TokenStream} {n : Nat} {t : Token} (ht : s.unread[n]? = some t) :
    (s.pulled (n + 1)).line = t.line := by
  rw [← List.head?_drop, ← unread_pulled] at ht
  obtain ⟨rest, hcons⟩ := List.head?_eq_some_iff.mp ht
  rw [pulled, next, hcons]

/-- A pull that finds nothing leaves the stream as it is. -/
theorem pulled_of_length_le
    {s : TokenStream} {n : Nat} (hn : s.unread.length ≤ n) :
    s.pulled n = s.pulled s.unread.length := by
  induction hn with
  | refl => rfl
  | @step n hn ih =>
      have hnil : (s.pulled n).unread = [] := by
        rw [unread_pulled, List.drop_eq_nil_of_le hn]
      rw [pulled, next, hnil, ih]

theorem line_pulled_length
    {s : TokenStream} (hs : s.line = 1) :
    (s.pulled s.unread.length).line = lastLine s.unread := by
  cases hlast : s.unread.getLast? with
  | none =>
      obtain hnil := List.getLast?_eq_none_iff.mp hlast
      rw [lastLine, hnil]
      exact hs
  | some t =>
      obtain ⟨front, hfront⟩ := List.getLast?_eq_some_iff.mp hlast
      have hlength : s.unread.length = front.length + 1 := by
        rw [hfront, List.length_append, List.length_singleton]
      have ht : s.unread[front.length]? = some t := by
        rw [hfront, List.getElem?_concat_length]
      rw [hlength, line_pulled_of_getElem? ht, lastLine, hlast]
      rfl

end TokenStream

/-- The line of every token is one more than the number of line breaks before its first character,
and lines never decrease.  A stream of the tokens is on line one before the first pull, on the line
of each token as it is pulled, and on the line of the last token however often it is pulled after
that. -/
theorem lines_are_exact (source : String) :
    (∀ i t, (Source.tokens source)[i]? = some t →
      source.toList =
          Token.chars ((Source.tokens source).take i) ++ t.text.toList ++
            Token.chars ((Source.tokens source).drop (i + 1)) ∧
        t.line = 1 + (Token.chars ((Source.tokens source).take i)).count '\n') ∧
      (Source.tokens source).Pairwise (·.line ≤ ·.line) ∧
      (TokenStream.ofSource source).line = 1 ∧
      (∀ n t, (Source.tokens source)[n]? = some t →
        ((TokenStream.ofSource source).pulled n).next.1 = some t ∧
          ((TokenStream.ofSource source).pulled (n + 1)).line = t.line) ∧
      (∀ n, (Source.tokens source).length ≤ n →
        ((TokenStream.ofSource source).pulled n).next.1 = none ∧
          ((TokenStream.ofSource source).pulled n).line =
            TokenStream.lastLine (Source.tokens source)) := by
  refine ⟨?_, Source.pairwise_withLines 1 _, rfl, ?_, ?_⟩
  · intro i t ht
    exact ⟨Source.toList_eq_of_getElem?_tokens ht, Source.line_of_getElem?_tokens ht⟩
  · intro n t ht
    exact ⟨(TokenStream.next_pulled _ n).trans ht, TokenStream.line_pulled_of_getElem? ht⟩
  · intro n hn
    constructor
    · rw [TokenStream.next_pulled]
      exact List.getElem?_eq_none hn
    · rw [TokenStream.pulled_of_length_le hn]
      exact TokenStream.line_pulled_length rfl

/-- A tag and a variable that run over the end of a line, with an empty token between them. -/
theorem lines_are_exact_across_tags :
    let source := "a\n\n\x7b% if\nx %\x7d\x7b\x7b y\n\x7d\x7d\nb"
    let ts := Source.tokens source
    let stream := TokenStream.ofSource source
    ts.map Token.line = [1, 3, 4, 4, 5] ∧
      ts[3]? = some ⟨"\x7b\x7b y\n\x7d\x7d", 4⟩ ∧
      1 + (Token.chars (ts.take 3)).count '\n' = 4 ∧ (stream.pulled 4).line = 4 ∧
      ts.length ≤ 7 ∧ (stream.pulled 7).line = 5 := by
  intro source ts stream
  have hlines : ts.map Token.line = [1, 3, 4, 4, 5] := by
    decide +kernel
  have ht : ts[3]? = some ⟨"\x7b\x7b y\n\x7d\x7d", 4⟩ := by
    decide +kernel
  have hlength : ts.length ≤ 7 := by
    decide +kernel
  obtain ⟨hexact, -, -, hpull, hend⟩ := lines_are_exact source
  have hlast : TokenStream.lastLine ts = 5 := by
    decide +kernel
  exact ⟨hlines, ht, (hexact 3 _ ht).2.symm, (hpull 3 _ ht).2, hlength,
    (hend 7 hlength).2.trans hlast⟩

end Liquid
