import Liquid.Proofs.Conditions
import Liquid.Proofs.Words

/-!
# Conditions as they are written

A condition is written as operands with blanks between them.  However it is spaced, and whatever its
quoted operands hold, the alternatives and tests from which it was written are read back from it,
and they are looked at in order and no further than the outcome needs.
-/

namespace Liquid
namespace Condition

/-! ## Operands and blanks -/

def isQuote (c : Char) : Bool :=
  c == '\'' || c == '"'

/-- An operand as it is written: a text in quotes that does not hold its own quote, or a word that
does not start with a quote. -/
inductive IsOperand : List Char → Prop
  | quoted {q : Char} {inner : List Char} (hq : isQuote q) (hinner : q ∉ inner) :
    IsOperand (q :: inner ++ [q])
  | bare {word : List Char} (hword : Text.IsWord word) (hquote : ∀ c ∈ word.head?, ¬isQuote c) :
    IsOperand word

/-- A text consists of these operands, with blanks between each two; there may be blanks around
them. -/
inductive Spaced : List (List Char) → List Char → Prop
  | blank {l : List Char} (hl : Text.AllBlank l) : Spaced [] l
  | cons {l operand cs : List Char} {rest : List (List Char)} (hl : Text.AllBlank l)
    (hoperand : IsOperand operand) (hcs : Text.EndsWord cs) (hrest : Spaced rest cs) :
    Spaced (operand :: rest) (l ++ operand ++ cs)

theorem takeOperand_quoted
    {q : Char} {inner : List Char} (hq : isQuote q) (hinner : q ∉ inner) (rest : List Char) :
    takeOperand q (inner ++ [q] ++ rest) = (q :: inner ++ [q], rest) := by
  have hother : ∀ c ∈ inner, (c != q) = true := by
    intro c hc
    have hne : c ≠ q := fun heq => hinner (heq ▸ hc)
    simpa using hne
  have htake : (inner ++ [q] ++ rest).takeWhile (· != q) = inner := by
    rw [List.append_assoc, List.takeWhile_append_of_pos hother]
    simp
  have hdrop : (inner ++ [q] ++ rest).dropWhile (· != q) = q :: rest := by
    rw [List.append_assoc, List.dropWhile_append_of_pos hother]
    simp
  have hclosed : (inner ++ [q] ++ rest).contains q = true := by simp
  have hif : ((q == '\'' || q == '"') && (inner ++ [q] ++ rest).contains q) = true := by
    rw [hclosed, Bool.and_true]
    exact hq
  rw [takeOperand, if_pos hif, htake, hdrop, List.tail_cons]

theorem takeOperand_bare
    {c : Char} {word rest : List Char} (hc : ¬isQuote c) (hword : ∀ d ∈ word, ¬Text.isBlank d)
    (hrest : Text.EndsWord rest) :
    takeOperand c (word ++ rest) = (c :: word, rest) := by
  have hpos : ∀ d ∈ word, (!Text.isBlank d) = true := by simpa using hword
  have hstop : rest.takeWhile (!Text.isBlank ·) = [] ∧ rest.dropWhile (!Text.isBlank ·) = rest := by
    cases rest with
    | nil => exact ⟨rfl, rfl⟩
    | cons d rest =>
        have hd : Text.isBlank d := hrest d rfl
        simp [hd]
  have hif : ((c == '\'' || c == '"') && (word ++ rest).contains c) = false := by
    have hfalse : (c == '\'' || c == '"') = false := by simpa [isQuote] using hc
    rw [hfalse, Bool.false_and]
  rw [takeOperand, hif, if_neg Bool.false_ne_true, List.takeWhile_append_of_pos hpos,
    List.dropWhile_append_of_pos hpos, hstop.1, hstop.2, List.append_nil]

theorem not_isBlank_of_isQuote
    {c : Char} (hc : isQuote c) :
    ¬Text.isBlank c := by
  rcases Bool.or_eq_true_iff.mp hc with hc | hc
  · rw [eq_of_beq hc]
    decide
  · rw [eq_of_beq hc]
    decide

/-- An operand is taken off as a whole where it ends at a blank or with the text. -/
theorem IsOperand.exists_takeOperand
    {operand rest : List Char} (hoperand : IsOperand operand) (hrest : Text.EndsWord rest) :
    ∃ c tail, operand = c :: tail ∧ ¬Text.isBlank c ∧
      takeOperand c (tail ++ rest) = (operand, rest) := by
  cases hoperand with
  | @quoted q inner hq hinner =>
      exact ⟨q, inner ++ [q], rfl, not_isBlank_of_isQuote hq, takeOperand_quoted hq hinner rest⟩
  | bare hword hquote =>
      cases operand with
      | nil => exact absurd rfl hword.1
      | cons c word =>
          have hblank : ∀ d ∈ word, ¬Text.isBlank d :=
            fun d hd => hword.2 d (List.mem_cons_of_mem c hd)
          exact ⟨c, word, rfl, hword.2 c List.mem_cons_self,
            takeOperand_bare (hquote c rfl) hblank hrest⟩

theorem operandsOf_allBlank
    {l : List Char} (hl : Text.AllBlank l) :
    operandsOf l = [] := by
  have hnone : l.dropWhile Text.isBlank = [] := by
    have h : (l ++ []).dropWhile Text.isBlank = [] := List.dropWhile_append_of_pos hl
    rwa [List.append_nil] at h
  rw [operandsOf]
  split
  · rfl
  · next c rest hne => exact absurd (hnone.symm.trans hne) (by simp)

theorem operandsOf_operand_append
    {l operand rest : List Char} (hl : Text.AllBlank l) (hoperand : IsOperand operand)
    (hrest : Text.EndsWord rest) :
    operandsOf (l ++ operand ++ rest) = operand :: operandsOf rest := by
  obtain ⟨c, tail, heq, hc, htake⟩ := hoperand.exists_takeOperand hrest
  have hdrop : (l ++ operand ++ rest).dropWhile Text.isBlank = c :: (tail ++ rest) := by
    rw [List.append_assoc, heq]
    exact Text.dropWhile_isBlank_append hl (by simpa using hc)
  rw [operandsOf]
  split
  · next hnil => exact absurd (hdrop.symm.trans hnil) (by simp)
  · next d others hd =>
      obtain ⟨rfl, rfl⟩ := List.cons.inj (hdrop.symm.trans hd)
      rw [htake]

/-- The operands of a text are read back from it. -/
theorem operandsOf_spaced
    {written : List (List Char)} {cs : List Char} (h : Spaced written cs) :
    operandsOf cs = written := by
  induction h with
  | blank hl => exact operandsOf_allBlank hl
  | cons hl hoperand hcs hrest ih => rw [operandsOf_operand_append hl hoperand hcs, ih]

/-! ## Alternatives and tests -/

/-- The operands of a condition with its keywords: `and` between the tests of an alternative, `or`
between the alternatives. -/
def withKeywords (tree : List (List (List String))) : List String :=
  ["or"].intercalate (tree.map (["and"].intercalate ·))

/-- A text writes out a condition: there are alternatives and each of them has tests; the operands
of the tests are operands and no keywords; and the text consists of them and the keywords. -/
structure Writes (s : String) (tree : List (List (List String))) : Prop where
  ne_nil : tree ≠ []
  alternative_ne_nil : ∀ alternative ∈ tree, alternative ≠ []
  not_keyword : ∀ alternative ∈ tree, ∀ test ∈ alternative, "and" ∉ test ∧ "or" ∉ test
  spaced : Spaced ((withKeywords tree).map String.toList) s.toList

theorem eq_or_mem_of_mem_intercalate
    {α : Type} {sep a : α} {parts : List (List α)} (h : a ∈ [sep].intercalate parts) :
    a = sep ∨ ∃ part ∈ parts, a ∈ part := by
  induction parts with
  | nil => exact absurd h List.not_mem_nil
  | cons part rest ih =>
      cases rest with
      | nil =>
          rw [List.intercalate_singleton] at h
          exact .inr ⟨part, List.mem_cons_self, h⟩
      | cons next rest =>
          rw [List.intercalate_cons_cons, List.append_assoc] at h
          rcases List.mem_append.mp h with hpart | h
          · exact .inr ⟨part, List.mem_cons_self, hpart⟩
          · rcases List.mem_cons.mp h with hsep | h
            · exact .inl hsep
            · rcases ih h with hsep | ⟨other, hother, ha⟩
              · exact .inl hsep
              · exact .inr ⟨other, List.mem_cons_of_mem part hother, ha⟩

/-- The alternatives and tests of a condition are read back from its text. -/
theorem Writes.alternatives_eq
    {s : String} {tree : List (List (List String))} (h : Writes s tree) :
    alternatives s = tree := by
  have hoperands : operands s = withKeywords tree := by
    rw [operands, operandsOf_spaced h.spaced, List.map_map]
    simp [Function.comp_def]
  have hor : ∀ part ∈ tree.map (["and"].intercalate ·), "or" ∉ part := by
    intro part hpart hmem
    obtain ⟨alternative, halternative, rfl⟩ := List.mem_map.mp hpart
    rcases eq_or_mem_of_mem_intercalate hmem with heq | ⟨test, htest, hmem⟩
    · exact absurd heq (by decide)
    · exact (h.not_keyword alternative halternative test htest).2 hmem
  have hne : tree.map (["and"].intercalate ·) ≠ [] := by simpa using h.ne_nil
  have hand : ∀ alternative ∈ tree,
      (["and"].intercalate alternative).splitOn "and" = alternative := by
    intro alternative halternative
    exact List.splitOn_intercalate "and"
      (fun test htest => (h.not_keyword alternative halternative test htest).1)
      (h.alternative_ne_nil alternative halternative)
  calc alternatives s
      = (tree.map (["and"].intercalate ·)).map (·.splitOn "and") := by
        rw [alternatives, hoperands, withKeywords, List.splitOn_intercalate "or" hor hne]
    _ = tree.map fun alternative => (["and"].intercalate alternative).splitOn "and" := List.map_map
    _ = tree.map id := List.map_congr_left hand
    _ = tree := List.map_id tree

/-! ## What is looked at -/

/-- An item of a list is reached if all items before it pass. -/
def Reaches {α : Type} (passes : α → Prop) (items : List α) (item : α) : Prop :=
  ∃ front back, items = front ++ item :: back ∧ ∀ other ∈ front, passes other

theorem reaches_cons_iff
    {α : Type} {passes : α → Prop} {first item : α} {rest : List α} :
    Reaches passes (first :: rest) item ↔
      item = first ∨ (passes first ∧ Reaches passes rest item) := by
  constructor
  · rintro ⟨front, back, heq, hfront⟩
    cases front with
    | nil =>
        obtain ⟨rfl, -⟩ := List.cons.inj heq
        exact .inl rfl
    | cons other front =>
        obtain ⟨rfl, rfl⟩ := List.cons.inj heq
        exact .inr ⟨hfront first List.mem_cons_self, front, back, rfl,
          fun d hd => hfront d (List.mem_cons_of_mem first hd)⟩
  · rintro (rfl | ⟨hfirst, front, back, rfl, hfront⟩)
    · exact ⟨[], rest, rfl, by simp⟩
    · exact ⟨first :: front, back, rfl, List.forall_mem_cons.mpr ⟨hfirst, hfront⟩⟩

theorem exists_reaches_cons_iff
    {α : Type} {passes p : α → Prop} {first : α} {rest : List α} :
    (∃ item, Reaches passes (first :: rest) item ∧ p item) ↔
      p first ∨ (passes first ∧ ∃ item, Reaches passes rest item ∧ p item) := by
  simp only [reaches_cons_iff]
  constructor
  · rintro ⟨item, rfl | ⟨hfirst, hitem⟩, hp⟩
    · exact .inl hp
    · exact .inr ⟨hfirst, item, hitem, hp⟩
  · rintro (hp | ⟨hfirst, item, hitem, hp⟩)
    · exact ⟨first, .inl rfl, hp⟩
    · exact ⟨item, .inr ⟨hfirst, hitem⟩, hp⟩

theorem not_exists_reaches_nil
    {α : Type} {passes p : α → Prop} :
    ¬∃ item, Reaches passes [] item ∧ p item := by
  rintro ⟨item, ⟨front, back, heq, -⟩, -⟩
  exact absurd heq (by simp)

section

variable (ctx : Context)

def IsMet (test : List String) : Prop :=
  evalTest ctx test = .ok true

/-- An alternative is left at its first test that does not hold: this one is false. -/
def IsLeft (alternative : List (List String)) : Prop :=
  ∃ test, Reaches (IsMet ctx) alternative test ∧ evalTest ctx test = .ok false

/-- A test is looked at: all alternatives before its own are left, and all tests before it in its
own hold. -/
def Reached (tree : List (List (List String))) (test : List String) : Prop :=
  ∃ alternative, Reaches (IsLeft ctx) tree alternative ∧ Reaches (IsMet ctx) alternative test

variable {ctx}

theorem evalAll_eq_true_iff
    {tests : List (List String)} :
    evalAll ctx tests = .ok true ↔ ∀ test ∈ tests, IsMet ctx test := by
  induction tests with
  | nil => simp [evalAll]
  | cons test rest ih =>
      rw [List.forall_mem_cons, ← ih, evalAll, IsMet]
      cases evalTest ctx test with
      | error e => simp [bind, Except.bind]
      | ok b => cases b <;> simp [bind, Except.bind]

/-- What an alternative comes to, other than truth, it comes to by the first test that does not
hold. -/
theorem evalAll_eq_iff
    {tests : List (List String)} {r : Except Error Bool} (hr : r ≠ .ok true) :
    evalAll ctx tests = r ↔ ∃ test, Reaches (IsMet ctx) tests test ∧ evalTest ctx test = r := by
  induction tests with
  | nil =>
      rw [evalAll, iff_false_right not_exists_reaches_nil]
      exact hr.symm
  | cons test rest ih =>
      rw [exists_reaches_cons_iff, ← ih, evalAll, IsMet]
      cases evalTest ctx test with
      | error e => simp [bind, Except.bind]
      | ok b => cases b <;> simp [bind, Except.bind, hr.symm]

theorem isLeft_iff
    {alternative : List (List String)} :
    IsLeft ctx alternative ↔ evalAll ctx alternative = .ok false :=
  (evalAll_eq_iff (by simp)).symm

theorem evalAny_eq_false_iff
    {tree : List (List (List String))} :
    evalAny ctx tree = .ok false ↔ ∀ alternative ∈ tree, IsLeft ctx alternative := by
  induction tree with
  | nil => simp [evalAny]
  | cons alternative rest ih =>
      rw [List.forall_mem_cons, ← ih, evalAny, isLeft_iff]
      cases evalAll ctx alternative with
      | error e => simp [bind, Except.bind]
      | ok b => cases b <;> simp [bind, Except.bind]

/-- What a condition comes to, other than falsehood, it comes to by the first alternative that is
not left. -/
theorem evalAny_eq_iff
    {tree : List (List (List String))} {r : Except Error Bool} (hr : r ≠ .ok false) :
    evalAny ctx tree = r ↔
      ∃ alternative, Reaches (IsLeft ctx) tree alternative ∧ evalAll ctx alternative = r := by
  induction tree with
  | nil =>
      rw [evalAny, iff_false_right not_exists_reaches_nil]
      exact hr.symm
  | cons alternative rest ih =>
      rw [exists_reaches_cons_iff, ← ih, evalAny, isLeft_iff]
      cases evalAll ctx alternative with
      | error e => simp [bind, Except.bind]
      | ok b => cases b <;> simp [bind, Except.bind, hr.symm]

theorem evalTest_of_length
    {test : List String} (hone : test.length ≠ 1) (hthree : test.length ≠ 3) :
    evalTest ctx test = .error (.argument (.invalidCondition test)) := by
  unfold evalTest
  split
  · exact absurd rfl hone
  · exact absurd rfl hthree
  · rfl

/-- An error of a condition is that of a test that is looked at. -/
theorem evalAny_eq_error_iff
    {tree : List (List (List String))} {e : Error} :
    evalAny ctx tree = .error e ↔
      ∃ test, Reached ctx tree test ∧ evalTest ctx test = .error e := by
  rw [evalAny_eq_iff (by simp)]
  constructor
  · rintro ⟨alternative, halternative, he⟩
    obtain ⟨test, htest, he⟩ := (evalAll_eq_iff (by simp)).mp he
    exact ⟨test, ⟨alternative, halternative, htest⟩, he⟩
  · rintro ⟨test, ⟨alternative, halternative, htest⟩, he⟩
    exact ⟨alternative, halternative, (evalAll_eq_iff (by simp)).mpr ⟨test, htest, he⟩⟩

end

/-- A condition that is written out holds by an alternative all of whose tests hold, behind
alternatives that are left at a false test; it does not hold if all are left; and it fails as the
test that is looked at and fails, which one does that is neither an operand nor two around an
operator. -/
theorem eval_of_writes
    {s : String} {tree : List (List (List String))} (hs : Writes s tree) (ctx : Context) :
    (eval ctx s = .ok true ↔
      ∃ alternative, Reaches (IsLeft ctx) tree alternative ∧ ∀ test ∈ alternative, IsMet ctx test) ∧
    (eval ctx s = .ok false ↔ ∀ alternative ∈ tree, IsLeft ctx alternative) ∧
    (∀ e, eval ctx s = .error e ↔ ∃ test, Reached ctx tree test ∧ evalTest ctx test = .error e) ∧
    ∀ test, Reached ctx tree test → test.length ≠ 1 → test.length ≠ 3 →
      eval ctx s = .error (.argument (.invalidCondition test)) := by
  rw [eval, hs.alternatives_eq]
  refine ⟨?_, evalAny_eq_false_iff, fun e => evalAny_eq_error_iff, ?_⟩
  · simp only [← evalAll_eq_true_iff]
    exact evalAny_eq_iff (by simp)
  · intro test htest hone hthree
    exact evalAny_eq_error_iff.mpr ⟨test, htest, evalTest_of_length hone hthree⟩

/-- Keywords in quotes are operands like others, and what is not looked at may be malformed. -/
theorem eval_of_writes_quoted_keywords :
    let s := "b and lost word or 'a or b'  contains \"or\" or a < b"
    let tree :=
      [[["b"], ["lost", "word"]], [["'a or b'", "contains", "\"or\""]], [["a", "<", "b"]]]
    let ctx (b : Bool) : Context := .new (.map [("a", .bool true), ("b", .bool b)]) {}
    Writes s tree ∧ eval (ctx false) s = .ok true ∧
      eval (ctx true) s = .error (.argument (.invalidCondition ["lost", "word"])) := by
  intro s tree ctx
  have bare {l w cs : List Char} {rest : List (List Char)}
      (h : Text.AllBlank l ∧ Text.IsWord w ∧ w.head?.all (!isQuote ·) ∧ cs.head?.all Text.isBlank)
      (hrest : Spaced rest cs) : Spaced (w :: rest) (l ++ w ++ cs) := by
    obtain ⟨hl, hw, hquote, hcs⟩ := h
    refine .cons hl (.bare hw fun c hc => ?_) (fun c hc => ?_) hrest
    · simpa [Option.mem_def.mp hc] using hquote
    · simpa [Option.mem_def.mp hc] using hcs
  have quoted {l i cs : List Char} {q : Char} {rest : List (List Char)}
      (h : Text.AllBlank l ∧ isQuote q ∧ q ∉ i ∧ cs.head?.all Text.isBlank)
      (hrest : Spaced rest cs) : Spaced ((q :: i ++ [q]) :: rest) (l ++ (q :: i ++ [q]) ++ cs) := by
    obtain ⟨hl, hq, hi, hcs⟩ := h
    refine .cons hl (.quoted hq hi) (fun c hc => ?_) hrest
    simpa [Option.mem_def.mp hc] using hcs
  have hspaced :=
    bare (l := []) (w := "b".toList) (by decide) <|
    bare (l := [' ']) (w := "and".toList) (by decide) <|
    bare (l := [' ']) (w := "lost".toList) (by decide) <|
    bare (l := [' ']) (w := "word".toList) (by decide) <|
    bare (l := [' ']) (w := "or".toList) (by decide) <|
    quoted (l := [' ']) (i := "a or b".toList) (q := '\'') (by decide) <|
    bare (l := [' ', ' ']) (w := "contains".toList) (by decide) <|
    quoted (l := [' ']) (i := "or".toList) (q := '"') (by decide) <|
    bare (l := [' ']) (w := "or".toList) (by decide) <|
    bare (l := [' ']) (w := "a".toList) (by decide) <|
    bare (l := [' ']) (w := "<".toList) (by decide) <|
    bare (l := [' ']) (w := "b".toList) (by decide) <|
    .blank (l := []) (by decide)
  have hs : Writes s tree := by
    refine ⟨by decide, by decide, by decide, ?_⟩
    exact (congr (congrArg Spaced (by decide)) (by decide)).mpr hspaced
  obtain ⟨htrue, -, -, -⟩ := eval_of_writes hs (ctx false)
  obtain ⟨-, -, -, hinvalid⟩ := eval_of_writes hs (ctx true)
  have hfalse : evalTest (ctx false) ["b"] = .ok false := by rfl
  have hb : IsMet (ctx true) ["b"] := by rfl
  have hcontains : IsMet (ctx false) ["'a or b'", "contains", "\"or\""] := by rfl
  have hleft : IsLeft (ctx false) [["b"], ["lost", "word"]] :=
    ⟨["b"], ⟨[], [["lost", "word"]], rfl, by simp⟩, hfalse⟩
  have hreached : Reached (ctx true) tree ["lost", "word"] :=
    ⟨_, ⟨[], _, rfl, by simp⟩, [["b"]], [], rfl, by simpa using hb⟩
  refine ⟨hs, htrue.mpr ⟨_, ⟨[_], [_], rfl, ?_⟩, ?_⟩, hinvalid _ hreached (by decide) (by decide)⟩
  · simpa using hleft
  · simpa using hcontains

end Condition
end Liquid
