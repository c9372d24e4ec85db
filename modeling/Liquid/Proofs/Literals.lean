import Mathlib.Data.List.Infix
import Liquid.Proofs.DecimalTexts
import Liquid.Proofs.Disjunctions
import Liquid.Proofs.OneTag

/-!
# Literals

A text in quotes and an integer denote themselves, whatever the data hold under keys that are
spelled like them.  They pass unchanged through all that stands between a template and its output:
the markers, the operands of a condition, the test of two values.
-/

namespace Liquid

open Text (Trimmed Avoids IsWord)

/-! ## Tests of two operands -/

def testText (left op right : String) : String :=
  left ++ " " ++ op ++ " " ++ right

def operatorTexts : List String :=
  ["==", "!=", "<>", "<", ">", "<=", ">=", "contains"]

theorem Text.Avoids.append_space
    {a b : Char} {l r : List Char} (hl : Avoids a b l) (hr : Avoids a b r) (ha : a ≠ ' ')
    (hb : b ≠ ' ') :
    Avoids a b (l ++ [' '] ++ r) := by
  have hspace : Avoids a b [' '] := avoids_of_not_mem_left (by simpa using ha)
  have hfront : Avoids a b (l ++ [' ']) := hl.append hspace (by simp [hb.symm])
  exact hfront.append hr (by simp [ha.symm])

namespace Condition

theorem IsOperand.ne_nil
    {operand : List Char} (h : IsOperand operand) :
    operand ≠ [] := by
  cases h with
  | quoted hq hinner => exact List.cons_ne_nil _ _
  | bare hword hquote => exact hword.1

theorem IsOperand.trimmed
    {operand : List Char} (h : IsOperand operand) :
    Trimmed operand := by
  have hend : Text.EndsWord [] := by simp [Text.EndsWord]
  obtain ⟨c, tail, -, hc, htake⟩ := h.exists_takeOperand hend
  have htrimmed := trimmed_takeOperand hc (tail ++ [])
  rwa [htake] at htrimmed

theorem isOperand_of_mem_operatorTexts
    {op : String} (hop : op ∈ operatorTexts) :
    IsOperand op.toList ∧ op ≠ "and" ∧ op ≠ "or" ∧ Avoids '%' '}' op.toList := by
  have hall : ∀ op ∈ operatorTexts, IsWord op.toList ∧ op.toList.head?.all (!isQuote ·) ∧
      op ≠ "and" ∧ op ≠ "or" ∧ Avoids '%' '}' op.toList := by
    decide
  obtain ⟨hword, hquote, hrest⟩ := hall op hop
  refine ⟨.bare hword ?_, hrest⟩
  intro c hc
  simpa [Option.mem_def.mp hc] using hquote

end Condition

/-- A literal that can stand in a condition: it is one operand, and denotes a value by itself. -/
structure IsLiteral (expr : String) (v : Value) : Prop where
  operand : Condition.IsOperand expr.toList
  denotes : Value.ofLiteral? expr = some v
  avoids : Avoids '%' '}' expr.toList

theorem Context.evaluate_of_ofLiteral?
    {expr : String} {v : Value} (trimmed : Trimmed expr.toList)
    (hv : Value.ofLiteral? expr = some v) (ctx : Context) :
    ctx.evaluate expr = .ok v := by
  simp only [evaluate, Text.trim_of_trimmed trimmed, hv]

section

variable {left op right : String} {v w : Value}

theorem IsLiteral.evaluate
    (h : IsLiteral left v) (ctx : Context) :
    ctx.evaluate left = .ok v :=
  Context.evaluate_of_ofLiteral? h.operand.trimmed h.denotes ctx

/-- The keywords are no literals. -/
theorem IsLiteral.ne_keyword
    (h : IsLiteral left v) :
    left ≠ "and" ∧ left ≠ "or" := by
  have hne {name : String} (hname : Value.ofLiteral? name = none) : left ≠ name := by
    rintro rfl
    exact absurd (h.denotes.symm.trans hname) (by simp)
  exact ⟨hne (by decide), hne (by decide)⟩

/-- A test of two literals is read as one. -/
theorem writes_testText
    (hleft : IsLiteral left v) (hop : op ∈ operatorTexts) (hright : IsLiteral right w) :
    Condition.Writes (testText left op right) [[[left, op, right]]] := by
  obtain ⟨hopOperand, hopAnd, hopOr, -⟩ := Condition.isOperand_of_mem_operatorTexts hop
  obtain ⟨hleftAnd, hleftOr⟩ := hleft.ne_keyword
  obtain ⟨hrightAnd, hrightOr⟩ := hright.ne_keyword
  have hspaced : Condition.Spaced [left.toList, op.toList, right.toList]
      ([] ++ left.toList ++ ([' '] ++ op.toList ++ ([' '] ++ right.toList ++ []))) :=
    .cons (by decide) hleft.operand (by rintro _ ⟨⟩; decide) <|
    .cons (by decide) hopOperand (by rintro _ ⟨⟩; decide) <|
    .cons (by decide) hright.operand (by rintro _ ⟨⟩) <|
    .blank (by decide)
  refine ⟨by simp, by simp, ?_, ?_⟩
  · simp [hopAnd.symm, hopOr.symm, hleftAnd.symm, hleftOr.symm, hrightAnd.symm, hrightOr.symm]
  · simpa [Condition.withKeywords, testText] using hspaced

theorem eval_testText
    (hleft : IsLiteral left v) (hop : op ∈ operatorTexts) (hright : IsLiteral right w)
    (ctx : Context) :
    Condition.eval ctx (testText left op right) = compareBy op v w := by
  have htest : Condition.evalTest ctx [left, op, right] = compareBy op v w := by
    rw [Condition.evalTest, hleft.evaluate, hright.evaluate]
    rfl
  rw [Condition.eval, (writes_testText hleft hop hright).alternatives_eq]
  simp only [Condition.evalAny, Condition.evalAll, htest]
  cases compareBy op v w with
  | error e => rfl
  | ok holds => cases holds <;> rfl

theorem printable_testText
    (hleft : IsLiteral left v) (hop : op ∈ operatorTexts) (hright : IsLiteral right w) :
    (Opening.conditional (testText left op right)).Printable := by
  obtain ⟨-, -, -, hopAvoids⟩ := Condition.isOperand_of_mem_operatorTexts hop
  have htext : (testText left op right).toList =
      left.toList ++ [' '] ++ op.toList ++ [' '] ++ right.toList := by
    simp [testText]
  refine ⟨?_, ?_, ?_⟩
  · intro hnil
    rw [hnil] at htext
    simp at htext
  · rw [htext]
    constructor
    · intro c hc
      rw [List.append_assoc, List.append_assoc, List.append_assoc,
        List.head?_append_of_ne_nil _ hleft.operand.ne_nil] at hc
      exact hleft.operand.trimmed.1 c hc
    · intro c hc
      rw [List.getLast?_append_of_ne_nil _ hright.operand.ne_nil] at hc
      exact hright.operand.trimmed.2 c hc
  · rw [htext]
    have hfront := hleft.avoids.append_space hopAvoids (by decide) (by decide)
    exact hfront.append_space hright.avoids (by decide) (by decide)

/-- A choice by a test of two literals shows how the values that they denote compare. -/
theorem shows_test
    {options : Options} (hdepth : 1 ≤ options.maxDepth) {root : Value}
    (hleft : IsLiteral left v) (hop : op ∈ operatorTexts) (hright : IsLiteral right w)
    {p : Prop} [Decidable p] (hp : compareBy op v w = .ok (decide p)) :
    Shows options root (choiceSource (testText left op right)) (if p then "T" else "F") := by
  have hholds : Condition.eval (.new root options) (testText left op right) = .ok (decide p) :=
    (eval_testText hleft hop hright _).trans hp
  simpa using shows_choiceSource hdepth (printable_testText hleft hop hright) hholds

end

/-! ## Texts in quotes -/

def quotedText (s : String) : String :=
  "'" ++ s ++ "'"

theorem toList_quotedText (s : String) :
    (quotedText s).toList = '\'' :: (s.toList ++ ['\'']) := by
  simp [quotedText]

/-- The names of the constants start with three letters. -/
theorem Value.ofLiteral?_of_head
    {expr : String} {c : Char} {rest : List Char} (hexpr : expr.toList = c :: rest)
    (hc : c ∉ ['n', 't', 'f']) :
    ofLiteral? expr =
      if (c == '\'' || c == '"') && rest.getLast? == some c then
        some (str (String.ofList rest.dropLast))
      else if c.isDigit || c == '-' then
        match Text.int64? (c :: rest) with
        | some n => some (int n)
        | none => (Numeric.Binary64.ofChars? .double (c :: rest)).map float
      else none := by
  have hne (name : String) (hname : name.toList.head?.all (['n', 't', 'f'].contains ·)) :
      (expr == name) = false := by
    rw [beq_eq_false_iff_ne]
    rintro rfl
    rw [hexpr] at hname
    exact hc (by simpa using hname)
  unfold ofLiteral?
  rw [hne "nil" (by decide), hne "null" (by decide), hne "true" (by decide),
    hne "false" (by decide), hexpr]
  rfl

theorem ofLiteral?_quotedText (s : String) :
    Value.ofLiteral? (quotedText s) = some (.str s) := by
  rw [Value.ofLiteral?_of_head (toList_quotedText s) (by decide)]
  simp

theorem trimmed_quotedText (s : String) :
    Trimmed (quotedText s).toList := by
  rw [toList_quotedText]
  constructor
  · rintro _ ⟨⟩
    decide
  · intro c hc
    rw [← List.cons_append, List.getLast?_concat] at hc
    obtain rfl := Option.some.inj hc
    decide

theorem isLiteral_quotedText
    {s : String} (hquote : '\'' ∉ s.toList) (hs : Avoids '%' '}' s.toList) :
    IsLiteral (quotedText s) (.str s) := by
  have havoids : Avoids '%' '}' (['\''] ++ s.toList ++ ['\'']) :=
    ((by decide : Avoids '%' '}' ['\'']).append hs (by simp)).append (by decide) (by simp)
  refine ⟨?_, ofLiteral?_quotedText s, ?_⟩
  · rw [toList_quotedText]
    exact .quoted (by decide) hquote
  · rw [toList_quotedText]
    exact havoids

/-! ## Integers -/

theorem isDigit_or_eq_of_mem_toString
    {n : Int} {c : Char} (hc : c ∈ (toString n).toList) :
    c.isDigit ∨ c = '-' := by
  have hdigit : c ∈ Text.digitsOf n.natAbs → c.isDigit := Text.allDigits_digitsOf n.natAbs c
  rw [Text.toList_toString_int] at hc
  split at hc
  · rcases List.mem_cons.mp hc with hminus | hc
    · exact .inr hminus
    · exact .inl (hdigit hc)
  · exact .inl (hdigit hc)

/-- A character that is no digit and no minus sign does not stand in the text of an integer. -/
theorem not_mem_toString
    {c : Char} (hc : ¬(c.isDigit ∨ c = '-')) (n : Int) :
    c ∉ (toString n).toList :=
  fun hmem => hc (isDigit_or_eq_of_mem_toString hmem)

theorem isWord_toString (n : Int) :
    IsWord (toString n).toList := by
  constructor
  · rw [Text.toList_toString_int]
    split
    · exact List.cons_ne_nil _ _
    · exact Text.digitsOf_ne_nil n.natAbs
  · intro c hc
    rcases isDigit_or_eq_of_mem_toString hc with hdigit | rfl
    · exact Text.not_isBlank_of_isDigit hdigit
    · decide

theorem ofLiteral?_toString (n : Int64) :
    Value.ofLiteral? (toString n.toInt) = some (.int n) := by
  obtain ⟨c, rest, htext⟩ := List.exists_cons_of_ne_nil (isWord_toString n.toInt).1
  have hmem : c ∈ (toString n.toInt).toList := htext ▸ List.mem_cons_self
  have hvalue := Text.int64?_toString n
  rw [htext] at hvalue
  have hnumeral : (c.isDigit || c == '-') = true := by
    simpa using isDigit_or_eq_of_mem_toString hmem
  have hother (d : Char) (hd : ¬(d.isDigit ∨ d = '-')) : c ≠ d := by
    rintro rfl
    exact not_mem_toString hd n.toInt hmem
  have hquote : (c == '\'' || c == '"') = false := by
    simp [hother '\'' (by decide), hother '"' (by decide)]
  have hconstant : c ∉ ['n', 't', 'f'] := by
    simp [hother 'n' (by decide), hother 't' (by decide), hother 'f' (by decide)]
  rw [Value.ofLiteral?_of_head htext hconstant, hquote, Bool.false_and,
    if_neg Bool.false_ne_true, if_pos hnumeral, hvalue]

theorem isLiteral_toString (n : Int64) :
    IsLiteral (toString n.toInt) (.int n) := by
  refine ⟨.bare (isWord_toString n.toInt) ?_, ofLiteral?_toString n, ?_⟩
  · intro c hc
    have hmem := List.mem_of_head? hc
    intro hquote
    rcases Bool.or_eq_true_iff.mp hquote with hquote | hquote
    · exact not_mem_toString (by decide) n.toInt (eq_of_beq hquote ▸ hmem)
    · exact not_mem_toString (by decide) n.toInt (eq_of_beq hquote ▸ hmem)
  · exact Text.avoids_of_not_mem_left (not_mem_toString (by decide) n.toInt)

/-! ## Comparisons -/

namespace Text

def codePoints (s : String) : List Nat :=
  s.toList.map Char.toNat

theorem occursIn_iff
    {α : Type} [BEq α] [LawfulBEq α] {needle l : List α} :
    occursIn needle l = true ↔ needle <:+: l := by
  induction l with
  | nil => simp [occursIn]
  | cons a l ih =>
      rw [occursIn, Bool.or_eq_true, List.isPrefixOf_iff_prefix, ih, List.infix_cons_iff]

theorem map_toNat_lt_iff
    {cs ds : List Char} :
    cs.map Char.toNat < ds.map Char.toNat ↔ cs < ds := by
  induction cs generalizing ds with
  | nil => cases ds <;> simp
  | cons c cs ih =>
      cases ds with
      | nil => simp
      | cons d ds =>
          have hlt : c.toNat < d.toNat ↔ c < d := UInt32.lt_iff_toNat_lt.symm
          rw [List.map_cons, List.map_cons, List.cons_lt_cons_iff, List.cons_lt_cons_iff, ih, hlt,
            Char.toNat_inj]

/-- Texts are ordered by the numbers of their characters. -/
theorem codePoints_lt_iff
    {s t : String} :
    codePoints s < codePoints t ↔ s < t :=
  map_toNat_lt_iff.trans String.lt_iff_toList_lt.symm

end Text

theorem compareBy_equal_str (s t : String) :
    compareBy "==" (.str s) (.str t) = .ok (decide (s = t)) := by
  rfl

theorem compareBy_contains_str (s t : String) :
    compareBy "contains" (.str s) (.str t) = .ok (decide (t.toList <:+: s.toList)) := by
  have hcontains : (Value.str s).contains (.str t) = decide (t.toList <:+: s.toList) := by
    rw [Bool.eq_iff_iff, decide_eq_true_iff]
    exact Text.occursIn_iff
  exact congrArg Except.ok hcontains

theorem compareBy_less_str (s t : String) :
    compareBy "<" (.str s) (.str t) = .ok (decide (Text.codePoints s < Text.codePoints t)) := by
  have hless : (compare s t == .lt) = decide (Text.codePoints s < Text.codePoints t) := by
    rw [Bool.eq_iff_iff, beq_iff_eq, decide_eq_true_iff, Text.codePoints_lt_iff]
    exact compareOfLessAndEq_eq_lt
  exact congrArg Except.ok hless

theorem compareBy_less_int (n m : Int64) :
    compareBy "<" (.int n) (.int m) = .ok (decide (n.toInt < m.toInt)) := by
  have hless := (Condition.comparesAs_of_toRat? (a := .int n) (b := .int m) rfl rfl).less
  rw [hless, decide_eq_decide.mpr Int.cast_lt]

/-! ## Through the pipeline -/

/-- A literal in an expression is shown as the value that it denotes. -/
theorem shows_literal
    {options : Options} {root : Value} {expr : String} {v : Value} (trimmed : Trimmed expr.toList)
    (hbrace : '}' ∉ expr.toList) (hbar : '|' ∉ expr.toList)
    (hv : Value.ofLiteral? expr = some v) :
    Shows options root (expressionSource expr) v.display :=
  shows_expressionSource trimmed hbrace hbar (Context.evaluate_of_ofLiteral? trimmed hv _)

/-- Over any data, a text in quotes and an integer are shown as they are written.  In a condition
two texts in quotes, whatever stands in them, compare as the texts do, and two integers as the
numbers. -/
theorem literals_pass_through
    {options : Options} (hdepth : 1 ≤ options.maxDepth) (root : Value) :
    (∀ s : String, '}' ∉ s.toList → '|' ∉ s.toList →
      Shows options root (expressionSource (quotedText s)) s) ∧
    (∀ s t : String, '\'' ∉ s.toList → Avoids '%' '}' s.toList →
      '\'' ∉ t.toList → Avoids '%' '}' t.toList →
        Shows options root (choiceSource (testText (quotedText s) "==" (quotedText t)))
          (if s = t then "T" else "F") ∧
        Shows options root (choiceSource (testText (quotedText s) "contains" (quotedText t)))
          (if t.toList <:+: s.toList then "T" else "F") ∧
        Shows options root (choiceSource (testText (quotedText s) "<" (quotedText t)))
          (if Text.codePoints s < Text.codePoints t then "T" else "F")) ∧
    ∀ n m : Int64,
      Shows options root (expressionSource (toString n.toInt)) (toString n.toInt) ∧
      Shows options root (choiceSource (testText (toString n.toInt) "<" (toString m.toInt)))
        (if n.toInt < m.toInt then "T" else "F") := by
  refine ⟨?_, ?_, ?_⟩
  · intro s hbrace hbar
    have hbrace' : '}' ∉ (quotedText s).toList := by simpa [toList_quotedText] using hbrace
    have hbar' : '|' ∉ (quotedText s).toList := by simpa [toList_quotedText] using hbar
    exact shows_literal (trimmed_quotedText s) hbrace' hbar' (ofLiteral?_quotedText s)
  · intro s t hsquote hs htquote ht
    have hleft := isLiteral_quotedText hsquote hs
    have hright := isLiteral_quotedText htquote ht
    exact ⟨shows_test hdepth hleft (by decide) hright (compareBy_equal_str s t),
      shows_test hdepth hleft (by decide) hright (compareBy_contains_str s t),
      shows_test hdepth hleft (by decide) hright (compareBy_less_str s t)⟩
  · intro n m
    have hleft := isLiteral_toString n
    have hright := isLiteral_toString m
    have hbrace := not_mem_toString (by decide : ¬('}'.isDigit ∨ '}' = '-')) n.toInt
    have hbar := not_mem_toString (by decide : ¬('|'.isDigit ∨ '|' = '-')) n.toInt
    exact ⟨shows_literal hleft.operand.trimmed hbrace hbar hleft.denotes,
      shows_test hdepth hleft (by decide) hright (compareBy_less_int n m)⟩

/-- Data with entries under the texts of the literals, and texts full of quotes, openers, keywords
and lines; and the integers at both ends of the range. -/
theorem literals_pass_through_spelled_keys :
    let options : Options := { strict := true, maxDepth := 1 }
    let root : Value := .map
      [("'a or b'", .str "c"), ("-9223372036854775808", .int 1), ("9223372036854775807", .nil)]
    let shown := "it's\n\x7b% if \x7b\x7b or '"
    let holder := "\x7b\x7b c < \"a or b\" \x7d\x7d\n"
    1 ≤ options.maxDepth ∧ '}' ∉ shown.toList ∧ '|' ∉ shown.toList ∧
      '\'' ∉ holder.toList ∧ Avoids '%' '}' holder.toList ∧
      Shows options root "\x7b\x7b 'it's\n\x7b% if \x7b\x7b or '' \x7d\x7d" shown ∧
      Shows options root (choiceSource "'a or b' == 'a or b'") "T" ∧
      Shows options root (choiceSource (testText (quotedText holder) "contains" "'a or b'")) "T" ∧
      Shows options root (choiceSource (testText (quotedText holder) "<" "'a or b'")) "F" ∧
      Shows options root "\x7b\x7b -9223372036854775808 \x7d\x7d" "-9223372036854775808" ∧
      Shows options root (choiceSource "-9223372036854775808 < 9223372036854775807") "T" := by
  intro options root shown holder
  have hdepth : 1 ≤ options.maxDepth := by decide
  have hshown : '}' ∉ shown.toList ∧ '|' ∉ shown.toList := by decide
  have hquote : '\'' ∉ holder.toList ∧ '\'' ∉ "a or b".toList := by decide
  have havoids : Avoids '%' '}' holder.toList ∧ Avoids '%' '}' "a or b".toList := by decide
  obtain ⟨htext, htests, hintegers⟩ := literals_pass_through hdepth root
  obtain ⟨hequal, -, -⟩ := htests "a or b" "a or b" hquote.2 havoids.2 hquote.2 havoids.2
  obtain ⟨-, hcontains, hless⟩ := htests holder "a or b" hquote.1 havoids.1 hquote.2 havoids.2
  have hpart : "a or b".toList <:+: holder.toList :=
    ⟨"\x7b\x7b c < \"".toList, "\" \x7d\x7d\n".toList, by decide⟩
  rw [if_pos hpart] at hcontains
  rw [if_neg (by decide)] at hless
  obtain ⟨hinteger, hordered⟩ := hintegers Int64.minValue Int64.maxValue
  exact ⟨hdepth, hshown.1, hshown.2, hquote.1, havoids.1, htext shown hshown.1 hshown.2, hequal,
    hcontains, hless, hinteger, hordered⟩

end Liquid
