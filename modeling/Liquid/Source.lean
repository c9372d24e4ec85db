import Liquid.Token

/-!
# Splitting a template into tokens

A tag runs from its opening marker through the first closing marker after it, a variable through
the first closing brace and one more if it follows.  An opening marker that is never closed is a
token by itself.  Text and markers alternate; an empty text stands between two adjacent markers,
but not at the ends of the template.
-/

namespace Liquid
namespace Source

/-- What stands up to and including the first closing marker of a tag, and the rest. -/
def throughTagEnd? : List Char → Option (List Char × List Char)
  | [] => none
  | '%' :: '}' :: rest => some (['%', '}'], rest)
  | c :: rest => (throughTagEnd? rest).map fun parts => (c :: parts.1, parts.2)

/-- What stands up to and including the first closing brace, with a second one directly after it,
and the rest. -/
def throughVariableEnd? : List Char → Option (List Char × List Char)
  | [] => none
  | '}' :: '}' :: rest => some (['}', '}'], rest)
  | '}' :: rest => some (['}'], rest)
  | c :: rest => (throughVariableEnd? rest).map fun parts => (c :: parts.1, parts.2)

/-- Splits the marker at the front of a text off, if one stands there. -/
def marker? : List Char → Option (List Char × List Char)
  | '{' :: '%' :: rest =>
    match throughTagEnd? rest with
    | some (inner, rest) => some ('{' :: '%' :: inner, rest)
    | none => some (['{', '%'], rest)
  | '{' :: '{' :: rest =>
    match throughVariableEnd? rest with
    | some (inner, rest) => some ('{' :: '{' :: inner, rest)
    | none => some (['{', '{'], rest)
  | _ => none

/-- The text before the first marker, and the marker with the rest after it, if there is one. -/
def untilMarker : List Char → List Char × Option (List Char × List Char)
  | [] => ([], none)
  | c :: rest =>
    match marker? (c :: rest) with
    | some parts => ([], some parts)
    | none =>
      let parts := untilMarker rest
      (c :: parts.1, parts.2)

theorem append_of_throughTagEnd? {cs inner rest : List Char}
    (h : throughTagEnd? cs = some (inner, rest)) : inner ++ rest = cs := by
  fun_induction throughTagEnd? cs generalizing inner rest with
  | case1 => simp at h
  | case2 r =>
    simp only [Option.some.injEq, Prod.mk.injEq] at h
    obtain ⟨rfl, rfl⟩ := h
    rfl
  | case3 c r _ ih =>
    obtain ⟨⟨i, s⟩, hs, he⟩ := Option.map_eq_some_iff.1 h
    simp only [Prod.mk.injEq] at he
    obtain ⟨rfl, rfl⟩ := he
    simp [ih hs]

theorem append_of_throughVariableEnd? {cs inner rest : List Char}
    (h : throughVariableEnd? cs = some (inner, rest)) : inner ++ rest = cs := by
  fun_induction throughVariableEnd? cs generalizing inner rest with
  | case1 => simp at h
  | case2 r =>
    simp only [Option.some.injEq, Prod.mk.injEq] at h
    obtain ⟨rfl, rfl⟩ := h
    rfl
  | case3 r _ =>
    simp only [Option.some.injEq, Prod.mk.injEq] at h
    obtain ⟨rfl, rfl⟩ := h
    rfl
  | case4 c r _ _ ih =>
    obtain ⟨⟨i, s⟩, hs, he⟩ := Option.map_eq_some_iff.1 h
    simp only [Prod.mk.injEq] at he
    obtain ⟨rfl, rfl⟩ := he
    simp [ih hs]

/-- A marker is at least two characters long, and nothing is lost in splitting it off. -/
theorem append_of_marker? {cs m rest : List Char} (h : marker? cs = some (m, rest)) :
    m ++ rest = cs ∧ 2 ≤ m.length := by
  fun_cases marker? cs with
  | case1 r inner s hs =>
    simp only [marker?, hs, Option.some.injEq, Prod.mk.injEq] at h
    obtain ⟨rfl, rfl⟩ := h
    simp [append_of_throughTagEnd? hs]
  | case2 r hs =>
    simp only [marker?, hs, Option.some.injEq, Prod.mk.injEq] at h
    obtain ⟨rfl, rfl⟩ := h
    simp
  | case3 r inner s hs =>
    simp only [marker?, hs, Option.some.injEq, Prod.mk.injEq] at h
    obtain ⟨rfl, rfl⟩ := h
    simp [append_of_throughVariableEnd? hs]
  | case4 r hs =>
    simp only [marker?, hs, Option.some.injEq, Prod.mk.injEq] at h
    obtain ⟨rfl, rfl⟩ := h
    simp
  | case5 => simp [marker?] at h

theorem append_of_untilMarker {cs t m rest : List Char}
    (h : untilMarker cs = (t, some (m, rest))) : t ++ m ++ rest = cs ∧ 2 ≤ m.length := by
  induction cs generalizing t with
  | nil => simp [untilMarker] at h
  | cons c r ih =>
    rw [untilMarker] at h
    split at h
    · rename_i parts hm
      simp only [Prod.mk.injEq, Option.some.injEq] at h
      obtain ⟨rfl, rfl⟩ := h
      simpa using append_of_marker? hm
    · simp only [Prod.mk.injEq] at h
      obtain ⟨rfl, h₂⟩ := h
      have := ih (Prod.ext rfl h₂)
      simpa using this

/-- The pieces of a template: texts, some of them empty, with a marker between each two. -/
def pieces (cs : List Char) : List (List Char) :=
  match _h : untilMarker cs with
  | (t, none) => [t]
  | (t, some (m, rest)) => t :: m :: pieces rest
termination_by cs.length
decreasing_by
  have := append_of_untilMarker _h
  have hl := congrArg List.length this.1
  simp only [List.length_append] at hl
  omega

def dropEmptyFirst : List (List Char) → List (List Char)
  | [] :: rest => rest
  | l => l

def dropEmptyLast (l : List (List Char)) : List (List Char) :=
  match l.getLast? with
  | some [] => l.dropLast
  | _ => l

def tokenTexts (cs : List Char) : List (List Char) :=
  dropEmptyLast (dropEmptyFirst (pieces cs))

/-- Gives each piece the line on which it starts, the first one the given line. -/
def withLines : Nat → List (List Char) → List Token
  | _, [] => []
  | line, cs :: rest => ⟨String.ofList cs, line⟩ :: withLines (line + cs.count '\n') rest

def tokens (source : String) : List Token :=
  withLines 1 (tokenTexts source.toList)

end Source

/-- The tokens of a template, none of them read. -/
def TokenStream.ofSource (source : String) : TokenStream :=
  { unread := Source.tokens source }

end Liquid
