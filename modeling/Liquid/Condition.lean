import Liquid.Context
import Liquid.Value.Compare

/-!
# Conditions

A condition is a list of alternatives joined by `or`, each a list of tests joined by `and`.  A test
is a single operand, which is tested for truth, or two operands around an operator.  Operands are
separated by blanks; one in quotes may hold anything but its own quote.
-/

namespace Liquid

inductive Operator where
  | equal
  | unequal
  | less
  | greater
  | atMost
  | atLeast
  | contains
deriving DecidableEq

def Operator.ofText? (s : String) : Option Operator :=
  match s with
  | "==" => some .equal
  | "!=" => some .unequal
  | "<>" => some .unequal
  | "<" => some .less
  | ">" => some .greater
  | "<=" => some .atMost
  | ">=" => some .atLeast
  | "contains" => some .contains
  | _ => none

/-- Whether the order of two values is the one that a test asks for. -/
def Value.ordered (holds : Ordering → Bool) (a b : Value) : Except Error Bool :=
  match a.compare? b with
  | some o => .ok (holds o)
  | none => .error (.argument (.unordered a b))

/-- The outcome of a test of two values. -/
def Operator.apply (op : Operator) (a b : Value) : Except Error Bool :=
  match op with
  | equal => .ok (a.looseEq b)
  | unequal => .ok (!a.looseEq b)
  | less => a.ordered (· == .lt) b
  | greater => a.ordered (· == .gt) b
  | atMost => a.ordered (· != .gt) b
  | atLeast => a.ordered (· != .lt) b
  | contains => .ok (a.contains b)

/-- The outcome of a test of two values whose operator is given by its text. -/
def compareBy (op : String) (a b : Value) : Except Error Bool :=
  match Operator.ofText? op with
  | some op => op.apply a b
  | none => .error (.argument (.unknownOperator op))

namespace Condition

/-- Takes an operand off a text that starts with the character `c`, which is not blank: up to the
closing quote if `c` is a quote that is closed, and else up to the next blank. -/
def takeOperand (c : Char) (rest : List Char) : List Char × List Char :=
  if (c == '\'' || c == '"') && rest.contains c then
    (c :: rest.takeWhile (· != c) ++ [c], (rest.dropWhile (· != c)).tail)
  else (c :: rest.takeWhile (!Text.isBlank ·), rest.dropWhile (!Text.isBlank ·))

theorem length_takeOperand_le (c : Char) (rest : List Char) :
    (takeOperand c rest).2.length ≤ rest.length := by
  unfold takeOperand
  split
  · have hrest := (List.dropWhile_sublist (l := rest) (· != c)).length_le
    simp only [List.length_tail]
    omega
  · exact (List.dropWhile_sublist _).length_le

/-- The operands of a condition, in order. -/
def operandsOf (cs : List Char) : List (List Char) :=
  match _h : cs.dropWhile Text.isBlank with
  | [] => []
  | c :: rest => (takeOperand c rest).1 :: operandsOf (takeOperand c rest).2
termination_by cs.length
decreasing_by
  have h₁ := length_takeOperand_le c rest
  have h₂ := (List.dropWhile_sublist (l := cs) Text.isBlank).length_le
  rw [_h] at h₂
  simp only [List.length_cons] at h₂
  omega

def operands (s : String) : List String :=
  (operandsOf s.toList).map String.ofList

def evalTest (ctx : Context) : List String → Except Error Bool
  | [operand] => (ctx.evaluate operand).map Value.isTruthy
  | [left, op, right] => do
    let a ← ctx.evaluate left
    let b ← ctx.evaluate right
    compareBy op a b
  | parts => .error (.argument (.invalidCondition parts))

/-- Whether all tests hold; those after the first that fails are not looked at. -/
def evalAll (ctx : Context) : List (List String) → Except Error Bool
  | [] => .ok true
  | test :: rest => do
    if ← evalTest ctx test then evalAll ctx rest else .ok false

/-- Whether some alternative holds; those after the first that holds are not looked at. -/
def evalAny (ctx : Context) : List (List (List String)) → Except Error Bool
  | [] => .ok false
  | alternative :: rest => do
    if ← evalAll ctx alternative then .ok true else evalAny ctx rest

/-- The tests of a condition: alternatives, and in each the tests that must all hold. -/
def alternatives (s : String) : List (List (List String)) :=
  ((operands s).splitOn "or").map (·.splitOn "and")

def eval (ctx : Context) (s : String) : Except Error Bool :=
  evalAny ctx (alternatives s)

end Condition
end Liquid
