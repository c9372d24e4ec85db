import Liquid.Text.Blank
import Liquid.Text.Search
import Liquid.Numeric.Numeral
import Liquid.Error
import Liquid.Options

/-!
# Rendering contexts

The state of a rendering: the data, the local bindings of the loops around the current node, the
interrupts that are pending, and the errors recovered so far.  Expressions are looked up and
evaluated here.
-/

namespace Liquid

open Numeric

/-- A request to leave the loop around a node, or to go on with its next item. -/
inductive Interrupt where
  | leave
  | next
deriving DecidableEq

structure Context where
  /-- The data. -/
  root : Value
  /-- Local bindings, the latest first. -/
  locals : List (String × Value) := []
  /-- Pending interrupts, the latest first. -/
  interrupts : List Interrupt := []
  /-- The errors recovered so far, in order. -/
  errors : List Error := []
  /-- Whether a variable that is not found is an error. -/
  strict : Bool := false

namespace Value

/-- The part of a value under one segment of a path: the entry of a map with this key; the first or
last item of a list, or the one with this number, counted from zero. -/
def child? : Value → String → Option Value
  | map entries, key => entries.lookup key
  | list items, key =>
    if key == "first" then items.head?
    else if key == "last" then items.getLast?
    else match Text.nat? key.toList with
      | some i => items[i]?
      | none => none
  | _, _ => none

/-- The part of a value at the end of a path. -/
def follow? : Value → List String → Option Value
  | v, [] => some v
  | v, key :: rest =>
    match v.child? key with
    | some w => w.follow? rest
    | none => none

/-- The value that a literal denotes: a name of a constant, a text in quotes, or a number.  A
numeral starts with a digit or a minus sign; an integer that does not fit is read as a
floating-point number. -/
def ofLiteral? (expr : String) : Option Value :=
  if expr == "nil" || expr == "null" then some nil
  else if expr == "true" then some (bool true)
  else if expr == "false" then some (bool false)
  else match expr.toList with
    | [] => none
    | c :: rest =>
      if (c == '\'' || c == '"') && rest.getLast? == some c then
        some (str (String.ofList rest.dropLast))
      else if c.isDigit || c == '-' then
        match Text.int64? (c :: rest) with
        | some n => some (int n)
        | none => (Binary64.ofChars? .double (c :: rest)).map float
      else none

end Value

def pathSegments (path : String) : List String :=
  (path.toList.splitOn '.').map String.ofList

namespace Context

def new (root : Value) (options : Options) : Context :=
  { root := root, strict := options.strict }

/-- Adds a local binding, which hides earlier ones and the data. -/
def push (ctx : Context) (name : String) (v : Value) : Context :=
  { ctx with locals := (name, v) :: ctx.locals }

def pop (ctx : Context) : Context :=
  { ctx with locals := ctx.locals.tail }

def hasInterrupt (ctx : Context) : Bool :=
  !ctx.interrupts.isEmpty

def pushInterrupt (ctx : Context) (i : Interrupt) : Context :=
  { ctx with interrupts := i :: ctx.interrupts }

/-- Takes the latest pending interrupt. -/
def popInterrupt (ctx : Context) : Option Interrupt × Context :=
  (ctx.interrupts.head?, { ctx with interrupts := ctx.interrupts.tail })

def record (ctx : Context) (e : Error) : Context :=
  { ctx with errors := ctx.errors ++ [e] }

/-- The value bound to a name as a whole: the latest local binding, or else the entry of the
data. -/
def binding? (ctx : Context) (name : String) : Option Value :=
  match ctx.locals.lookup name with
  | some v => some v
  | none =>
    match ctx.root with
    | .map entries => entries.lookup name
    | _ => none

/-- The value at a path: what is bound to the path as a whole, or else what is reached from the
binding of the part before the first point along the segments after it. -/
def find? (ctx : Context) (path : String) : Option Value :=
  match ctx.binding? path with
  | some v => some v
  | none =>
    match Text.divideAt? '.' path.toList with
    | none => none
    | some (head, rest) =>
      match ctx.binding? (String.ofList head) with
      | some v => v.follow? (pathSegments (String.ofList rest))
      | none => none

/-- The value at a path, `nil` if there is none. -/
def lookup (ctx : Context) (path : String) : Value :=
  (ctx.find? path).getD .nil

/-- The value of an expression: of a literal, or else at a path. -/
def evaluate (ctx : Context) (expr : String) : Except Error Value :=
  let expr := Text.trim expr
  match Value.ofLiteral? expr with
  | some v => .ok v
  | none =>
    match ctx.find? expr with
    | some v => .ok v
    | none =>
      if ctx.strict then .error (.standard (.undefinedVariable expr)) else .ok .nil

/-- The text of a variable, which takes no filters. -/
def variableText (ctx : Context) (markup : String) : Except Error String :=
  if markup.toList.contains '|' then .error (.argument (.filtered markup))
  else (ctx.evaluate markup).map Value.display

end Context
end Liquid
