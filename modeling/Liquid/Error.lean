import Liquid.Value.Display

/-!
# Errors

An error is a cause and a kind.  The kind decides what becomes of it: all but a fatal error are
recovered while rendering.  Every wording is in `Cause.message`.
-/

namespace Liquid

inductive Cause where
  /-- A tag without its closing marker, or without a name. -/
  | unterminatedTag (token : String)
  /-- A variable without its closing marker. -/
  | unterminatedVariable (token : String)
  | unknownTag (name : String)
  /-- An `else` where the block takes none. -/
  | unexpectedElse (block : String)
  /-- A bare `end` in a block with this closing tag, if it has one. -/
  | bareEnd (block : String) (delimiter : Option String)
  /-- The template ends inside the block. -/
  | unclosed (block : String)
  | tooDeep (limit : Nat)
  | missingCondition
  | malformedLoop
  | undefinedVariable (path : String)
  /-- A variable with a filter. -/
  | filtered (markup : String)
  /-- A part of a condition that is neither one operand nor a comparison of two. -/
  | invalidCondition (operands : List String)
  | unknownOperator (operator : String)
  /-- Two values that have no order. -/
  | unordered (left right : Value)
  /-- An unsigned number beyond the integers. -/
  | outOfRange (n : Nat)
  /-- A kind of number that values do not have. -/
  | unsupported (kind : String)
  | nilKey
  | valueWithoutKey
  /-- A cause stated by a tag or by a datum itself. -/
  | stated (message : String)

def Cause.message : Cause → String
  | unterminatedTag token =>
    "Tag '" ++ token ++ "' was not properly terminated with regexp: %\x7d"
  | unterminatedVariable token =>
    "Variable '" ++ token ++ "' was not properly terminated with regexp: \x7d\x7d"
  | unknownTag name => "Unknown tag '" ++ name ++ "'"
  | unexpectedElse block => block ++ " tag does not expect else tag"
  | bareEnd block (some delimiter) =>
    "'end' is not a valid delimiter for " ++ block ++ " tags. use " ++ delimiter
  | bareEnd block none => "'end' is not a valid delimiter for " ++ block ++ " tags"
  | unclosed block => block ++ " tag was never closed"
  | tooDeep limit => "Nesting too deep (limit " ++ toString limit ++ ")"
  | missingCondition => "Syntax Error in tag 'if' - Valid syntax: if [condition]"
  | malformedLoop =>
    "Syntax Error in 'for loop' - Valid syntax: for [item] in [collection]"
  | undefinedVariable path => "undefined variable " ++ path
  | filtered markup => "filters are not supported: " ++ markup
  | invalidCondition operands => "Invalid condition '" ++ " ".intercalate operands ++ "'"
  | unknownOperator operator => "Unknown operator " ++ operator
  | unordered left right =>
    "Comparison of " ++ left.inspect ++ " with " ++ right.inspect ++ " failed"
  | outOfRange n => "integer " ++ toString n ++ " out of range"
  | unsupported kind => kind ++ " is not supported"
  | nilKey => "map key must not be nil"
  | valueWithoutKey => "map value without key"
  | stated message => message

inductive ErrorKind where
  /-- The template is malformed. -/
  | malformed
  /-- A construct got something that it cannot work with. -/
  | argument
  /-- Any other error that rendering survives. -/
  | standard
  /-- An error that ends the rendering. -/
  | fatal
deriving DecidableEq

/-- An error: its kind, its cause, and for a malformed template the line, if it is known. -/
inductive Error where
  | malformed (cause : Cause) (line : Option Nat)
  | argument (cause : Cause)
  | standard (cause : Cause)
  | fatal (cause : Cause)

namespace Error

def atLine (cause : Cause) (line : Nat) : Error :=
  malformed cause (some line)

def kind : Error → ErrorKind
  | malformed .. => .malformed
  | argument _ => .argument
  | standard _ => .standard
  | fatal _ => .fatal

def cause : Error → Cause
  | malformed cause _ | argument cause | standard cause | fatal cause => cause

/-- The wording of an error, without its kind and its line. -/
def message (e : Error) : String :=
  e.cause.message

def line? : Error → Option Nat
  | malformed _ line => line
  | _ => none

/-- Whether rendering goes on after the error. -/
def isRecoverable (e : Error) : Bool :=
  e.kind != .fatal

/-- The wording with the line after it, if the line is known. -/
def located (e : Error) : String :=
  match e.line? with
  | some line => e.message ++ " (line " ++ toString line ++ ")"
  | none => e.message

/-- The kind of an error in front of its wording. -/
def display (e : Error) : String :=
  match e with
  | malformed .. => "Syntax error: " ++ e.located
  | argument _ => "Argument error: " ++ e.message
  | standard _ => "Error: " ++ e.message
  | fatal _ => "Fatal error: " ++ e.message

/-- What a document shows in place of a construct that failed. -/
def inline (e : Error) : String :=
  match e with
  | malformed .. => "Liquid syntax error: " ++ e.message
  | _ => "Liquid error: " ++ e.message

end Error
end Liquid
