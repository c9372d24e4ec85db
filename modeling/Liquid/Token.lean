import Liquid.Text.Blank
import Liquid.Text.Word

/-!
# Tokens

A token is a piece of a template together with the line on which it starts.  Its first characters
tell what kind of token it is; whether a tag or a variable is well formed is seen only when its
name or content is taken out.
-/

namespace Liquid

structure Token where
  text : String
  /-- The line on which the piece starts, counted from one. -/
  line : Nat
deriving DecidableEq

inductive TokenKind where
  | tag
  | variable
  | empty
  | text
deriving DecidableEq

/-- The kind of a token, by its first characters. -/
def TokenKind.ofChars : List Char → TokenKind
  | [] => .empty
  | '{' :: '%' :: _ => .tag
  | '{' :: '{' :: _ => .variable
  | _ => .text

namespace Token

def kind (t : Token) : TokenKind :=
  .ofChars t.text.toList

/-- What stands before the two given characters, if the text ends with them. -/
def beforeEnd? (a b : Char) (cs : List Char) : Option (List Char) :=
  match cs.reverse with
  | y :: x :: rest => if x == a && y == b then some rest.reverse else none
  | _ => none

/-- The name and the markup in a tag: the first word of its content, and the rest without the
blanks around it. -/
def tagParts? (cs : List Char) : Option (List Char × List Char) :=
  match cs with
  | '{' :: '%' :: rest =>
    match beforeEnd? '%' '}' rest with
    | some inner =>
      let content := inner.dropWhile Text.isBlank
      let name := content.takeWhile Text.isWordChar
      if name.isEmpty then none
      else some (name, Text.trimChars (content.dropWhile Text.isWordChar))
    | none => none
  | _ => none

/-- The content of a variable, without the blanks around it. -/
def variableContent? (cs : List Char) : Option (List Char) :=
  match cs with
  | '{' :: '{' :: rest => (beforeEnd? '}' '}' rest).map Text.trimChars
  | _ => none

/-- The name and the markup of a tag. -/
def tag? (t : Token) : Option (String × String) :=
  (tagParts? t.text.toList).map fun parts => (String.ofList parts.1, String.ofList parts.2)

def expression? (t : Token) : Option String :=
  (variableContent? t.text.toList).map String.ofList

end Token

/-- Tokens that are still to be read, and the line of the last one that was. -/
structure TokenStream where
  unread : List Token
  /-- The line of the token read last; one before the first. -/
  line : Nat := 1

/-- Reads the next token, if there is one. -/
def TokenStream.next (s : TokenStream) : Option Token × TokenStream :=
  match s.unread with
  | [] => (none, s)
  | t :: rest => (some t, ⟨rest, t.line⟩)

end Liquid
