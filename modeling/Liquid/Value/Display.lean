import Liquid.Text.Quoted
import Liquid.Numeric.Shortest
import Liquid.Value.Basic

/-!
# The text of a value

Two texts: `display` is what a document shows, and `inspect` names the kind of every part and is
used in diagnoses.  In a document the entries of a map stand in ascending order of their keys, in a
diagnosis as they come.
-/

namespace Liquid
namespace Value

/-- Puts a text under a key in front of the first one whose key is not smaller. -/
def placeEntry (e : String × String) : List (String × String) → List (String × String)
  | [] => [e]
  | f :: rest => if e.1 ≤ f.1 then e :: f :: rest else f :: placeEntry e rest

/-- Texts in ascending order of their keys. -/
def sortEntries (entries : List (String × String)) : List (String × String) :=
  entries.foldr placeEntry []

/-- Texts in ascending order of their keys, each behind its key. -/
def joinSorted (entries : List (String × String)) : String :=
  String.join ((sortEntries entries).map fun e => e.1 ++ e.2)

mutual

/-- The text in a document.  Nothing stands between the parts of a list or a map; a map shows each
key before its value. -/
def display : Value → String
  | nil => ""
  | bool b => if b then "true" else "false"
  | int n => toString n.toInt
  | float x => x.display
  | str s => s
  | date d => d.display
  | dateTime t => t.display
  | decimal d => d.display
  | list items => displayItems items
  | map entries => joinSorted (displayEntries entries)
termination_by structural v => v

def displayItems : List Value → String
  | [] => ""
  | v :: rest => v.display ++ displayItems rest
termination_by structural l => l

def displayEntries : List (String × Value) → List (String × String)
  | [] => []
  | (key, v) :: rest => (key, v.display) :: displayEntries rest
termination_by structural l => l

end

mutual

/-- The text in a diagnosis.  The entries of a map come as they are kept, in the place of an order
that is not specified. -/
def inspect : Value → String
  | nil => "Nil"
  | bool b => if b then "Bool(true)" else "Bool(false)"
  | int n => "Int(" ++ toString n.toInt ++ ")"
  | float x => "Float(" ++ x.inspect ++ ")"
  | str s => "Str(" ++ Text.quoted s ++ ")"
  | date d => "Date(" ++ d.display ++ ")"
  | dateTime t => "DateTime(" ++ t.inspect ++ ")"
  | decimal d => "Decimal(" ++ d.display ++ ")"
  | list items => "List([" ++ ", ".intercalate (inspectItems items) ++ "])"
  | map entries => "Map(\x7b" ++ ", ".intercalate (inspectEntries entries) ++ "\x7d)"
termination_by structural v => v

def inspectItems : List Value → List String
  | [] => []
  | v :: rest => v.inspect :: inspectItems rest
termination_by structural l => l

/-- The texts of the entries: the quoted key, a colon and the value. -/
def inspectEntries : List (String × Value) → List String
  | [] => []
  | (key, v) :: rest => (Text.quoted key ++ ": " ++ v.inspect) :: inspectEntries rest
termination_by structural l => l

end

end Value
end Liquid
