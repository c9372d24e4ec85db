import Liquid.Calendar
import Liquid.Numeric.Binary64
import Liquid.Numeric.Decimal

/-!
# Values

The data that a template is rendered against.  A map has one entry for each of its keys.  The
entries are kept in the order in which their keys were first set.  Texts and comparisons of maps are
such that this order makes no difference; only `inspect` shows it, in the place of an order that is
not specified.
-/

namespace Liquid

open Numeric

inductive Value where
  | nil
  | bool (b : Bool)
  | int (n : Int64)
  | float (x : Binary64)
  | str (s : String)
  | date (d : Date)
  | dateTime (t : DateTime)
  | decimal (d : Decimal)
  | list (items : List Value)
  | map (entries : List (String × Value))

namespace Value

instance : Inhabited Value := ⟨nil⟩

/-- Sets the value at a key: in the place of the entry with this key, or else in a new entry at the
end. -/
def insertEntry (key : String) (v : Value) : List (String × Value) → List (String × Value)
  | [] => [(key, v)]
  | (k, w) :: rest => if k = key then (key, v) :: rest else (k, w) :: insertEntry key v rest

/-- The map of some entries; of several with one key the last counts. -/
def ofEntries (entries : List (String × Value)) : Value :=
  .map (entries.foldl (fun kept e => insertEntry e.1 e.2 kept) [])

/-- Only `nil` and `false` are not true. -/
def isTruthy : Value → Bool
  | nil => false
  | bool b => b
  | _ => true

end Value
end Liquid
