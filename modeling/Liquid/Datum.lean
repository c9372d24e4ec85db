import Liquid.Text.Utf8
import Liquid.Error

/-!
# Structured data

The data that a program hands over to be rendered: numbers of all widths, texts, bytes, options,
variants, sequences, maps and records, nested to any depth.  `Datum.toValue` turns it into a value
or tells the first place where that fails.
-/

namespace Liquid

open Numeric

/-- A step in the construction of a map: a key, or the value for the key before it. -/
inductive MapStep (α : Type) where
  | key (a : α)
  | value (a : α)

inductive Datum where
  | bool (b : Bool)
  | signed (n : Int64)
  | unsigned (n : UInt64)
  /-- An integer of more than sixty-four bits, with the name of its type. -/
  | wide (type : String)
  /-- A floating-point number; one of single precision has a double-precision form. -/
  | float (x : Binary64)
  | char (c : Char)
  | text (s : String)
  | bytes (content : List UInt8)
  /-- Nothing: an absent option, a unit, or a record without fields. -/
  | absent
  /-- A variant without data. -/
  | variant (name : String)
  /-- A present option, or a wrapper around one datum. -/
  | wrapped (content : Datum)
  | sequence (items : List Datum)
  | map (entries : List (Datum × Datum))
  /-- A map whose keys and values are given one by one. -/
  | mapSteps (steps : List (MapStep Datum))
  | record (fields : List (String × Datum))
  | date (d : Date)
  | dateTime (t : DateTime)
  | decimal (d : Decimal)
  /-- A datum that refuses to be handed over. -/
  | failing (message : String)

/-- A map under construction: its entries so far, and the key that waits for its value. -/
structure MapBuilder where
  entries : List (String × Value) := []
  key? : Option String := none

namespace MapBuilder

/-- Takes a key; any value but `nil` serves as one, by its text. -/
def takeKey (b : MapBuilder) : Value → Except Error MapBuilder
  | .nil => .error (.argument .nilKey)
  | v => .ok { b with key? := some v.display }

/-- The key that waits for its value, and the map without it. -/
def releaseKey (b : MapBuilder) : Except Error (String × MapBuilder) :=
  match b.key? with
  | some key => .ok (key, { b with key? := none })
  | none => .error (.argument .valueWithoutKey)

/-- Sets the value at a key; the last value set counts. -/
def insert (b : MapBuilder) (key : String) (v : Value) : MapBuilder :=
  { b with entries := Value.insertEntry key v b.entries }

/-- The finished map; a key that still waits leaves no trace. -/
def finish (b : MapBuilder) : Value :=
  .map b.entries

end MapBuilder

/-- The integer with an unsigned value, if there is one. -/
def Value.ofUnsigned (n : UInt64) : Except Error Value :=
  if (n.toNat : Int) ≤ Int64.maxValue.toInt then .ok (.int (Int64.ofInt n.toNat))
  else .error (.argument (.outOfRange n.toNat))

namespace Datum

mutual

/-- The value of a datum, or the error of the first place that has none. -/
def toValue : Datum → Except Error Value
  | bool b => .ok (.bool b)
  | signed n => .ok (.int n)
  | unsigned n => Value.ofUnsigned n
  | wide type => .error (.argument (.unsupported type))
  | float x => .ok (.float x)
  | char c => .ok (.str c.toString)
  | text s => .ok (.str s)
  | bytes content => .ok (.str (Text.decodeForgiving content))
  | absent => .ok .nil
  | variant name => .ok (.str name)
  | wrapped content => content.toValue
  | sequence items => do
    let values ← itemValues items
    return .list values
  | map entries => do
    let b ← addEntries {} entries
    return b.finish
  | mapSteps steps => do
    let b ← addSteps {} steps
    return b.finish
  | record fields => do
    let b ← addFields {} fields
    return b.finish
  | date d => .ok (.str d.display)
  | dateTime t => .ok (.str t.inspect)
  | decimal d => .ok (.str d.display)
  | failing message => .error (.argument (.stated message))
termination_by structural d => d

def itemValues : List Datum → Except Error (List Value)
  | [] => .ok []
  | d :: rest => do
    let v ← d.toValue
    let values ← itemValues rest
    return v :: values
termination_by structural l => l

/-- Adds entries to a map, each key before its value. -/
def addEntries (b : MapBuilder) : List (Datum × Datum) → Except Error MapBuilder
  | [] => .ok b
  | (key, content) :: rest => do
    let b ← b.takeKey (← key.toValue)
    let (key, b) ← b.releaseKey
    addEntries (b.insert key (← content.toValue)) rest
termination_by structural l => l

/-- Adds keys and values to a map as they come. -/
def addSteps (b : MapBuilder) : List (MapStep Datum) → Except Error MapBuilder
  | [] => .ok b
  | .key d :: rest => do
    let b ← b.takeKey (← d.toValue)
    addSteps b rest
  | .value d :: rest => do
    let (key, b) ← b.releaseKey
    addSteps (b.insert key (← d.toValue)) rest
termination_by structural l => l

def addFields (b : MapBuilder) : List (String × Datum) → Except Error MapBuilder
  | [] => .ok b
  | (name, d) :: rest => do
    addFields (b.insert name (← d.toValue)) rest
termination_by structural l => l

end

end Datum
end Liquid
