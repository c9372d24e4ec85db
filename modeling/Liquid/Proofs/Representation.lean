import Liquid.Proofs.MapSteps
import Liquid.Proofs.Offences

/-!
# What the value of a datum keeps

The value of a datum represents it: a whole number is the same number, the items of a sequence keep
their order, and of several contents under keys with one text the last is kept.  A wrapper around a
datum, or around any part of it, makes no difference.
-/

namespace Liquid
namespace Datum

/-! ## Values that represent data -/

/-- The value tells everything that the datum does: numbers by their amount, items in order, and for
each text of a key the last content under such a key. -/
inductive Represents : Datum → Value → Prop
  | bool (b : Bool) : Represents (bool b) (.bool b)
  | signed {n m : Int64} (h : m.toInt = n.toInt) : Represents (signed n) (.int m)
  | unsigned {n : UInt64} {m : Int64} (h : m.toInt = n.toNat) : Represents (unsigned n) (.int m)
  | float (x : Numeric.Binary64) : Represents (float x) (.float x)
  | char (c : Char) : Represents (char c) (.str c.toString)
  | text (s : String) : Represents (text s) (.str s)
  | bytes (content : List UInt8) :
    Represents (bytes content) (.str (Text.decodeForgiving content))
  | absent : Represents absent .nil
  | variant (name : String) : Represents (variant name) (.str name)
  | wrapped {content : Datum} {v : Value} (h : Represents content v) :
    Represents (wrapped content) v
  | sequence {items : List Datum} {values : List Value}
    (h : List.Forall₂ Represents items values) : Represents (sequence items) (.list values)
  | map {entries : List (Datum × Datum)} {keys contents : List Value}
    {kept : List (String × Value)}
    (hkeys : List.Forall₂ Represents (entries.map Prod.fst) keys) (hnil : .nil ∉ keys)
    (hcontents : List.Forall₂ Represents (entries.map Prod.snd) contents)
    (hkept : MapBuilder.KeepsLast ((keys.map Value.display).zip contents) kept) :
    Represents (map entries) (.map kept)
  | mapSteps {steps : List (MapStep Datum)} {v : Value}
    (h : Represents (map (MapStep.pairs steps)) v) : Represents (mapSteps steps) v
  | record {fields : List (String × Datum)} {v : Value}
    (h : Represents (map (fields.map fun f => (text f.1, f.2))) v) :
    Represents (record fields) v
  | date (d : Date) : Represents (date d) (.str d.display)
  | dateTime (t : DateTime) : Represents (dateTime t) (.str t.inspect)
  | decimal (d : Numeric.Decimal) : Represents (decimal d) (.str d.display)

/-- The value of the datum, if there is one, represents it. -/
def Faithful (d : Datum) : Prop :=
  ∀ v, d.toValue = .ok v → d.Represents v

theorem faithful_unsigned (n : UInt64) : (unsigned n).Faithful := by
  intro v hv
  rw [toValue, Value.ofUnsigned] at hv
  split at hv
  · next h =>
      have hlow : -2 ^ 63 ≤ (n.toNat : Int) := by omega
      have hhigh : (n.toNat : Int) < 2 ^ 63 := Int.lt_of_le_of_lt h (by decide)
      exact Except.ok.inj hv ▸ .unsigned (Int64.toInt_ofInt_of_le hlow hhigh)
  · exact absurd hv (by simp)

theorem forall₂_represents
    {items : List Datum} {values : List Value} (h : ∀ d ∈ items, d.Faithful)
    (hvalues : List.Forall₂ (·.toValue = .ok ·) items values) :
    List.Forall₂ Represents items values := by
  have hitems := (List.forall₂_and_left items values).mpr ⟨h, hvalues⟩
  exact hitems.imp fun d v hd => hd.1 v hd.2

theorem faithful_sequence
    {items : List Datum} (h : ∀ d ∈ items, d.Faithful) :
    (sequence items).Faithful := by
  intro v hv
  rw [toValue, bind_eq_ok_iff] at hv
  obtain ⟨values, hvalues, hlist⟩ := hv
  exact Except.ok.inj hlist ▸ .sequence (forall₂_represents h (itemValues_eq_ok_iff.mp hvalues))

theorem exists_keys_of_sets
    {entries : List (Datum × Datum)} {set : List (String × Value)}
    (h : List.Forall₂ Sets entries set) :
    ∃ keys, List.Forall₂ (·.toValue = .ok ·) (entries.map Prod.fst) keys ∧ .nil ∉ keys ∧
      set.map Prod.fst = keys.map Value.display := by
  induction h with
  | nil => exact ⟨[], .nil, List.not_mem_nil, rfl⟩
  | cons he _ ih =>
      obtain ⟨keys, hkeys, hnil, hdisplay⟩ := ih
      obtain ⟨v, hv, hne, hkey⟩ := keyText_eq_ok_iff.mp he.1
      refine ⟨v :: keys, .cons hv hkeys, ?_, ?_⟩
      · rw [List.mem_cons, not_or]
        exact ⟨Ne.symm hne, hnil⟩
      · rw [List.map_cons, List.map_cons, hdisplay, hkey]

/-- The map in which entries set their values represents the map of these entries. -/
theorem represents_map
    {entries : List (Datum × Datum)} {set kept : List (String × Value)}
    (h : ∀ e ∈ entries, e.1.Faithful ∧ e.2.Faithful) (hset : List.Forall₂ Sets entries set)
    (hkept : MapBuilder.KeepsLast set kept) :
    (map entries).Represents (.map kept) := by
  obtain ⟨keys, hkeys, hnil, hdisplay⟩ := exists_keys_of_sets hset
  have hcontents : List.Forall₂ (·.toValue = .ok ·) (entries.map Prod.snd) (set.map Prod.snd) := by
    rw [List.forall₂_map_left_iff, List.forall₂_map_right_iff]
    exact hset.imp fun e p he => he.2
  have hzip : set = (keys.map Value.display).zip (set.map Prod.snd) :=
    List.zip_of_prod hdisplay rfl
  refine .map (forall₂_represents ?_ hkeys) hnil (forall₂_represents ?_ hcontents) (hzip ▸ hkept)
  · exact List.forall_mem_map.mpr fun e he => (h e he).1
  · exact List.forall_mem_map.mpr fun e he => (h e he).2

theorem pairs_entrySteps (entries : List (Datum × Datum)) :
    MapStep.pairs (entrySteps entries) = entries := by
  induction entries with
  | nil => rfl
  | cons e rest ih => rw [entrySteps_cons, MapStep.pairs, ih]

theorem represents_pairs
    {steps : List (MapStep Datum)} {v : Value}
    (h : ∀ e ∈ MapStep.pairs steps, e.1.Faithful ∧ e.2.Faithful)
    (hv : (mapSteps steps).toValue = .ok v) :
    (map (MapStep.pairs steps)).Represents v := by
  rw [toValue, bind_eq_ok_iff] at hv
  obtain ⟨b, hb, hfinish⟩ := hv
  obtain ⟨set, hset, hkept⟩ := (builtFrom_of_addSteps hb).exists_keepsLast
  exact Except.ok.inj hfinish ▸ represents_map h hset hkept

/-- Every value represents its datum. -/
theorem faithful (d : Datum) : d.Faithful := by
  have ih : ∀ p ∈ d.parts, p.Faithful := fun p hp => faithful p
  intro v hv
  cases d with
  | wrapped content => exact .wrapped (ih content List.mem_cons_self v hv)
  | sequence items => exact faithful_sequence ih v hv
  | map entries =>
      rw [toValue_map] at hv
      rw [← pairs_entrySteps entries]
      refine represents_pairs ?_ hv
      rw [pairs_entrySteps]
      exact fun e he => ⟨ih e.1 (key_mem_parts he), ih e.2 (content_mem_parts he)⟩
  | mapSteps steps =>
      -- Only the keys right before a value count; the data in these pairs are parts all the same.
      refine .mapSteps (represents_pairs (fun e he => ?_) hv)
      have hmem := MapStep.mem_pairs_iff.mp he
      exact ⟨ih e.1 (List.mem_map.mpr ⟨.key e.1, hmem.subset (by simp), rfl⟩),
        ih e.2 (List.mem_map.mpr ⟨.value e.2, hmem.subset (by simp), rfl⟩)⟩
  | record fields =>
      rw [toValue_record, fieldSteps] at hv
      refine .record ?_
      rw [← pairs_entrySteps (fields.map _)]
      refine represents_pairs ?_ hv
      rw [pairs_entrySteps, List.forall_mem_map]
      refine fun f hf => ⟨?_, ih f.2 (List.mem_map_of_mem hf)⟩
      exact fun w hw => Except.ok.inj hw ▸ .text f.1
  | signed n => exact Except.ok.inj hv ▸ .signed rfl
  | unsigned n => exact faithful_unsigned n v hv
  | wide type => exact absurd hv (by simp [toValue])
  | failing message => exact absurd hv (by simp [toValue])
  | _ =>
      cases Except.ok.inj hv
      constructor
termination_by sizeOf d
decreasing_by exact sizeOf_lt_of_mem_parts hp

/-! ## Wrappers -/

/-- The second datum is the first one with a wrapper around it, or around one part of it at any
depth. -/
inductive WrapsPart : Datum → Datum → Prop
  | whole (d : Datum) : WrapsPart d (wrapped d)
  | wrapped {d d' : Datum} (h : WrapsPart d d') : WrapsPart (wrapped d) (wrapped d')
  | item {d d' : Datum} (h : WrapsPart d d') (front back : List Datum) :
    WrapsPart (sequence (front ++ d :: back)) (sequence (front ++ d' :: back))
  | key {d d' : Datum} (h : WrapsPart d d') (content : Datum) (front back : List (Datum × Datum)) :
    WrapsPart (map (front ++ (d, content) :: back)) (map (front ++ (d', content) :: back))
  | content {d d' : Datum} (h : WrapsPart d d') (key : Datum) (front back : List (Datum × Datum)) :
    WrapsPart (map (front ++ (key, d) :: back)) (map (front ++ (key, d') :: back))
  | keyStep {d d' : Datum} (h : WrapsPart d d') (front back : List (MapStep Datum)) :
    WrapsPart (mapSteps (front ++ .key d :: back)) (mapSteps (front ++ .key d' :: back))
  | valueStep {d d' : Datum} (h : WrapsPart d d') (front back : List (MapStep Datum)) :
    WrapsPart (mapSteps (front ++ .value d :: back)) (mapSteps (front ++ .value d' :: back))
  | field {d d' : Datum} (h : WrapsPart d d') (name : String)
    (front back : List (String × Datum)) :
    WrapsPart (record (front ++ (name, d) :: back)) (record (front ++ (name, d') :: back))

theorem toValue_sequence_congr
    {d d' : Datum} (h : d'.toValue = d.toValue) (front back : List Datum) :
    (sequence (front ++ d' :: back)).toValue = (sequence (front ++ d :: back)).toValue := by
  rw [toValue, toValue]
  congr 1
  induction front with
  | nil => simp only [List.nil_append, itemValues, h]
  | cons e front ih => simp only [List.cons_append, itemValues, ih]

theorem toValue_mapSteps_congr
    {rest rest' : List (MapStep Datum)} (h : ∀ b, addSteps b rest' = addSteps b rest)
    (front : List (MapStep Datum)) :
    (mapSteps (front ++ rest')).toValue = (mapSteps (front ++ rest)).toValue := by
  simp only [toValue, addSteps_append, h]

theorem WrapsPart.toValue_eq
    {d d' : Datum} (h : WrapsPart d d') :
    d'.toValue = d.toValue := by
  induction h with
  | whole d => rw [toValue]
  | wrapped _ ih => rw [toValue, toValue, ih]
  | item _ front back ih => exact toValue_sequence_congr ih front back
  | key _ content front back ih =>
      simp only [toValue_map, entrySteps, List.flatMap_append, List.flatMap_cons]
      exact toValue_mapSteps_congr (fun b => by simp [addSteps, ih]) _
  | content _ key front back ih =>
      simp only [toValue_map, entrySteps, List.flatMap_append, List.flatMap_cons]
      exact toValue_mapSteps_congr (fun b => by simp [addSteps, ih]) _
  | keyStep _ front back ih =>
      exact toValue_mapSteps_congr (fun b => by simp [addSteps, ih]) front
  | valueStep _ front back ih =>
      exact toValue_mapSteps_congr (fun b => by simp [addSteps, ih]) front
  | field _ name front back ih =>
      simp only [toValue_record, fieldSteps, entrySteps, List.map_append, List.map_cons,
        List.flatMap_append, List.flatMap_cons]
      exact toValue_mapSteps_congr (fun b => by simp [addSteps, ih]) _

/-! ## Values and errors -/

/-- A datum has an error just if one of its places offends: a number that is too large, a datum that
refuses, a key whose value is nil, or, among keys and values that come one by one, a value without a
key.  The error is that of the first such place, where a key comes before its value and after its
own parts.  Otherwise the value represents the datum, and it is the same with a wrapper around any
part, a key included. -/
theorem represented_unless_a_place_offends (d : Datum) :
    ((∃ e, d.toValue = .error e) ↔ ∃ place ∈ d.places, ∃ e, place.offence = some e) ∧
      (∀ e, d.toValue = .error e ↔ d.places.findSome? Place.offence = some e) ∧
      (∀ key : Datum, key.isNothing ↔ key.toValue = .ok .nil) ∧
      (∀ v, d.toValue = .ok v → d.Represents v) ∧
      ∀ d', d.WrapsPart d' → d'.toValue = d.toValue :=
  ⟨(failsAt_toValue d).exists_error_iff, failsAt_toValue d, fun _ => toValue_eq_nil_iff.symm,
    faithful d, fun _ h => h.toValue_eq⟩

/-- A number and a text that are one key, a wrapper around a key; and an offence inside of a key in
front of a key that is nothing, a datum that refuses and a number of another kind. -/
theorem represented_unless_a_place_offends_colliding_keys :
    let one : Datum := .map [(.signed 1, .text "a"), (.text "1", .sequence [.absent])]
    let wrappedOne : Datum :=
      .map [(.signed 1, .text "a"), (.wrapped (.text "1"), .sequence [.absent])]
    let d : Datum := .record [("n", .unsigned 7), ("m", one)]
    let d' : Datum := .record [("n", .unsigned 7), ("m", wrappedOne)]
    let v : Value := .map [("n", .int 7), ("m", .map [("1", .list [.nil])])]
    let bad : Datum :=
      .sequence [.map [(.sequence [.unsigned 9223372036854775808], .absent),
        (.wrapped .absent, .failing "no")], .wide "i128"]
    (d.toValue = .ok v ∧ d.WrapsPart d') ∧ d.Represents v ∧ d'.toValue = .ok v ∧
      (∃ place ∈ bad.places, ∃ e, place.offence = some e) ∧
      bad.toValue = .error (.argument (.outOfRange 9223372036854775808)) := by
  intro one wrappedOne d d' v bad
  have hv : d.toValue = .ok v := by
    rfl
  have hone : one.WrapsPart wrappedOne :=
    .key (.whole (.text "1")) (.sequence [.absent]) [(.signed 1, .text "a")] []
  have hwraps : d.WrapsPart d' := .field hone "m" [("n", .unsigned 7)] []
  obtain ⟨-, -, -, hrepresents, hwrapped⟩ := represented_unless_a_place_offends d
  obtain ⟨hoffence, herror, -⟩ := represented_unless_a_place_offends bad
  have hbad : bad.toValue = .error (.argument (.outOfRange 9223372036854775808)) :=
    (herror _).mpr rfl
  exact ⟨⟨hv, hwraps⟩, hrepresents v hv, (hwrapped d' hwraps).trans hv, hoffence.mp ⟨_, hbad⟩, hbad⟩

end Datum
end Liquid
