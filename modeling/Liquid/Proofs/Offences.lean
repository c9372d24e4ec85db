import Liquid.Proofs.Building

/-!
# The first offence

The places of a datum come in the order in which they are handed over: every datum before its parts,
a key before its value, and the parts of a key before the key as such.  Some places offend.  A datum
has a value just if none of its places does, and its error is that of the first one that does.
-/

namespace Liquid
namespace Datum

/-! ## Places -/

/-- Nothing, wrapped or not. -/
def isNothing : Datum → Bool
  | absent => true
  | wrapped content => content.isNothing
  | _ => false

/-- A place that is reached while a datum is handed over. -/
inductive Place where
  /-- The datum itself or one in it. -/
  | datum (d : Datum)
  /-- A datum in its role as a key. -/
  | key (d : Datum)
  /-- A value for which no key waits. -/
  | keyless (d : Datum)

/-- The error of a place that offends: an unsigned number beyond the integers, a number of more than
sixty-four bits, a datum that refuses, a key that is nothing, or a value without a key. -/
def Place.offence : Place → Option Error
  | datum (unsigned n) =>
    if (n.toNat : Int) ≤ Int64.maxValue.toInt then none else some (.argument (.outOfRange n.toNat))
  | datum (wide type) => some (.argument (.unsupported type))
  | datum (failing message) => some (.argument (.stated message))
  | datum _ => none
  | key d => if d.isNothing then some (.argument .nilKey) else none
  | keyless _ => some (.argument .valueWithoutKey)

mutual

/-- The places of a datum, in the order in which they are reached. -/
def places : Datum → List Place
  | wrapped content => .datum (wrapped content) :: content.places
  | sequence items => .datum (sequence items) :: itemPlaces items
  | map entries => .datum (map entries) :: entryPlaces entries
  | mapSteps steps => .datum (mapSteps steps) :: stepPlaces false steps
  | record fields => .datum (record fields) :: fieldPlaces fields
  | d => [.datum d]
termination_by structural d => d

def itemPlaces : List Datum → List Place
  | [] => []
  | d :: rest => d.places ++ itemPlaces rest
termination_by structural l => l

def entryPlaces : List (Datum × Datum) → List Place
  | [] => []
  | (key, content) :: rest => key.places ++ .key key :: (content.places ++ entryPlaces rest)
termination_by structural l => l

/-- The places of keys and values that come one by one, where a key may be waiting already. -/
def stepPlaces (waiting : Bool) : List (MapStep Datum) → List Place
  | [] => []
  | .key d :: rest => d.places ++ .key d :: stepPlaces true rest
  | .value d :: rest =>
    if waiting then d.places ++ stepPlaces false rest
    else .keyless d :: (d.places ++ stepPlaces false rest)
termination_by structural l => l

def fieldPlaces : List (String × Datum) → List Place
  | [] => []
  | (_, d) :: rest => d.places ++ fieldPlaces rest
termination_by structural l => l

end

/-! ## Failing at the first offence -/

section

variable {α β : Type} {x : Except Error α} {front back : List Place}

/-- A computation fails just if one of the places offends, and then with the error of the first. -/
def FailsAt (x : Except Error α) (places : List Place) : Prop :=
  ∀ e, x = .error e ↔ places.findSome? Place.offence = some e

theorem failsAt_ok (a : α) : FailsAt (.ok a) [] := by
  intro e
  simp

theorem failsAt_error
    {place : Place} {e : Error} (h : place.offence = some e) (back : List Place) :
    FailsAt (.error e : Except Error α) (place :: back) := by
  intro e'
  rw [List.findSome?_cons, h, Option.some.injEq, Except.error.injEq]

theorem FailsAt.after
    (hx : FailsAt x back) {place : Place} (h : place.offence = none) :
    FailsAt x (place :: back) := by
  intro e
  rw [List.findSome?_cons, h]
  exact hx e

/-- What is computed later fails at later places. -/
theorem FailsAt.bind
    {f : α → Except Error β} (hx : FailsAt x front) (hf : ∀ a, x = .ok a → FailsAt (f a) back) :
    FailsAt (x >>= f) (front ++ back) := by
  intro e
  rw [List.findSome?_append]
  cases x with
  | error e' =>
      rw [(hx e').mp rfl, Option.some_or, Option.some.injEq]
      exact Except.error.injEq e' e ▸ Iff.rfl
  | ok a =>
      have hnone : front.findSome? Place.offence = none :=
        Option.eq_none_iff_forall_ne_some.mpr fun e' he' => absurd ((hx e').mpr he') (by simp)
      rw [hnone, Option.none_or]
      exact hf a rfl e

theorem FailsAt.bind_pure
    (hx : FailsAt x front) (f : α → β) :
    FailsAt (x >>= fun a => pure (f a)) front :=
  List.append_nil front ▸ hx.bind fun a _ => failsAt_ok (f a)

theorem FailsAt.exists_error_iff
    (hx : FailsAt x front) :
    (∃ e, x = .error e) ↔ ∃ place ∈ front, ∃ e, place.offence = some e := by
  simp only [hx _, ← Option.isSome_iff_exists, List.findSome?_isSome_iff]

end

/-! ## Data -/

theorem toValue_eq_nil_iff
    {d : Datum} :
    d.toValue = .ok .nil ↔ d.isNothing := by
  fun_induction isNothing d with
  | case1 => simp [toValue]
  | case2 content ih => rw [toValue, ih]
  | case3 d habsent hwrapped =>
      refine iff_of_false ?_ Bool.false_ne_true
      cases d with
      | absent => exact absurd rfl habsent
      | wrapped content => exact absurd rfl (hwrapped content)
      | unsigned n =>
          rw [toValue, Value.ofUnsigned]
          split <;> simp
      | sequence | map | mapSteps | record =>
          rw [toValue, bind_eq_ok_iff]
          simp [pure, Except.pure, MapBuilder.finish]
      | _ => simp [toValue]

theorem failsAt_itemValues
    {items : List Datum} (h : ∀ d ∈ items, FailsAt d.toValue d.places) :
    FailsAt (itemValues items) (itemPlaces items) := by
  induction items with
  | nil => exact failsAt_ok []
  | cons d rest ih =>
      rw [List.forall_mem_cons] at h
      rw [itemValues, itemPlaces]
      exact h.1.bind fun v _ => (ih h.2).bind_pure (v :: ·)

theorem failsAt_keyText
    {d : Datum} (h : FailsAt d.toValue d.places) :
    FailsAt d.keyText (d.places ++ [.key d]) := by
  refine h.bind fun v hv => ?_
  have hnothing : d.isNothing ↔ v = .nil := by
    rw [← toValue_eq_nil_iff, hv, Except.ok.injEq]
  cases v with
  | nil =>
      have hoffence : (Place.key d).offence = some (.argument .nilKey) := if_pos (hnothing.mpr rfl)
      exact failsAt_error hoffence []
  | _ => exact (failsAt_ok _).after (if_neg fun h => absurd (hnothing.mp h) (by simp))

theorem failsAt_addSteps
    {steps : List (MapStep Datum)}
    (h : ∀ step ∈ steps, FailsAt step.content.toValue step.content.places) (b : MapBuilder) :
    FailsAt (addSteps b steps) (stepPlaces b.key?.isSome steps) := by
  induction steps generalizing b with
  | nil => exact failsAt_ok b
  | cons step rest ih =>
      rw [List.forall_mem_cons] at h
      cases step with
      | key d =>
          rw [addSteps_key, stepPlaces, List.append_cons]
          exact (failsAt_keyText h.1).bind fun key _ => ih h.2 _
      | value d =>
          rw [stepPlaces]
          cases hkey : b.key? with
          | none =>
              rw [addSteps_value_of_none hkey]
              exact failsAt_error rfl _
          | some key =>
              rw [addSteps_value hkey]
              exact h.1.bind fun v _ => ih h.2 _

theorem failsAt_addFields
    {fields : List (String × Datum)} (h : ∀ f ∈ fields, FailsAt f.2.toValue f.2.places)
    (b : MapBuilder) :
    FailsAt (addFields b fields) (fieldPlaces fields) := by
  induction fields generalizing b with
  | nil => exact failsAt_ok b
  | cons f rest ih =>
      rw [List.forall_mem_cons] at h
      rw [addFields, fieldPlaces]
      exact h.1.bind fun v _ => ih h.2 _

theorem stepPlaces_entrySteps (entries : List (Datum × Datum)) :
    stepPlaces false (entrySteps entries) = entryPlaces entries := by
  induction entries with
  | nil => rfl
  | cons e rest ih =>
      rw [entrySteps_cons, stepPlaces, stepPlaces, if_pos rfl, ih, entryPlaces]

theorem parts_entrySteps (entries : List (Datum × Datum)) :
    (mapSteps (entrySteps entries)).parts = (map entries).parts := by
  rw [parts, parts, entrySteps, List.map_flatMap]
  rfl

/-- A datum is handed over up to the first of its places that offends. -/
theorem failsAt_toValue (d : Datum) : FailsAt d.toValue d.places := by
  have ih : ∀ p ∈ d.parts, FailsAt p.toValue p.places := fun p hp => failsAt_toValue p
  -- The entries of a map are handed over as steps, and the data in these are its parts.
  have hsteps {steps : List (MapStep Datum)} (h : (mapSteps steps).parts = d.parts) :
      FailsAt (mapSteps steps).toValue (stepPlaces false steps) := by
    rw [toValue]
    refine (failsAt_addSteps (fun step hstep => ih _ ?_) {}).bind_pure MapBuilder.finish
    exact h ▸ List.mem_map_of_mem hstep
  cases d with
  | wrapped content => exact (ih content List.mem_cons_self).after rfl
  | sequence items =>
      rw [toValue, places]
      exact ((failsAt_itemValues ih).bind_pure Value.list).after rfl
  | map entries =>
      rw [toValue_map, places, ← stepPlaces_entrySteps]
      exact (hsteps (parts_entrySteps entries)).after rfl
  | mapSteps steps => exact (hsteps rfl).after rfl
  | record fields =>
      rw [toValue, places]
      refine FailsAt.after ?_ rfl
      refine (failsAt_addFields (fun f hf => ih f.2 ?_) {}).bind_pure MapBuilder.finish
      exact List.mem_map_of_mem hf
  | unsigned n =>
      have hplaces : (unsigned n).places = [.datum (unsigned n)] := rfl
      rw [toValue, hplaces, Value.ofUnsigned]
      split
      · next h => exact (failsAt_ok _).after (if_pos h)
      · next h =>
          have hoffence : (Place.datum (unsigned n)).offence =
              some (.argument (.outOfRange n.toNat)) := if_neg h
          exact failsAt_error hoffence []
  | wide type => exact failsAt_error rfl []
  | failing message => exact failsAt_error rfl []
  | _ => exact (failsAt_ok _).after rfl
termination_by sizeOf d
decreasing_by exact sizeOf_lt_of_mem_parts hp

end Datum
end Liquid
