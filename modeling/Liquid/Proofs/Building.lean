import Mathlib.Data.List.Perm.Basic
import Liquid.Datum
import Liquid.Proofs.Alike

/-!
# Building maps from keys and values

Every map is built as if its keys and values came one by one, the fields of a record with their
names for keys.  Built from data whose values are alike, step by step, two maps are alike; and a map
built from entries with distinct keys consists of these entries, in the order in which they came.
-/

namespace Liquid

theorem bind_eq_ok_iff
    {α β : Type} {x : Except Error α} {f : α → Except Error β} {b : β} :
    (x >>= f) = .ok b ↔ ∃ a, x = .ok a ∧ f a = .ok b := by
  cases x with
  | error e => simp [bind, Except.bind]
  | ok a => simp [bind, Except.bind]

/-! ## Setting a value -/

namespace Value

variable {key : String} {v : Value} {entries : List (String × Value)}

theorem mem_keys_insertEntry_iff
    {other : String} :
    other ∈ (insertEntry key v entries).map Prod.fst ↔
      other = key ∨ other ∈ entries.map Prod.fst := by
  induction entries with
  | nil => simp [insertEntry]
  | cons e rest ih =>
      rw [insertEntry]
      split
      · next h => simp [h]
      · rw [List.map_cons, List.mem_cons, ih, List.map_cons, List.mem_cons, or_left_comm]

theorem nodup_insertEntry
    (h : (entries.map Prod.fst).Nodup) :
    ((insertEntry key v entries).map Prod.fst).Nodup := by
  induction entries with
  | nil => simp [insertEntry]
  | cons e rest ih =>
      rw [List.map_cons, List.nodup_cons] at h
      rw [insertEntry]
      split
      · next heq =>
          rw [List.map_cons, List.nodup_cons]
          exact heq ▸ h
      · next hne =>
          rw [List.map_cons, List.nodup_cons, mem_keys_insertEntry_iff, not_or]
          exact ⟨⟨hne, h.1⟩, ih h.2⟩

theorem lookup_insertEntry
    (other : String) :
    (insertEntry key v entries).lookup other =
      if other = key then some v else entries.lookup other := by
  induction entries with
  | nil => exact lookup_cons_eq_ite (key, v) other
  | cons e rest ih =>
      rw [insertEntry, lookup_cons_eq_ite]
      split
      · next heq =>
          rw [lookup_cons_eq_ite, heq]
          split <;> rfl
      · next hne =>
          rw [lookup_cons_eq_ite, ih]
          by_cases h : other = e.1
          · rw [if_pos h, if_pos h, if_neg (h ▸ hne)]
          · rw [if_neg h, if_neg h]

/-- The value at a new key is set in a new entry at the end. -/
theorem insertEntry_of_not_mem
    (h : key ∉ entries.map Prod.fst) :
    insertEntry key v entries = entries ++ [(key, v)] := by
  induction entries with
  | nil => rfl
  | cons e rest ih =>
      rw [List.map_cons, List.mem_cons, not_or] at h
      rw [insertEntry, if_neg (Ne.symm h.1), ih h.2, List.cons_append]

theorem Alike.insertEntry
    {entries' : List (String × Value)} (h : (Value.map entries).Alike (.map entries'))
    {v' : Value} (hv : v.Alike v') (key : String) :
    (Value.map (Value.insertEntry key v entries)).Alike
      (.map (Value.insertEntry key v' entries')) := by
  obtain ⟨hnodup, hnodup', hkeys, hentries⟩ := map_iff.mp h
  refine .map (nodup_insertEntry hnodup) (nodup_insertEntry hnodup') ?_ ?_
  · intro other
    rw [mem_keys_insertEntry_iff, mem_keys_insertEntry_iff, hkeys]
  · intro other w w' hw hw'
    rw [lookup_insertEntry] at hw hw'
    split at hw
    · next heq =>
        rw [if_pos heq] at hw'
        exact Option.some.inj hw ▸ Option.some.inj hw' ▸ hv
    · next hne =>
        rw [if_neg hne] at hw'
        exact hentries other w w' hw hw'

end Value

/-! ## Alike maps under construction -/

namespace MapBuilder

/-- Two maps under construction have the same waiting key and alike entries. -/
structure Alike (b b' : MapBuilder) : Prop where
  entries : b.finish.Alike b'.finish
  key? : b.key? = b'.key?

theorem Alike.empty : Alike {} {} := by
  refine ⟨.map List.nodup_nil List.nodup_nil (fun _ => Iff.rfl) ?_, rfl⟩
  intro key v v' hv
  exact absurd hv (by simp)

theorem Alike.insert
    {b b' : MapBuilder} (h : b.Alike b') {v v' : Value} (hv : v.Alike v') (key : String) :
    (b.insert key v).Alike (b'.insert key v') :=
  ⟨Value.Alike.insertEntry h.entries hv key, h.key?⟩

/-- Sets the values at some keys, one after another. -/
def insertAll (b : MapBuilder) (entries : List (String × Value)) : MapBuilder :=
  entries.foldl (fun b e => b.insert e.1 e.2) b

theorem entries_insertAll
    {b : MapBuilder} {entries : List (String × Value)}
    (h : ((b.entries ++ entries).map Prod.fst).Nodup) :
    (b.insertAll entries).entries = b.entries ++ entries := by
  induction entries generalizing b with
  | nil => exact (List.append_nil b.entries).symm
  | cons e rest ih =>
      have hnew : e.1 ∉ b.entries.map Prod.fst := by
        rw [List.map_append, List.nodup_append] at h
        exact fun hmem => h.2.2 e.1 hmem e.1 List.mem_cons_self rfl
      have hentries : (b.insert e.1 e.2).entries = b.entries ++ [e] :=
        Value.insertEntry_of_not_mem hnew
      have hsplit : b.entries ++ e :: rest = b.entries ++ [e] ++ rest := by simp
      rw [insertAll, List.foldl_cons, hsplit, ← hentries]
      apply ih
      rwa [hentries, ← hsplit]

/-- A map with distinct keys keeps its entries in the order in which they come. -/
theorem finish_insertAll
    {entries : List (String × Value)} (h : (entries.map Prod.fst).Nodup) :
    (insertAll {} entries).finish = .map entries :=
  congrArg Value.map (@entries_insertAll {} entries h)

end MapBuilder

def MapStep.content {α : Type} : MapStep α → α
  | key a | value a => a

namespace Datum

/-! ## Keys -/

def keyText (d : Datum) : Except Error String := do
  match ← d.toValue with
  | .nil => .error (.argument .nilKey)
  | v => .ok v.display

theorem keyText_eq_ok_iff
    {d : Datum} {key : String} :
    d.keyText = .ok key ↔ ∃ v, d.toValue = .ok v ∧ v ≠ .nil ∧ v.display = key := by
  rw [keyText, bind_eq_ok_iff]
  apply exists_congr
  intro v
  cases v <;> simp

variable {b : MapBuilder}

theorem addSteps_key
    (d : Datum) (rest : List (MapStep Datum)) :
    addSteps b (.key d :: rest) =
      d.keyText >>= fun key => addSteps { b with key? := some key } rest := by
  rw [addSteps, keyText, bind_assoc]
  cases d.toValue with
  | error e => rfl
  | ok v => cases v <;> rfl

theorem addSteps_value
    {key : String} (hkey : b.key? = some key) (d : Datum) (rest : List (MapStep Datum)) :
    addSteps b (.value d :: rest) =
      d.toValue >>= fun v => addSteps ({ b with key? := none }.insert key v) rest := by
  rw [addSteps, MapBuilder.releaseKey, hkey]
  rfl

theorem addSteps_value_of_none
    (hkey : b.key? = none) (d : Datum) (rest : List (MapStep Datum)) :
    addSteps b (.value d :: rest) = .error (.argument .valueWithoutKey) := by
  rw [addSteps, MapBuilder.releaseKey, hkey]
  rfl

/-! ## Data with alike values -/

/-- If the first datum has a value, then the second has one that is alike. -/
def ValueAlike (d d' : Datum) : Prop :=
  ∀ v, d.toValue = .ok v → ∃ v', d'.toValue = .ok v' ∧ v.Alike v'

/-- Two steps give keys, or values, and their data have alike values. -/
inductive StepAlike : MapStep Datum → MapStep Datum → Prop
  | key {d d' : Datum} (h : d.ValueAlike d') : StepAlike (.key d) (.key d')
  | value {d d' : Datum} (h : d.ValueAlike d') : StepAlike (.value d) (.value d')

theorem ValueAlike.keyText
    {d d' : Datum} (h : d.ValueAlike d') {key : String} (hkey : d.keyText = .ok key) :
    d'.keyText = .ok key := by
  obtain ⟨v, hv, hne, hdisplay⟩ := keyText_eq_ok_iff.mp hkey
  obtain ⟨v', hv', halike⟩ := h v hv
  refine keyText_eq_ok_iff.mpr ⟨v', hv', ?_, halike.display_eq ▸ hdisplay⟩
  rintro rfl
  cases halike with
  | scalar => exact hne rfl

/-- Alike maps stay alike, step by step. -/
theorem exists_addSteps
    {steps steps' : List (MapStep Datum)} (hsteps : List.Forall₂ StepAlike steps steps')
    {b b' c : MapBuilder} (hb : b.Alike b') (h : addSteps b steps = .ok c) :
    ∃ c', addSteps b' steps' = .ok c' ∧ c.Alike c' := by
  induction hsteps generalizing b b' with
  | nil =>
      rw [addSteps] at h
      exact ⟨b', rfl, Except.ok.inj h ▸ hb⟩
  | cons hstep _ ih =>
      cases hstep with
      | key hd =>
          rw [addSteps_key, bind_eq_ok_iff] at h
          obtain ⟨key, hkey, hrest⟩ := h
          have hnext : MapBuilder.Alike { b with key? := some key } { b' with key? := some key } :=
            ⟨hb.entries, rfl⟩
          obtain ⟨c', hc', halike⟩ := ih hnext hrest
          refine ⟨c', ?_, halike⟩
          rw [addSteps_key, hd.keyText hkey]
          exact hc'
      | value hd =>
          cases hkey : b.key? with
          | none =>
              rw [addSteps_value_of_none hkey] at h
              exact absurd h (by simp)
          | some key =>
              rw [addSteps_value hkey, bind_eq_ok_iff] at h
              obtain ⟨v, hv, hrest⟩ := h
              obtain ⟨v', hv', hvalike⟩ := hd v hv
              have hnext : MapBuilder.Alike { b with key? := none } { b' with key? := none } :=
                ⟨hb.entries, rfl⟩
              obtain ⟨c', hc', halike⟩ := ih (hnext.insert hvalike key) hrest
              refine ⟨c', ?_, halike⟩
              rw [addSteps_value (hb.key? ▸ hkey), hv']
              exact hc'

theorem itemValues_eq_ok_iff
    {items : List Datum} {values : List Value} :
    itemValues items = .ok values ↔ List.Forall₂ (·.toValue = .ok ·) items values := by
  induction items generalizing values with
  | nil =>
      rw [itemValues, List.forall₂_nil_left_iff, Except.ok.injEq]
      exact eq_comm
  | cons d rest ih =>
      simp only [itemValues, bind_eq_ok_iff, List.forall₂_cons_left_iff, ih]
      constructor
      · rintro ⟨v, hv, values', hrest, heq⟩
        exact ⟨v, values', hv, hrest, (Except.ok.inj heq).symm⟩
      · rintro ⟨v, values', hv, hrest, rfl⟩
        exact ⟨v, hv, values', hrest, rfl⟩

theorem exists_itemValues
    {items items' : List Datum} (hitems : List.Forall₂ ValueAlike items items')
    {values : List Value} (h : itemValues items = .ok values) :
    ∃ values', itemValues items' = .ok values' ∧ List.Forall₂ Value.Alike values values' := by
  simp only [itemValues_eq_ok_iff] at h ⊢
  induction hitems generalizing values with
  | nil =>
      cases h
      exact ⟨[], .nil, .nil⟩
  | cons hd _ ih =>
      cases h with
      | cons hv hrest =>
          obtain ⟨v', hv', halike⟩ := hd _ hv
          obtain ⟨rest', hrest', halikes⟩ := ih hrest
          exact ⟨v' :: rest', .cons hv' hrest', .cons halike halikes⟩

/-! ## Entries and fields as steps -/

/-- The steps that give the entries of a map. -/
def entrySteps (entries : List (Datum × Datum)) : List (MapStep Datum) :=
  entries.flatMap fun e => [.key e.1, .value e.2]

theorem entrySteps_cons (e : Datum × Datum) (rest : List (Datum × Datum)) :
    entrySteps (e :: rest) = .key e.1 :: .value e.2 :: entrySteps rest := by
  rfl

/-- The steps that give the fields of a record, with their names for keys. -/
def fieldSteps (fields : List (String × Datum)) : List (MapStep Datum) :=
  entrySteps (fields.map fun f => (.text f.1, f.2))

theorem addEntries_eq_addSteps
    (b : MapBuilder) (entries : List (Datum × Datum)) :
    addEntries b entries = addSteps b (entrySteps entries) := by
  induction entries generalizing b with
  | nil => rfl
  | cons e rest ih =>
      obtain ⟨key, content⟩ := e
      simp only [entrySteps_cons, addEntries, addSteps, ih]

theorem addFields_eq_addSteps
    {b : MapBuilder} (hb : b.key? = none) (fields : List (String × Datum)) :
    addFields b fields = addSteps b (fieldSteps fields) := by
  induction fields generalizing b with
  | nil => rfl
  | cons f rest ih =>
      obtain ⟨name, content⟩ := f
      have hsteps : fieldSteps ((name, content) :: rest) =
          .key (.text name) :: .value content :: fieldSteps rest := rfl
      have hname : (text name).keyText = .ok name := rfl
      obtain ⟨entries, key?⟩ := b
      obtain rfl : key? = none := hb
      calc addFields ⟨entries, none⟩ ((name, content) :: rest)
          = content.toValue >>= fun v => addFields (.insert ⟨entries, none⟩ name v) rest := by
            rw [addFields]
        _ = content.toValue >>= fun v =>
              addSteps (.insert ⟨entries, none⟩ name v) (fieldSteps rest) := by
            congr 1
            funext v
            exact ih rfl
        _ = addSteps ⟨entries, some name⟩ (.value content :: fieldSteps rest) :=
            (addSteps_value (b := ⟨entries, some name⟩) rfl content _).symm
        _ = addSteps ⟨entries, none⟩ (fieldSteps ((name, content) :: rest)) := by
            rw [hsteps, addSteps_key, hname]
            rfl

theorem toValue_map (entries : List (Datum × Datum)) :
    (map entries).toValue = (mapSteps (entrySteps entries)).toValue := by
  rw [toValue, toValue, addEntries_eq_addSteps]

theorem toValue_record (fields : List (String × Datum)) :
    (record fields).toValue = (mapSteps (fieldSteps fields)).toValue := by
  rw [toValue, toValue, addFields_eq_addSteps rfl]

/-! ## The same shape over data with alike values -/

theorem valueAlike_mapSteps
    {steps steps' : List (MapStep Datum)} (h : List.Forall₂ StepAlike steps steps') :
    (mapSteps steps).ValueAlike (mapSteps steps') := by
  intro v hv
  rw [toValue, bind_eq_ok_iff] at hv
  obtain ⟨b, hb, hfinish⟩ := hv
  obtain ⟨b', hb', halike⟩ := exists_addSteps h .empty hb
  refine ⟨b'.finish, ?_, Except.ok.inj hfinish ▸ halike.entries⟩
  rw [toValue, hb']
  rfl

theorem valueAlike_sequence
    {items items' : List Datum} (h : List.Forall₂ ValueAlike items items') :
    (sequence items).ValueAlike (sequence items') := by
  intro v hv
  rw [toValue, bind_eq_ok_iff] at hv
  obtain ⟨values, hvalues, hlist⟩ := hv
  obtain ⟨values', hvalues', halike⟩ := exists_itemValues h hvalues
  refine ⟨.list values', ?_, Except.ok.inj hlist ▸ Value.Alike.list_iff.mpr halike⟩
  rw [toValue, hvalues']
  rfl

theorem valueAlike_map
    {entries entries' : List (Datum × Datum)}
    (h : List.Forall₂ (fun e e' => e.1.ValueAlike e'.1 ∧ e.2.ValueAlike e'.2) entries entries') :
    (map entries).ValueAlike (map entries') := by
  have hsteps : List.Forall₂ StepAlike (entrySteps entries) (entrySteps entries') := by
    induction h with
    | nil => exact .nil
    | cons he _ ih => exact .cons (.key he.1) (.cons (.value he.2) ih)
  intro v hv
  rw [toValue_map] at hv ⊢
  exact valueAlike_mapSteps hsteps v hv

theorem valueAlike_record
    {fields fields' : List (String × Datum)}
    (h : List.Forall₂ (fun f f' => f.1 = f'.1 ∧ f.2.ValueAlike f'.2) fields fields') :
    (record fields).ValueAlike (record fields') := by
  have htext (name : String) : (text name).ValueAlike (text name) := by
    intro v hv
    exact ⟨v, hv, Except.ok.inj hv ▸ .scalar Bool.false_ne_true⟩
  have hsteps : List.Forall₂ StepAlike (fieldSteps fields) (fieldSteps fields') := by
    induction h with
    | nil => exact .nil
    | @cons f f' _ _ hf _ ih =>
        have hname : (text f.1).ValueAlike (text f'.1) := hf.1 ▸ htext f.1
        exact .cons (.key hname) (.cons (.value hf.2) ih)
  intro v hv
  rw [toValue_record] at hv ⊢
  exact valueAlike_mapSteps hsteps v hv

theorem valueAlike_wrapped
    {d d' : Datum} (h : d.ValueAlike d') :
    (wrapped d).ValueAlike (wrapped d') := by
  intro v hv
  rw [toValue] at hv ⊢
  exact h v hv

/-! ## Parts -/

/-- The data of which a datum directly consists. -/
def parts : Datum → List Datum
  | wrapped content => [content]
  | sequence items => items
  | map entries => entries.flatMap fun e => [e.1, e.2]
  | mapSteps steps => steps.map MapStep.content
  | record fields => fields.map Prod.snd
  | _ => []

theorem key_mem_parts
    {entries : List (Datum × Datum)} {e : Datum × Datum} (he : e ∈ entries) :
    e.1 ∈ (map entries).parts :=
  List.mem_flatMap.mpr ⟨e, he, List.mem_cons_self⟩

theorem content_mem_parts
    {entries : List (Datum × Datum)} {e : Datum × Datum} (he : e ∈ entries) :
    e.2 ∈ (map entries).parts :=
  List.mem_flatMap.mpr ⟨e, he, List.mem_cons_of_mem e.1 List.mem_cons_self⟩

theorem sizeOf_lt_of_mem_parts
    {d p : Datum} (hp : p ∈ d.parts) :
    sizeOf p < sizeOf d := by
  cases d with
  | wrapped content =>
      obtain rfl := List.mem_singleton.mp hp
      simp only [wrapped.sizeOf_spec]
      omega
  | sequence items =>
      have hlt : sizeOf p < sizeOf items := List.sizeOf_lt_of_mem hp
      simp only [sequence.sizeOf_spec]
      omega
  | map entries =>
      obtain ⟨⟨key, content⟩, he, hp⟩ := List.mem_flatMap.mp hp
      have hlt := List.sizeOf_lt_of_mem he
      simp only [List.mem_cons, List.not_mem_nil, or_false] at hp
      simp only [Prod.mk.sizeOf_spec, map.sizeOf_spec] at hlt ⊢
      rcases hp with rfl | rfl <;> omega
  | mapSteps steps =>
      obtain ⟨step, hstep, rfl⟩ := List.mem_map.mp hp
      have hlt := List.sizeOf_lt_of_mem hstep
      cases step <;> simp only [MapStep.content, MapStep.key.sizeOf_spec, MapStep.value.sizeOf_spec,
        mapSteps.sizeOf_spec] at hlt ⊢ <;> omega
  | record fields =>
      obtain ⟨⟨name, content⟩, hf, rfl⟩ := List.mem_map.mp hp
      have hlt := List.sizeOf_lt_of_mem hf
      simp only [Prod.mk.sizeOf_spec, record.sizeOf_spec] at hlt ⊢
      omega
  | _ => exact absurd hp List.not_mem_nil

theorem valueAlike_of_scalar
    {d : Datum} (h : ∀ v, d.toValue = .ok v → ¬v.isCollection) :
    d.ValueAlike d := by
  intro v hv
  exact ⟨v, hv, .scalar (h v hv)⟩

/-- A datum that has a value has one that is alike to itself. -/
theorem valueAlike_refl (d : Datum) : d.ValueAlike d := by
  have ih : ∀ p ∈ d.parts, p.ValueAlike p := fun p hp => valueAlike_refl p
  cases d with
  | wrapped content => exact valueAlike_wrapped (ih content List.mem_cons_self)
  | sequence items => exact valueAlike_sequence (List.forall₂_same.mpr ih)
  | map entries =>
      refine valueAlike_map (List.forall₂_same.mpr fun e he => ?_)
      exact ⟨ih e.1 (key_mem_parts he), ih e.2 (content_mem_parts he)⟩
  | mapSteps steps =>
      refine valueAlike_mapSteps (List.forall₂_same.mpr fun step hstep => ?_)
      have hcontent := ih step.content (List.mem_map_of_mem hstep)
      cases step with
      | key d => exact .key hcontent
      | value d => exact .value hcontent
  | record fields =>
      refine valueAlike_record (List.forall₂_same.mpr fun f hf => ⟨rfl, ?_⟩)
      exact ih f.2 (List.mem_map_of_mem hf)
  | unsigned n =>
      apply valueAlike_of_scalar
      intro v hv
      rw [toValue, Value.ofUnsigned] at hv
      split at hv
      · exact Except.ok.inj hv ▸ Bool.false_ne_true
      · exact absurd hv (by simp)
  | wide type => exact valueAlike_of_scalar fun v hv => absurd hv (by simp [toValue])
  | failing message => exact valueAlike_of_scalar fun v hv => absurd hv (by simp [toValue])
  | _ => exact valueAlike_of_scalar fun v hv => Except.ok.inj hv ▸ Bool.false_ne_true
termination_by sizeOf d
decreasing_by exact sizeOf_lt_of_mem_parts hp

end Datum
end Liquid
