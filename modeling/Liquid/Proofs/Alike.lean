import Mathlib.Data.List.Forall2
import Mathlib.Data.List.Nodup
import Mathlib.Data.List.Sort
import Liquid.Render

/-!
# Values that differ in the order of entries

Two values are alike if they are equal up to the order of the entries of maps, at every level.
Neither their texts nor their parts nor any comparison tell such values apart.
-/

namespace Liquid

/-! ## Entries with distinct keys -/

section

variable {α : Type} {entries : List (String × α)}

theorem lookup_cons_eq_ite
    (e : String × α) (key : String) :
    (e :: entries).lookup key = if key = e.1 then some e.2 else entries.lookup key := by
  rw [List.lookup_cons]
  by_cases h : key = e.1
  · rw [if_pos h, beq_iff_eq.mpr h]
  · rw [if_neg h, beq_eq_false_iff_ne.mpr h]

theorem isSome_lookup_iff
    {key : String} :
    (entries.lookup key).isSome ↔ key ∈ entries.map Prod.fst := by
  induction entries with
  | nil => simp
  | cons e rest ih =>
      rw [lookup_cons_eq_ite, List.map_cons, List.mem_cons, ← ih]
      by_cases h : key = e.1 <;> simp [h]

theorem mem_iff_lookup
    (h : (entries.map Prod.fst).Nodup) {key : String} {a : α} :
    (key, a) ∈ entries ↔ entries.lookup key = some a := by
  rw [List.lookup_eq_some_iff]
  constructor
  · intro hmem
    obtain ⟨front, back, rfl⟩ := List.append_of_mem hmem
    refine ⟨front, back, rfl, fun e he => ?_⟩
    rw [List.map_append, List.nodup_append] at h
    have hne := h.2.2 e.1 (List.mem_map_of_mem he) key List.mem_cons_self
    simpa using hne.symm
  · rintro ⟨front, back, rfl, -⟩
    exact List.mem_append_right front List.mem_cons_self

theorem lookup_map_snd
    {β : Type} (f : α → β) (key : String) :
    (entries.map fun e => (e.1, f e.2)).lookup key = (entries.lookup key).map f := by
  induction entries with
  | nil => rfl
  | cons e rest ih =>
      rw [List.map_cons, lookup_cons_eq_ite, lookup_cons_eq_ite, ih]
      split <;> rfl

/-- Lists with the same keys and related values under each key have related entries. -/
theorem rel_lookup
    {r : α → α → Prop} {entries' : List (String × α)}
    (hkeys : ∀ key, key ∈ entries.map Prod.fst ↔ key ∈ entries'.map Prod.fst)
    (hentries : ∀ key a a', entries.lookup key = some a → entries'.lookup key = some a' → r a a')
    (key : String) :
    Option.Rel r (entries.lookup key) (entries'.lookup key) := by
  have hsome : (entries.lookup key).isSome ↔ (entries'.lookup key).isSome := by
    rw [isSome_lookup_iff, isSome_lookup_iff]
    exact hkeys key
  cases hleft : entries.lookup key with
  | none =>
      cases hright : entries'.lookup key with
      | none => exact .none
      | some a' => simp [hleft, hright] at hsome
  | some a =>
      cases hright : entries'.lookup key with
      | none => simp [hleft, hright] at hsome
      | some a' => exact .some (hentries key a a' hleft hright)

theorem length_eq_of_keys
    {β : Type} {entries' : List (String × β)} (h : (entries.map Prod.fst).Nodup)
    (h' : (entries'.map Prod.fst).Nodup)
    (hkeys : ∀ key, key ∈ entries.map Prod.fst ↔ key ∈ entries'.map Prod.fst) :
    entries.length = entries'.length := by
  have hperm := (List.perm_ext_iff_of_nodup h h').mpr hkeys
  simpa using hperm.length_eq

theorem perm_of_lookup_eq
    {entries' : List (String × α)} (h : (entries.map Prod.fst).Nodup)
    (h' : (entries'.map Prod.fst).Nodup)
    (hlookup : ∀ key, entries.lookup key = entries'.lookup key) :
    entries.Perm entries' := by
  apply (List.perm_ext_iff_of_nodup h.of_map h'.of_map).mpr
  rintro ⟨key, a⟩
  rw [mem_iff_lookup h, mem_iff_lookup h', hlookup]

end

theorem forall₂_of_getElem?
    {α β : Type} {r : α → β → Prop} {l : List α} {l' : List β} (hlength : l.length = l'.length)
    (h : ∀ (i : Nat) a b, l[i]? = some a → l'[i]? = some b → r a b) :
    List.Forall₂ r l l' := by
  rw [List.forall₂_iff_get]
  refine ⟨hlength, fun i hi hi' => ?_⟩
  exact h i _ _ (List.getElem?_eq_getElem hi) (List.getElem?_eq_getElem hi')

theorem rel_getElem?_of_forall₂
    {α β : Type} {r : α → β → Prop} {l : List α} {l' : List β} (h : List.Forall₂ r l l') (i : Nat) :
    Option.Rel r l[i]? l'[i]? := by
  induction h generalizing i with
  | nil => exact .none
  | cons hab _ ih =>
      cases i with
      | zero => exact .some hab
      | succ i => exact ih i

theorem map_eq_of_rel
    {α β γ : Type} {f : α → γ} {g : β → γ} {a? : Option α} {b? : Option β}
    (h : Option.Rel (fun a b => f a = g b) a? b?) :
    a?.map f = b?.map g := by
  cases h with
  | none => rfl
  | some h => exact congrArg some h

namespace Value

/-! ## Texts of sorted entries -/

/-- Texts are ordered by their keys. -/
def KeyLe (e f : String × String) : Prop :=
  e.1 ≤ f.1

instance : DecidableRel KeyLe := fun e f => inferInstanceAs (Decidable (e.1 ≤ f.1))

instance : Std.Total KeyLe := ⟨fun e f => String.le_total e.1 f.1⟩

instance : IsTrans (String × String) KeyLe := ⟨fun _ _ _ => String.le_trans⟩

theorem sortEntries_eq_insertionSort
    (entries : List (String × String)) :
    sortEntries entries = entries.insertionSort KeyLe := by
  have hplace (e : String × String) (l : List (String × String)) :
      placeEntry e l = l.orderedInsert KeyLe e := by
    induction l with
    | nil => rfl
    | cons f rest ih => rw [placeEntry, List.orderedInsert_cons, ih]; rfl
  rw [sortEntries, List.insertionSort, funext fun e => funext (hplace e)]

/-- The order in which entries with distinct keys come makes no difference to their text. -/
theorem joinSorted_eq
    {entries entries' : List (String × String)} (h : (entries.map Prod.fst).Nodup)
    (h' : (entries'.map Prod.fst).Nodup)
    (hlookup : ∀ key, entries.lookup key = entries'.lookup key) :
    joinSorted entries = joinSorted entries' := by
  have hperm := perm_of_lookup_eq h h' hlookup
  have hsorted : (entries.insertionSort KeyLe).Perm (entries'.insertionSort KeyLe) :=
    ((List.perm_insertionSort KeyLe entries).trans hperm).trans
      (List.perm_insertionSort KeyLe entries').symm
  have hsame : sortEntries entries = sortEntries entries' := by
    rw [sortEntries_eq_insertionSort, sortEntries_eq_insertionSort]
    apply List.Perm.eq_of_pairwise _ (List.pairwise_insertionSort KeyLe entries)
      (List.pairwise_insertionSort KeyLe entries') hsorted
    rintro ⟨key, s⟩ ⟨key', s'⟩ hmem hmem' hle hge
    obtain rfl : key = key' := String.le_antisymm hle hge
    rw [List.mem_insertionSort, mem_iff_lookup h] at hmem
    rw [List.mem_insertionSort, mem_iff_lookup h', ← hlookup, hmem] at hmem'
    rw [Option.some.inj hmem']
  rw [joinSorted, joinSorted, hsame]

theorem displayEntries_eq_map
    (entries : List (String × Value)) :
    displayEntries entries = entries.map fun e => (e.1, e.2.display) := by
  induction entries with
  | nil => rfl
  | cons e rest ih => rw [displayEntries, ih, List.map_cons]

theorem displayItems_congr
    {items items' : List Value}
    (h : List.Forall₂ (fun v v' => v.display = v'.display) items items') :
    displayItems items = displayItems items' := by
  induction h with
  | nil => rfl
  | cons hv _ ih => rw [displayItems, displayItems, hv, ih]

/-! ## Alike values -/

def isCollection : Value → Bool
  | list _ | map _ => true
  | _ => false

/-- Two values are equal up to the order of the entries of maps, at every level. -/
inductive Alike : Value → Value → Prop
  | scalar {v : Value} (h : ¬v.isCollection) : Alike v v
  | list {items items' : List Value} (hlength : items.length = items'.length)
    (hitems : ∀ (i : Nat) v v', items[i]? = some v → items'[i]? = some v' → Alike v v') :
    Alike (list items) (list items')
  | map {entries entries' : List (String × Value)} (hnodup : (entries.map Prod.fst).Nodup)
    (hnodup' : (entries'.map Prod.fst).Nodup)
    (hkeys : ∀ key, key ∈ entries.map Prod.fst ↔ key ∈ entries'.map Prod.fst)
    (hentries : ∀ key v v', entries.lookup key = some v → entries'.lookup key = some v' →
      Alike v v') :
    Alike (map entries) (map entries')

namespace Alike

variable {v v' w w' : Value}

theorem trans
    {u : Value} (huv : u.Alike v) (hvw : v.Alike w) :
    u.Alike w := by
  induction huv generalizing w with
  | scalar h => exact hvw
  | @list items mid hlength hitems ih =>
      cases hvw with
      | scalar h => exact absurd rfl h
      | @list _ items' hlength' hitems' =>
          refine .list (hlength.trans hlength') fun i a c ha hc => ?_
          have hi : i < mid.length := hlength ▸ (List.getElem?_eq_some_iff.mp ha).1
          have hb := List.getElem?_eq_getElem hi
          exact ih i a _ ha hb (hitems' i _ c hb hc)
  | @map entries mid hnodup hnodup' hkeys hentries ih =>
      cases hvw with
      | scalar h => exact absurd rfl h
      | @map _ entries' _ hnodup'' hkeys' hentries' =>
          refine .map hnodup hnodup'' (fun key => (hkeys key).trans (hkeys' key)) ?_
          intro key a c ha hc
          have hkey : key ∈ mid.map Prod.fst := by
            rw [hkeys', ← isSome_lookup_iff, hc, Option.isSome_some]
          obtain ⟨b, hb⟩ := Option.isSome_iff_exists.mp (isSome_lookup_iff.mpr hkey)
          exact ih key a b ha hb (hentries' key b c hb hc)

theorem isCollection_eq (h : v.Alike v') : v.isCollection = v'.isCollection := by
  cases h <;> rfl

theorem eq_of_not_isCollection
    (h : v.Alike v') (hv : ¬v.isCollection) :
    v = v' := by
  cases h with
  | scalar => rfl
  | list => exact absurd rfl hv
  | map => exact absurd rfl hv

theorem isTruthy_eq (h : v.Alike v') : v.isTruthy = v'.isTruthy := by
  cases h <;> rfl

theorem list_iff
    {items items' : List Value} :
    (Value.list items).Alike (.list items') ↔ List.Forall₂ Alike items items' := by
  constructor
  · intro h
    cases h with
    | scalar h => exact absurd rfl h
    | list hlength hitems => exact forall₂_of_getElem? hlength hitems
  · intro h
    refine .list h.length_eq fun i a b ha hb => ?_
    have hrel := rel_getElem?_of_forall₂ h i
    rw [ha, hb] at hrel
    cases hrel with
    | some hab => exact hab

theorem map_iff
    {entries entries' : List (String × Value)} :
    (Value.map entries).Alike (.map entries') ↔
      (entries.map Prod.fst).Nodup ∧ (entries'.map Prod.fst).Nodup ∧
        (∀ key, key ∈ entries.map Prod.fst ↔ key ∈ entries'.map Prod.fst) ∧
          ∀ key v v', entries.lookup key = some v → entries'.lookup key = some v' →
            v.Alike v' := by
  constructor
  · intro h
    cases h with
    | scalar h => exact absurd rfl h
    | map hnodup hnodup' hkeys hentries => exact ⟨hnodup, hnodup', hkeys, hentries⟩
  · rintro ⟨hnodup, hnodup', hkeys, hentries⟩
    exact .map hnodup hnodup' hkeys hentries

theorem items (h : v.Alike v') : List.Forall₂ Alike v.items v'.items := by
  cases h with
  | @scalar v hv =>
      cases v <;> first | exact .nil | exact absurd rfl hv
  | list hlength hitems => exact forall₂_of_getElem? hlength hitems
  | map => exact .nil

/-! ## Parts -/

theorem rel_child?
    (h : v.Alike v') (key : String) :
    Option.Rel Alike (v.child? key) (v'.child? key) := by
  cases h with
  | @scalar v hv =>
      cases v <;> first | exact .none | exact absurd rfl hv
  | @list items items' hlength hitems =>
      have hrel := rel_getElem?_of_forall₂ (forall₂_of_getElem? hlength hitems)
      rw [Value.child?, Value.child?]
      split
      · rw [List.head?_eq_getElem?, List.head?_eq_getElem?]
        exact hrel 0
      · split
        · rw [List.getLast?_eq_getElem?, List.getLast?_eq_getElem?, hlength]
          exact hrel _
        · split
          · exact hrel _
          · exact .none
  | map hnodup hnodup' hkeys hentries => exact rel_lookup hkeys hentries key

theorem rel_follow?
    (h : v.Alike v') (path : List String) :
    Option.Rel Alike (v.follow? path) (v'.follow? path) := by
  induction path generalizing v v' with
  | nil => exact .some h
  | cons key rest ih =>
      rw [follow?, follow?]
      have hrel := h.rel_child? key
      generalize v.child? key = child, v'.child? key = child' at hrel ⊢
      cases hrel with
      | none => exact .none
      | some hchild => exact ih hchild

/-! ## Texts -/

theorem display_eq (h : v.Alike v') : v.display = v'.display := by
  induction h with
  | scalar => rfl
  | list hlength hitems ih =>
      rw [display, display]
      exact displayItems_congr (forall₂_of_getElem? hlength ih)
  | map hnodup hnodup' hkeys hentries ih =>
      rw [display, display, displayEntries_eq_map, displayEntries_eq_map]
      apply joinSorted_eq
      · rwa [List.map_map]
      · rwa [List.map_map]
      · intro key
        rw [lookup_map_snd, lookup_map_snd]
        exact map_eq_of_rel (rel_lookup hkeys ih key)

/-! ## Comparisons -/

theorem strictEqItems_congr
    {as as' bs bs' : List Value}
    (ha : List.Forall₂
      (fun a a' => ∀ {b b' : Value}, b.Alike b' → a.strictEq b = a'.strictEq b') as as')
    (hb : List.Forall₂ Alike bs bs') :
    strictEqItems as bs = strictEqItems as' bs' := by
  induction ha generalizing bs bs' with
  | nil => cases hb <;> rfl
  | cons ha _ ih =>
      cases hb with
      | nil => rfl
      | cons hb hbs => rw [strictEqItems, strictEqItems, ha hb, ih hbs]

theorem strictEqEntries_iff
    {entries others : List (String × Value)} (h : (entries.map Prod.fst).Nodup) :
    strictEqEntries entries others ↔
      ∀ key, (entries.lookup key).all fun a => (others.lookup key).any fun b => a.strictEq b := by
  have hall : strictEqEntries entries others ↔
      ∀ e ∈ entries, (others.lookup e.1).any fun b => e.2.strictEq b := by
    clear h
    induction entries with
    | nil => simp [strictEqEntries]
    | cons e rest ih =>
        rw [List.forall_mem_cons, ← ih, strictEqEntries]
        cases others.lookup e.1 <;> simp
  rw [hall]
  constructor
  · intro hmem key
    cases ha : entries.lookup key with
    | none => rfl
    | some a => exact hmem (key, a) ((mem_iff_lookup h).mpr ha)
  · rintro hkey ⟨key, a⟩ hmem
    have hany := hkey key
    rwa [(mem_iff_lookup h).mp hmem] at hany

theorem strictEq_of_isCollection
    (hv : ¬v.isCollection) (hw : w.isCollection) :
    v.strictEq w = false ∧ w.strictEq v = false := by
  cases w <;> cases v <;>
    first | exact ⟨rfl, rfl⟩ | exact absurd rfl hv | exact absurd hw Bool.false_ne_true

theorem strictEq_eq
    (hv : v.Alike v') (hw : w.Alike w') :
    v.strictEq w = v'.strictEq w' := by
  induction hv generalizing w w' with
  | @scalar v hs =>
      by_cases hcollection : w.isCollection
      · have hcollection' : w'.isCollection := hw.isCollection_eq ▸ hcollection
        rw [(strictEq_of_isCollection hs hcollection).1,
          (strictEq_of_isCollection hs hcollection').1]
      · rw [hw.eq_of_not_isCollection hcollection]
  | list hlength hitems ih =>
      cases hw with
      | scalar hs =>
          rw [(strictEq_of_isCollection hs rfl).2, (strictEq_of_isCollection hs rfl).2]
      | list hlength' hitems' =>
          rw [strictEq, strictEq]
          exact strictEqItems_congr (forall₂_of_getElem? hlength ih)
            (forall₂_of_getElem? hlength' hitems')
      | map => rfl
  | @map entries entries' hnodup hnodup' hkeys hentries ih =>
      cases hw with
      | scalar hs =>
          rw [(strictEq_of_isCollection hs rfl).2, (strictEq_of_isCollection hs rfl).2]
      | list => rfl
      | @map others others' hothers hothers' hkeys' hentries' =>
          have hlength := length_eq_of_keys hnodup hnodup' hkeys
          have hlength' := length_eq_of_keys hothers hothers' hkeys'
          rw [strictEq, strictEq, hlength, hlength']
          congr 1
          rw [Bool.eq_iff_iff, strictEqEntries_iff hnodup, strictEqEntries_iff hnodup']
          apply forall_congr'
          intro key
          have hrel := rel_lookup hkeys ih key
          have hrel' := rel_lookup hkeys' hentries' key
          generalize entries.lookup key = a, entries'.lookup key = a' at hrel ⊢
          generalize others.lookup key = b, others'.lookup key = b' at hrel' ⊢
          cases hrel with
          | none => rfl
          | some ha =>
              cases hrel' with
              | none => rfl
              | some hb => simp only [Option.all_some, Option.any_some, ha hb]

/-- Equality across kinds of numbers does not concern lists and maps. -/
theorem looseEq_of_isCollection
    (h : v.isCollection ∨ w.isCollection) :
    v.looseEq w = v.strictEq w := by
  cases v <;> cases w <;>
    first | rfl | exact absurd h (by simp [isCollection])

theorem looseEq_eq
    (hv : v.Alike v') (hw : w.Alike w') :
    v.looseEq w = v'.looseEq w' := by
  by_cases h : v.isCollection ∨ w.isCollection
  · have h' : v'.isCollection ∨ w'.isCollection := by
      rwa [← hv.isCollection_eq, ← hw.isCollection_eq]
    rw [looseEq_of_isCollection h, looseEq_of_isCollection h', strictEq_eq hv hw]
  · obtain ⟨hv', hw'⟩ := not_or.mp h
    rw [hv.eq_of_not_isCollection hv', hw.eq_of_not_isCollection hw']

theorem contains_of_isCollection
    (hv : ¬v.isCollection) (hw : w.isCollection) :
    v.contains w = false := by
  cases v <;> cases w <;>
    first | rfl | exact absurd rfl hv | exact absurd hw Bool.false_ne_true

theorem contains_eq
    (hv : v.Alike v') (hw : w.Alike w') :
    v.contains w = v'.contains w' := by
  cases hv with
  | scalar hs =>
      by_cases h : w.isCollection
      · have h' : w'.isCollection := hw.isCollection_eq ▸ h
        rw [contains_of_isCollection hs h, contains_of_isCollection hs h']
      · rw [hw.eq_of_not_isCollection h]
  | list hlength hitems =>
      have hrel := forall₂_of_getElem? hlength hitems
      clear hlength hitems
      rw [contains, contains]
      induction hrel with
      | nil => rfl
      | cons hitem _ ih => rw [List.any_cons, List.any_cons, looseEq_eq hitem hw, ih]
  | map => cases w <;> cases w' <;> rfl

theorem forms_of_isCollection
    (hv : v.isCollection) :
    v.decimalBeside? w = none ∧ v.toBinary64? = none := by
  cases v <;> first | exact absurd hv Bool.false_ne_true | exact ⟨rfl, rfl⟩

/-- Lists and maps have no order. -/
theorem compare?_of_isCollection
    (h : v.isCollection ∨ w.isCollection) :
    v.compare? w = none := by
  have hnumbers : v.compareNumbers? w = none := by
    unfold compareNumbers?
    rcases h with h | h
    · obtain ⟨hdecimal, hfloat⟩ := forms_of_isCollection (w := w) h
      rw [hdecimal, hfloat]
    · obtain ⟨hdecimal, hfloat⟩ := forms_of_isCollection (w := v) h
      rw [hdecimal, hfloat]
      cases v.decimalBeside? w <;> cases v.toBinary64? <;> rfl
  rw [← hnumbers]
  cases v <;> cases w <;>
    first | rfl | exact absurd h (by simp [isCollection])

end Alike
end Value
end Liquid
