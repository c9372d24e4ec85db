import Mathlib.Data.List.Induction
import Liquid.Proofs.Building

/-!
# Keys and values given one by one

A map may be built from keys and values that are given in any order.  A value belongs to the key
right before it, and without one it is refused.  Of several values for one key the last counts, and
a key that no value follows leaves no trace.  The invariant of the construction ties the waiting key
and the entries so far to the steps so far.
-/

namespace Liquid

/-! ## The last of its kind -/

section

variable {α β : Type} {p : α → Prop} {q : β → Prop} {l : List α} {a b : α}

/-- The element has the property, and no later one in the list has it. -/
def IsLast (p : α → Prop) (l : List α) (a : α) : Prop :=
  p a ∧ ∃ front back, l = front ++ a :: back ∧ ∀ b ∈ back, ¬p b

theorem isLast_cons_iff :
    IsLast p (b :: l) a ↔ (a = b ∧ p b ∧ ∀ c ∈ l, ¬p c) ∨ IsLast p l a := by
  constructor
  · rintro ⟨ha, front, back, hl, hback⟩
    cases front with
    | nil =>
        obtain ⟨rfl, rfl⟩ := List.cons.inj hl
        exact .inl ⟨rfl, ha, hback⟩
    | cons c front =>
        obtain ⟨rfl, rfl⟩ := List.cons.inj hl
        exact .inr ⟨ha, front, back, rfl, hback⟩
  · rintro (⟨rfl, ha, hl⟩ | ⟨ha, front, back, rfl, hback⟩)
    · exact ⟨ha, [], l, rfl, hl⟩
    · exact ⟨ha, b :: front, back, rfl, hback⟩

theorem exists_isLast_iff : (∃ a, IsLast p l a) ↔ ∃ a ∈ l, p a := by
  induction l with
  | nil => simp [IsLast]
  | cons b l ih =>
      constructor
      · rintro ⟨a, ⟨hpa, front, back, hl, -⟩⟩
        refine ⟨a, ?_, hpa⟩
        rw [hl]
        exact List.mem_append_right front List.mem_cons_self
      · rintro ⟨a, ha, hpa⟩
        by_cases hl : ∃ c ∈ l, p c
        · obtain ⟨c, hc⟩ := ih.mpr hl
          exact ⟨c, isLast_cons_iff.mpr (.inr hc)⟩
        · have hnone : ∀ c ∈ l, ¬p c := fun c hc hpc => hl ⟨c, hc, hpc⟩
          rcases List.mem_cons.mp ha with rfl | ha
          · exact ⟨a, isLast_cons_iff.mpr (.inl ⟨rfl, hpa, hnone⟩)⟩
          · exact absurd hpa (hnone a ha)

/-- The last of its kind is at the same place in a list whose elements are related. -/
theorem IsLast.exists_of_forall₂
    {r : α → β → Prop} {l' : List β} (hl : List.Forall₂ r l l')
    (hpq : ∀ a b, r a b → (p a ↔ q b)) (ha : IsLast p l a) :
    ∃ b, r a b ∧ IsLast q l' b := by
  have hnone {l : List α} {l' : List β} (hl : List.Forall₂ r l l') (h : ∀ c ∈ l, ¬p c) :
      ∀ d ∈ l', ¬q d := by
    induction hl with
    | nil => simp
    | @cons c d l l' hcd _ ih =>
        rw [List.forall_mem_cons] at h ⊢
        exact ⟨fun hd => h.1 ((hpq c d hcd).mpr hd), ih h.2⟩
  induction hl with
  | nil =>
      obtain ⟨-, front, back, h, -⟩ := ha
      exact absurd h.symm (by simp)
  | @cons c d l l' hcd hl ih =>
      rcases isLast_cons_iff.mp ha with ⟨rfl, hpa, hback⟩ | ha
      · exact ⟨d, hcd, isLast_cons_iff.mpr (.inl ⟨rfl, (hpq a d hcd).mp hpa, hnone hl hback⟩)⟩
      · obtain ⟨b, hab, hb⟩ := ih ha
        exact ⟨b, hab, isLast_cons_iff.mpr (.inr hb)⟩

end

namespace MapBuilder

variable {b : MapBuilder} {pairs : List (String × Value)}

theorem nodup_insertAll
    (h : (b.entries.map Prod.fst).Nodup) :
    ((b.insertAll pairs).entries.map Prod.fst).Nodup := by
  induction pairs generalizing b with
  | nil => exact h
  | cons e pairs ih => exact ih (Value.nodup_insertEntry h)

/-- The value that was set last at a key is found under it. -/
theorem lookup_insertAll_eq_some_iff
    {key : String} {v : Value} :
    (b.insertAll pairs).entries.lookup key = some v ↔
      IsLast (·.1 = key) pairs (key, v) ∨
        (∀ e ∈ pairs, e.1 ≠ key) ∧ b.entries.lookup key = some v := by
  induction pairs generalizing b with
  | nil => simp [insertAll, IsLast]
  | cons e pairs ih =>
      have hstep : b.insertAll (e :: pairs) = (b.insert e.1 e.2).insertAll pairs := rfl
      obtain ⟨k, w⟩ := e
      rw [hstep, ih, isLast_cons_iff, List.forall_mem_cons, insert, Value.lookup_insertEntry]
      by_cases h : key = k
      · subst h
        simp [or_comm, and_comm, eq_comm]
      · simp [h, Ne.symm h]

/-- The kept entries have distinct keys, those of the entries that were set, and each has the value
that was set last at its key. -/
structure KeepsLast (set kept : List (String × Value)) : Prop where
  nodup : (kept.map Prod.fst).Nodup
  lookup : ∀ key v, kept.lookup key = some v ↔ IsLast (·.1 = key) set (key, v)

theorem keepsLast_insertAll (set : List (String × Value)) :
    KeepsLast set (insertAll {} set).entries := by
  refine ⟨nodup_insertAll List.nodup_nil, fun key v => ?_⟩
  rw [lookup_insertAll_eq_some_iff]
  simp

end MapBuilder

namespace MapStep

variable {α : Type} {steps : List (MapStep α)}

/-- The keys that are followed at once by a value, each with this value. -/
def pairs : List (MapStep α) → List (α × α)
  | [] => []
  | .key k :: .value c :: rest => (k, c) :: pairs rest
  | _ :: rest => pairs rest

/-- No pair reaches from before a key to behind it. -/
theorem pairs_append_key
    (front : List (MapStep α)) (k : α) (back : List (MapStep α)) :
    pairs (front ++ .key k :: back) = pairs front ++ pairs (.key k :: back) := by
  fun_induction pairs front with
  | case1 => rfl
  | case2 k' c rest ih => rw [List.cons_append, List.cons_append, pairs, ih, List.cons_append]
  | case3 step rest hstep ih =>
      rw [List.cons_append, pairs.eq_3, ih]
      intro k' c rest' hk h
      cases rest with
      | nil => exact absurd h (by simp)
      | cons s rest =>
          obtain ⟨rfl, -⟩ := List.cons.inj h
          exact hstep k' c rest hk rfl

/-- A pair comes from a key and a value that stand side by side. -/
theorem pairs_eq_append_cons_iff
    {front' back' : List (α × α)} {k c : α} :
    pairs steps = front' ++ (k, c) :: back' ↔
      ∃ front back, steps = front ++ .key k :: .value c :: back ∧ pairs front = front' ∧
        pairs back = back' := by
  constructor
  · intro h
    fun_induction pairs steps generalizing front' with
    | case1 => exact absurd h (by simp)
    | case2 k' c' rest ih =>
        cases front' with
        | nil =>
            obtain ⟨hpair, hback⟩ := List.cons.inj h
            obtain ⟨rfl, rfl⟩ := Prod.mk.inj hpair
            exact ⟨[], rest, rfl, rfl, hback⟩
        | cons e front' =>
            obtain ⟨rfl, hrest⟩ := List.cons.inj h
            obtain ⟨front, back, rfl, hfront, hback⟩ := ih hrest
            exact ⟨.key k' :: .value c' :: front, back, rfl, by rw [pairs, hfront], hback⟩
    | case3 step rest hstep ih =>
        obtain ⟨front, back, rfl, hfront, hback⟩ := ih h
        refine ⟨step :: front, back, rfl, ?_, hback⟩
        rw [pairs.eq_3, hfront]
        rintro k' c' front' hk rfl
        exact hstep k' c' _ hk rfl
  · rintro ⟨front, back, rfl, rfl, rfl⟩
    rw [pairs_append_key, pairs]

theorem mem_pairs_iff
    {k c : α} :
    (k, c) ∈ pairs steps ↔ [.key k, .value c] <:+: steps := by
  rw [List.mem_iff_append]
  constructor
  · rintro ⟨front', back', h⟩
    obtain ⟨front, back, rfl, -, -⟩ := pairs_eq_append_cons_iff.mp h
    exact ⟨front, back, by simp⟩
  · rintro ⟨front, back, rfl⟩
    refine ⟨pairs front, pairs back, pairs_eq_append_cons_iff.mpr ⟨front, back, ?_, rfl, rfl⟩⟩
    simp

/-- Every value comes right after a key. -/
def EachAfterKey (steps : List (MapStep α)) : Prop :=
  ∀ front c back, steps = front ++ .value c :: back → ∃ k, front.getLast? = some (.key k)

theorem EachAfterKey.of_append
    {rest : List (MapStep α)} (h : EachAfterKey (steps ++ rest)) :
    EachAfterKey steps := by
  rintro front c back rfl
  refine h front c (back ++ rest) ?_
  rw [List.append_assoc, List.cons_append]

end MapStep

namespace Datum

/-! ## The construction and its history -/

/-- The text of the key and the value of an entry. -/
def Sets (e : Datum × Datum) (p : String × Value) : Prop :=
  e.1.keyText = .ok p.1 ∧ e.2.toValue = .ok p.2

/-- A map under construction and the steps that have led to it: a key waits if it came last, and
the entries were set by the pairs of a key and the value right after it. -/
structure BuiltFrom (b : MapBuilder) (steps : List (MapStep Datum)) : Prop where
  waiting : ∀ key, b.key? = some key ↔
    ∃ d, steps.getLast? = some (.key d) ∧ d.keyText = .ok key
  entries : ∃ set, List.Forall₂ Sets (MapStep.pairs steps) set ∧
    b.entries = (MapBuilder.insertAll {} set).entries

theorem BuiltFrom.exists_keepsLast
    {b : MapBuilder} {steps : List (MapStep Datum)} (h : BuiltFrom b steps) :
    ∃ set, List.Forall₂ Sets (MapStep.pairs steps) set ∧ MapBuilder.KeepsLast set b.entries := by
  obtain ⟨set, hset, hentries⟩ := h.entries
  exact ⟨set, hset, hentries ▸ MapBuilder.keepsLast_insertAll set⟩

variable {b c : MapBuilder} {steps rest : List (MapStep Datum)} {key : String}

theorem builtFrom_nil : BuiltFrom {} [] :=
  ⟨by simp, [], .nil, rfl⟩

theorem BuiltFrom.afterKey
    (h : BuiltFrom b steps) {d : Datum} (hd : d.keyText = .ok key) :
    BuiltFrom { b with key? := some key } (steps ++ [.key d]) := by
  refine ⟨fun key' => ?_, ?_⟩
  · rw [List.getLast?_concat]
    constructor
    · rintro ⟨⟩
      exact ⟨d, rfl, hd⟩
    · rintro ⟨_, ⟨⟩, hd'⟩
      rw [hd] at hd'
      exact congrArg some (Except.ok.inj hd')
  · rw [MapStep.pairs_append_key, MapStep.pairs, MapStep.pairs, List.append_nil]
    · exact h.entries
    · simp

theorem BuiltFrom.afterValue
    (h : BuiltFrom b steps) (hkey : b.key? = some key) {d : Datum} {v : Value}
    (hd : d.toValue = .ok v) :
    BuiltFrom ({ b with key? := none }.insert key v) (steps ++ [.value d]) := by
  obtain ⟨k, hlast, hk⟩ := (h.waiting key).mp hkey
  obtain ⟨front, rfl⟩ := List.getLast?_eq_some_iff.mp hlast
  obtain ⟨set, hset, hentries⟩ := h.entries
  refine ⟨fun key' => ?_, set ++ [(key, v)], ?_, ?_⟩
  · rw [List.getLast?_concat]
    constructor
    · exact fun hnone => absurd hnone.symm (Option.some_ne_none key')
    · rintro ⟨_, hd', -⟩
      exact absurd (Option.some.inj hd') (by simp)
  · have hfront : MapStep.pairs (front ++ [.key k]) = MapStep.pairs front := by
      rw [MapStep.pairs_append_key]
      exact List.append_nil _
    have hpair : MapStep.pairs (front ++ [.key k] ++ [.value d]) =
        MapStep.pairs front ++ [(k, d)] := by
      rw [List.append_assoc, List.singleton_append, MapStep.pairs_append_key]
      rfl
    rw [hfront] at hset
    rw [hpair]
    exact List.rel_append hset (.cons ⟨hk, hd⟩ .nil)
  · rw [MapBuilder.insertAll, List.foldl_append, MapBuilder.insert, hentries]
    rfl

theorem addSteps_append
    (b : MapBuilder) (steps rest : List (MapStep Datum)) :
    addSteps b (steps ++ rest) = addSteps b steps >>= fun c => addSteps c rest := by
  induction steps generalizing b with
  | nil => rfl
  | cons step steps ih =>
      cases step with
      | key d =>
          rw [List.cons_append, addSteps_key, addSteps_key, bind_assoc]
          congr 1
          funext key
          exact ih _
      | value d =>
          cases hkey : b.key? with
          | none =>
              rw [List.cons_append, addSteps_value_of_none hkey, addSteps_value_of_none hkey]
              rfl
          | some key =>
              rw [List.cons_append, addSteps_value hkey, addSteps_value hkey, bind_assoc]
              congr 1
              funext v
              exact ih _

/-- What one step keeps, the whole run keeps. -/
theorem builtFrom_of_addSteps
    (h : addSteps {} steps = .ok c) :
    BuiltFrom c steps := by
  -- The last step is taken off, since the invariant speaks of the step that came last.
  induction steps using List.reverseRecOn generalizing c with
  | nil => exact Except.ok.inj h ▸ builtFrom_nil
  | append_singleton steps step ih =>
      rw [addSteps_append, bind_eq_ok_iff] at h
      obtain ⟨b, hb, hstep⟩ := h
      cases step with
      | key d =>
          rw [addSteps_key, bind_eq_ok_iff] at hstep
          obtain ⟨key, hkey, hc⟩ := hstep
          exact Except.ok.inj hc ▸ (ih hb).afterKey hkey
      | value d =>
          cases hkey : b.key? with
          | none =>
              rw [addSteps_value_of_none hkey] at hstep
              exact absurd hstep (by simp)
          | some key =>
              rw [addSteps_value hkey, bind_eq_ok_iff] at hstep
              obtain ⟨v, hv, hc⟩ := hstep
              exact Except.ok.inj hc ▸ (ih hb).afterValue hkey hv

/-! ## Success and failure -/

/-- Every key that is given can be a key, and every value that is given is one. -/
structure EachFit (steps : List (MapStep Datum)) : Prop where
  keys : ∀ d, .key d ∈ steps → ∃ v, d.toValue = .ok v ∧ v ≠ .nil
  values : ∀ d, .value d ∈ steps → ∃ v, d.toValue = .ok v

theorem EachFit.exists_keyText
    (h : EachFit steps) {d : Datum} (hd : .key d ∈ steps) :
    ∃ key, d.keyText = .ok key := by
  obtain ⟨v, hv, hne⟩ := h.keys d hd
  exact ⟨v.display, keyText_eq_ok_iff.mpr ⟨v, hv, hne, rfl⟩⟩

theorem EachFit.of_append
    (h : EachFit (steps ++ rest)) :
    EachFit steps :=
  ⟨fun d hd => h.keys d (List.mem_append_left rest hd),
    fun d hd => h.values d (List.mem_append_left rest hd)⟩

/-- After fit steps a value is taken just where a key came last. -/
theorem BuiltFrom.isSome_key?_iff
    (h : BuiltFrom b steps) (hfit : EachFit steps) :
    b.key?.isSome ↔ ∃ d, steps.getLast? = some (.key d) := by
  constructor
  · intro hsome
    obtain ⟨key, hkey⟩ := Option.isSome_iff_exists.mp hsome
    obtain ⟨d, hlast, -⟩ := (h.waiting key).mp hkey
    exact ⟨d, hlast⟩
  · rintro ⟨d, hlast⟩
    obtain ⟨key, hkey⟩ := hfit.exists_keyText (List.mem_of_getLast? hlast)
    exact Option.isSome_iff_exists.mpr ⟨key, (h.waiting key).mpr ⟨d, hlast, hkey⟩⟩

theorem exists_addSteps_of_eachAfterKey
    (hfit : EachFit steps) (h : MapStep.EachAfterKey steps) :
    ∃ b, addSteps {} steps = .ok b := by
  induction steps using List.reverseRecOn with
  | nil => exact ⟨{}, rfl⟩
  | append_singleton steps step ih =>
      obtain ⟨b, hb⟩ := ih hfit.of_append h.of_append
      rw [addSteps_append, hb]
      cases step with
      | key d =>
          obtain ⟨key, hkey⟩ := hfit.exists_keyText (d := d) (by simp)
          refine ⟨{ b with key? := some key }, ?_⟩
          change addSteps b [.key d] = _
          rw [addSteps_key, hkey]
          rfl
      | value d =>
          obtain ⟨v, hv⟩ := hfit.values d (by simp)
          have hsome : b.key?.isSome :=
            ((builtFrom_of_addSteps hb).isSome_key?_iff hfit.of_append).mpr (h steps d [] rfl)
          obtain ⟨key, hkey⟩ := Option.isSome_iff_exists.mp hsome
          refine ⟨({ b with key? := none }.insert key v), ?_⟩
          change addSteps b [.value d] = _
          rw [addSteps_value hkey, hv]
          rfl

theorem addSteps_value_after
    (hfit : EachFit steps) (hb : addSteps {} steps = .ok b)
    (hlast : ¬∃ d, steps.getLast? = some (.key d)) (d : Datum) (rest : List (MapStep Datum)) :
    addSteps b (.value d :: rest) = .error (.argument .valueWithoutKey) := by
  rw [← (builtFrom_of_addSteps hb).isSome_key?_iff hfit, Option.not_isSome_iff_eq_none] at hlast
  exact addSteps_value_of_none hlast d rest

theorem eachAfterKey_of_addSteps
    (hfit : EachFit steps) (h : addSteps {} steps = .ok c) :
    MapStep.EachAfterKey steps := by
  rintro front d back rfl
  by_contra hlast
  rw [addSteps_append, bind_eq_ok_iff] at h
  obtain ⟨b, hb, hrest⟩ := h
  rw [addSteps_value_after hfit.of_append hb hlast] at hrest
  exact absurd hrest (by simp)

/-! ## The finished map -/

/-- A key with this text is followed at once by this content, and no such key is so later. -/
def SetLast (steps : List (MapStep Datum)) (text : String) (content : Datum) : Prop :=
  ∃ front key back, steps = front ++ .key key :: .value content :: back ∧
    key.keyText = .ok text ∧
      ∀ key' content', [.key key', .value content'] <:+: back → key'.keyText ≠ .ok text

theorem setLast_iff
    {text : String} {content : Datum} :
    SetLast steps text content ↔
      ∃ key, IsLast (fun e => e.1.keyText = .ok text) (MapStep.pairs steps) (key, content) := by
  constructor
  · rintro ⟨front, key, back, hsteps, hkey, hback⟩
    have hpairs := MapStep.pairs_eq_append_cons_iff.mpr ⟨front, back, hsteps, rfl, rfl⟩
    refine ⟨key, hkey, MapStep.pairs front, MapStep.pairs back, hpairs, fun e he => ?_⟩
    exact hback e.1 e.2 (MapStep.mem_pairs_iff.mp he)
  · rintro ⟨key, hkey, front', back', hpairs, hback⟩
    obtain ⟨front, back, hsteps, -, rfl⟩ := MapStep.pairs_eq_append_cons_iff.mp hpairs
    refine ⟨front, key, back, hsteps, hkey, fun key' content' hmem => ?_⟩
    exact hback (key', content') (MapStep.mem_pairs_iff.mpr hmem)

theorem Sets.text_iff
    {e : Datum × Datum} {p : String × Value} (h : Sets e p) (text : String) :
    p.1 = text ↔ e.1.keyText = .ok text := by
  rw [h.1, Except.ok.injEq]

theorem SetLast.exists_isLast
    {text : String} {content : Datum} (h : SetLast steps text content)
    {set : List (String × Value)} (hset : List.Forall₂ Sets (MapStep.pairs steps) set) :
    ∃ v, content.toValue = .ok v ∧ IsLast (·.1 = text) set (text, v) := by
  obtain ⟨key, hlast⟩ := setLast_iff.mp h
  obtain ⟨⟨key', v⟩, hsets, hlast'⟩ :=
    hlast.exists_of_forall₂ hset (q := (·.1 = text)) fun e p he => (Sets.text_iff he text).symm
  obtain rfl : key' = text := hlast'.1
  exact ⟨v, hsets.2, hlast'⟩

/-- Under a text stands the value of the last pair whose key has this text. -/
theorem BuiltFrom.lookup_eq_some_iff
    (h : BuiltFrom b steps) {text : String} {v : Value} :
    b.entries.lookup text = some v ↔
      ∃ content, SetLast steps text content ∧ content.toValue = .ok v := by
  obtain ⟨set, hset, hkept⟩ := h.exists_keepsLast
  rw [hkept.lookup]
  constructor
  · intro hlast
    obtain ⟨⟨key, content⟩, hsets, hlast⟩ :=
      hlast.exists_of_forall₂ hset.flip (q := fun e => e.1.keyText = .ok text)
        fun p e he => Sets.text_iff he text
    exact ⟨content, setLast_iff.mpr ⟨key, hlast⟩, hsets.2⟩
  · rintro ⟨content, hcontent, hv⟩
    obtain ⟨w, hw, hlast⟩ := hcontent.exists_isLast hset
    exact Except.ok.inj (hw.symm.trans hv) ▸ hlast

theorem BuiltFrom.mem_keys_iff
    (h : BuiltFrom b steps) {text : String} :
    text ∈ b.entries.map Prod.fst ↔
      ∃ key content, [.key key, .value content] <:+: steps ∧ key.keyText = .ok text := by
  have hpairs : (∃ key content, [.key key, .value content] <:+: steps ∧
      key.keyText = .ok text) ↔ ∃ e ∈ MapStep.pairs steps, e.1.keyText = .ok text := by
    simp only [Prod.exists, MapStep.mem_pairs_iff]
  rw [hpairs, ← exists_isLast_iff, ← isSome_lookup_iff, Option.isSome_iff_exists]
  constructor
  · rintro ⟨v, hv⟩
    obtain ⟨content, hcontent, -⟩ := h.lookup_eq_some_iff.mp hv
    obtain ⟨key, hlast⟩ := setLast_iff.mp hcontent
    exact ⟨(key, content), hlast⟩
  · rintro ⟨⟨key, content⟩, hlast⟩
    have hcontent : SetLast steps text content := setLast_iff.mpr ⟨key, hlast⟩
    obtain ⟨set, hset, -⟩ := h.entries
    obtain ⟨v, hv, -⟩ := hcontent.exists_isLast hset
    exact ⟨v, h.lookup_eq_some_iff.mpr ⟨content, hcontent, hv⟩⟩

/-- Keys and values that are fit on their own may be given in any order.  They make a map just if
every value comes right after a key; the first value that does not is refused, whatever follows it.
The map has the texts of the keys that a value follows at once, each with the last such value. -/
theorem each_value_belongs_to_key_before
    (hfit : EachFit steps) :
    ((∃ v, (mapSteps steps).toValue = .ok v) ↔ MapStep.EachAfterKey steps) ∧
      (∀ front d back, steps = front ++ .value d :: back → MapStep.EachAfterKey front →
        (¬∃ key, front.getLast? = some (.key key)) →
          (mapSteps steps).toValue = .error (.argument .valueWithoutKey) ∧
            ∃ b, addSteps {} front = .ok b ∧
              ∀ rest, addSteps b (.value d :: rest) = .error (.argument .valueWithoutKey)) ∧
      ∀ v, (mapSteps steps).toValue = .ok v →
        ∃ entries, v = .map entries ∧ (entries.map Prod.fst).Nodup ∧
          (∀ text, text ∈ entries.map Prod.fst ↔
            ∃ key content, [.key key, .value content] <:+: steps ∧ key.keyText = .ok text) ∧
          ∀ text w, entries.lookup text = some w ↔
            ∃ content, SetLast steps text content ∧ content.toValue = .ok w := by
  have hvalue (v : Value) : (mapSteps steps).toValue = .ok v ↔
      ∃ b, addSteps {} steps = .ok b ∧ b.finish = v := by
    rw [toValue, bind_eq_ok_iff]
    simp only [pure, Except.pure, Except.ok.injEq]
  refine ⟨⟨?_, fun heach => ?_⟩, ?_, fun v hv => ?_⟩
  · rintro ⟨v, hv⟩
    obtain ⟨b, hb, -⟩ := (hvalue v).mp hv
    exact eachAfterKey_of_addSteps hfit hb
  · obtain ⟨b, hb⟩ := exists_addSteps_of_eachAfterKey hfit heach
    exact ⟨b.finish, (hvalue b.finish).mpr ⟨b, hb, rfl⟩⟩
  · rintro front d back rfl heach hlast
    obtain ⟨b, hb⟩ := exists_addSteps_of_eachAfterKey hfit.of_append heach
    have hrefused := addSteps_value_after hfit.of_append hb hlast d
    refine ⟨?_, b, hb, hrefused⟩
    rw [toValue, addSteps_append, hb]
    change addSteps b (.value d :: back) >>= _ = _
    rw [hrefused back]
    rfl
  · obtain ⟨b, hb, rfl⟩ := (hvalue v).mp hv
    have hbuilt := builtFrom_of_addSteps hb
    obtain ⟨set, -, hkept⟩ := hbuilt.exists_keepsLast
    exact ⟨b.entries, rfl, hkept.nodup, fun _ => hbuilt.mem_keys_iff,
      fun _ _ => hbuilt.lookup_eq_some_iff⟩

/-- A number and a text with the text of the number are one key; a key that another one replaces and
a key at the end leave no trace.  A second value for one key is refused, whatever comes after it. -/
theorem each_value_belongs_to_key_before_colliding_keys :
    let steps : List (MapStep Datum) :=
      [.key (.signed 1), .value (.text "a"), .key (.text "x"), .key (.text "1"),
        .value (.sequence []), .key (.bool true)]
    let doubled : List (MapStep Datum) :=
      [.key (.text "x"), .value .absent, .value (.text "b"), .value (.text "c")]
    (EachFit steps ∧ MapStep.EachAfterKey steps) ∧
      (mapSteps steps).toValue = .ok (.map [("1", .list [])]) ∧
      (∃ content, SetLast steps "1" content ∧ content.toValue = .ok (.list [])) ∧
      EachFit doubled ∧ (mapSteps doubled).toValue = .error (.argument .valueWithoutKey) := by
  intro steps doubled
  have hfit : EachFit steps := by
    constructor <;> simp [steps, toValue, itemValues]
  have hdoubled : EachFit doubled := by
    constructor <;> simp [doubled, toValue]
  have hv : (mapSteps steps).toValue = .ok (.map [("1", .list [])]) := by
    rfl
  obtain ⟨hsuccess, -, hmap⟩ := each_value_belongs_to_key_before hfit
  obtain ⟨entries, hentries, -, -, hlookup⟩ := hmap _ hv
  obtain rfl := Value.map.inj hentries
  let front : List (MapStep Datum) := [.key (.text "x"), .value .absent]
  have hfrontFit : EachFit front := hdoubled.of_append
  have hfront : MapStep.EachAfterKey front :=
    (each_value_belongs_to_key_before hfrontFit).1.mp ⟨_, rfl⟩
  have hlast : ¬∃ key, front.getLast? = some (.key key) := by
    simp [front]
  obtain ⟨-, hrefused, -⟩ := each_value_belongs_to_key_before hdoubled
  exact ⟨⟨hfit, hsuccess.mp ⟨_, hv⟩⟩, hv, (hlookup "1" (.list [])).mp rfl, hdoubled,
    (hrefused front (.text "b") [.value (.text "c")] rfl hfront hlast).1⟩

end Datum
end Liquid
