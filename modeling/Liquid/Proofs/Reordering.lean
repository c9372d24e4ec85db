import Liquid.Proofs.Building

/-!
# Data in another order

The entries of a map and the fields of a record may come in any order, at any depth, inside of keys
as well.  As long as no two keys of one map or record have the same text, the values of the data are
alike.
-/

namespace Liquid

/-! ## Entries that are given step by step -/

/-- The steps up to a value: the key before it, and in front of this one keys that it replaces. -/
structure StepEntry where
  replaced : List Datum := []
  key : Datum
  content : Datum

/-- The steps that give an entry. -/
def StepEntry.steps (e : StepEntry) : List (MapStep Datum) :=
  e.replaced.map .key ++ [.key e.key, .value e.content]

theorem StepEntry.flatMap_steps_cons_append
    (e : StepEntry) (entries : List StepEntry) (rest : List (MapStep Datum)) :
    (e :: entries).flatMap steps ++ rest =
      e.replaced.map .key ++ .key e.key :: .value e.content :: (entries.flatMap steps ++ rest) := by
  simp [steps]

/-- An entry sets a value at a key; all its keys are fit to be keys. -/
structure StepEntry.Sets (e : StepEntry) (p : String × Value) : Prop where
  replaced : ∀ d ∈ e.replaced, ∃ key, d.keyText = .ok key
  key : e.key.keyText = .ok p.1
  content : e.content.toValue = .ok p.2

namespace Datum

theorem addSteps_keys_key
    {b c : MapBuilder} (keys : List Datum) (d : Datum) (rest : List (MapStep Datum)) :
    addSteps b (keys.map .key ++ .key d :: rest) = .ok c ↔
      (∀ k ∈ keys, ∃ key, k.keyText = .ok key) ∧ addSteps b (.key d :: rest) = .ok c := by
  induction keys generalizing b with
  | nil => simp
  | cons k keys ih =>
      rw [List.map_cons, List.cons_append, addSteps_key, bind_eq_ok_iff, List.forall_mem_cons]
      constructor
      · rintro ⟨key, hkey, h⟩
        obtain ⟨hkeys, h⟩ := ih.mp h
        rw [addSteps_key] at h ⊢
        exact ⟨⟨⟨key, hkey⟩, hkeys⟩, h⟩
      · rintro ⟨⟨⟨key, hkey⟩, hkeys⟩, h⟩
        refine ⟨key, hkey, ih.mpr ⟨hkeys, ?_⟩⟩
        rw [addSteps_key] at h ⊢
        exact h

/-- Keys that no value follows leave no trace in the finished map. -/
theorem finish_addSteps_keys
    {b : MapBuilder} {v : Value} (keys : List Datum) :
    (addSteps b (keys.map .key) >>= fun c => .ok c.finish) = .ok v ↔
      (∀ k ∈ keys, ∃ key, k.keyText = .ok key) ∧ b.finish = v := by
  induction keys generalizing b with
  | nil => simp [addSteps, bind, Except.bind]
  | cons k keys ih =>
      rw [List.map_cons, addSteps_key, bind_assoc, bind_eq_ok_iff, List.forall_mem_cons]
      constructor
      · rintro ⟨key, hkey, h⟩
        obtain ⟨hkeys, hfinish⟩ := ih.mp h
        exact ⟨⟨⟨key, hkey⟩, hkeys⟩, hfinish⟩
      · rintro ⟨⟨⟨key, hkey⟩, hkeys⟩, hfinish⟩
        exact ⟨key, hkey, ih.mpr ⟨hkeys, hfinish⟩⟩

theorem addSteps_entries
    {b c : MapBuilder} (hb : b.key? = none) (entries : List StepEntry)
    (rest : List (MapStep Datum)) :
    addSteps b (entries.flatMap StepEntry.steps ++ rest) = .ok c ↔
      ∃ pairs, List.Forall₂ StepEntry.Sets entries pairs ∧
        addSteps (b.insertAll pairs) rest = .ok c := by
  induction entries generalizing b with
  | nil => simp [MapBuilder.insertAll]
  | cons e entries ih =>
      have hnext (key : String) (v : Value) :
          MapBuilder.insert { b with key? := none } key v = b.insert key v := by
        rw [← hb]
      rw [StepEntry.flatMap_steps_cons_append, addSteps_keys_key, addSteps_key, bind_eq_ok_iff]
      constructor
      · rintro ⟨hreplaced, key, hkey, h⟩
        rw [addSteps_value rfl, bind_eq_ok_iff] at h
        obtain ⟨v, hv, h⟩ := h
        rw [hnext] at h
        obtain ⟨pairs, hpairs, h⟩ := (@ih (b.insert key v) hb).mp h
        exact ⟨(key, v) :: pairs, .cons ⟨hreplaced, hkey, hv⟩ hpairs, h⟩
      · rintro ⟨pairs, hpairs, h⟩
        cases hpairs with
        | @cons _ p _ pairs he hpairs =>
            refine ⟨he.replaced, p.1, he.key, ?_⟩
            rw [addSteps_value rfl, he.content]
            change addSteps _ _ = _
            rw [hnext]
            exact (@ih (b.insert p.1 p.2) hb).mpr ⟨pairs, hpairs, h⟩

theorem toValue_entries_eq_ok_iff
    {entries : List StepEntry} {keys : List Datum} {v : Value} :
    (mapSteps (entries.flatMap StepEntry.steps ++ keys.map .key)).toValue = .ok v ↔
      (∀ k ∈ keys, ∃ key, k.keyText = .ok key) ∧
        ∃ pairs, List.Forall₂ StepEntry.Sets entries pairs ∧
          (MapBuilder.insertAll {} pairs).finish = v := by
  rw [toValue]
  constructor
  · intro h
    obtain ⟨b, hb, hfinish⟩ := bind_eq_ok_iff.mp h
    obtain ⟨pairs, hpairs, hb⟩ := (addSteps_entries rfl entries _).mp hb
    have hkeys := (finish_addSteps_keys keys).mp (bind_eq_ok_iff.mpr ⟨b, hb, hfinish⟩)
    exact ⟨hkeys.1, pairs, hpairs, hkeys.2⟩
  · rintro ⟨hkeys, pairs, hpairs, hfinish⟩
    obtain ⟨b, hb, hbfinish⟩ :=
      bind_eq_ok_iff.mp ((finish_addSteps_keys keys).mpr ⟨hkeys, hfinish⟩)
    exact bind_eq_ok_iff.mpr ⟨b, (addSteps_entries rfl entries _).mpr ⟨pairs, hpairs, hb⟩, hbfinish⟩

/-! ## Entries in another order -/

/-- The text of a datum as a key, if it has one. -/
def keyText? (d : Datum) : Option String :=
  d.keyText.toOption

theorem alike_self_of_toValue
    {d : Datum} {v : Value} (hv : d.toValue = .ok v) :
    v.Alike v := by
  obtain ⟨v', hv', halike⟩ := valueAlike_refl d v hv
  exact Except.ok.inj (hv.symm.trans hv') ▸ halike

theorem keys_of_sets
    {entries : List StepEntry} {pairs : List (String × Value)}
    (h : List.Forall₂ StepEntry.Sets entries pairs) :
    (entries.map fun e => e.key.keyText?) = pairs.map fun p => some p.1 := by
  induction h with
  | nil => rfl
  | cons he _ ih => rw [List.map_cons, List.map_cons, ih, keyText?, he.key]; rfl

theorem alike_self_of_sets
    {entries : List StepEntry} {pairs : List (String × Value)}
    (h : List.Forall₂ StepEntry.Sets entries pairs) :
    ∀ p ∈ pairs, p.2.Alike p.2 := by
  induction h with
  | nil => simp
  | cons he _ ih => exact List.forall_mem_cons.mpr ⟨alike_self_of_toValue he.content, ih⟩

end Datum

theorem Value.alike_of_perm
    {pairs pairs' : List (String × Value)} (h : pairs.Perm pairs')
    (hnodup : (pairs.map Prod.fst).Nodup) (hself : ∀ p ∈ pairs, p.2.Alike p.2) :
    (map pairs).Alike (map pairs') := by
  have hkeys := h.map Prod.fst
  refine .map hnodup (hkeys.nodup_iff.mp hnodup) (fun key => hkeys.mem_iff) ?_
  intro key v v' hv hv'
  rw [← mem_iff_lookup (hkeys.nodup_iff.mp hnodup), ← h.mem_iff, mem_iff_lookup hnodup, hv] at hv'
  exact Option.some.inj hv' ▸ hself (key, v) ((mem_iff_lookup hnodup).mpr hv)

namespace Datum

/-- The entries of a map may come in any order if their keys are distinct. -/
theorem valueAlike_of_perm
    {entries entries' : List StepEntry} (h : entries.Perm entries')
    (hkeys : (entries.map fun e => e.key.keyText?).Nodup) (keys : List Datum) :
    (mapSteps (entries.flatMap StepEntry.steps ++ keys.map .key)).ValueAlike
      (mapSteps (entries'.flatMap StepEntry.steps ++ keys.map .key)) := by
  intro v hv
  obtain ⟨hfit, pairs, hpairs, rfl⟩ := toValue_entries_eq_ok_iff.mp hv
  obtain ⟨pairs', hpairs', hperm⟩ := List.perm_comp_forall₂ h.symm hpairs
  refine ⟨_, toValue_entries_eq_ok_iff.mpr ⟨hfit, pairs', hpairs', rfl⟩, ?_⟩
  have hnodup : (pairs.map Prod.fst).Nodup := by
    rw [keys_of_sets hpairs] at hkeys
    apply List.Nodup.of_map some
    rwa [List.map_map]
  have hnodup' : (pairs'.map Prod.fst).Nodup := (hperm.map Prod.fst).nodup_iff.mpr hnodup
  rw [MapBuilder.finish_insertAll hnodup, MapBuilder.finish_insertAll hnodup']
  exact Value.alike_of_perm hperm.symm hnodup (alike_self_of_sets hpairs)

/-! ## Reordered data -/

/-- Data that differ in the order of the entries of maps and of the fields of records, at any depth.
In a map whose keys and values are given one by one, an entry moves with the keys that its own key
replaces; keys that no value follows stay where they are. -/
inductive Reordered : Datum → Datum → Prop
  | refl (d : Datum) : Reordered d d
  | trans {d e f : Datum} (h : Reordered d e) (h' : Reordered e f) : Reordered d f
  | map {entries entries' : List (Datum × Datum)} (h : entries.Perm entries') :
    Reordered (map entries) (map entries')
  | mapSteps {entries entries' : List StepEntry} (h : entries.Perm entries') (keys : List Datum) :
    Reordered (mapSteps (entries.flatMap StepEntry.steps ++ keys.map .key))
      (mapSteps (entries'.flatMap StepEntry.steps ++ keys.map .key))
  | record {fields fields' : List (String × Datum)} (h : fields.Perm fields') :
    Reordered (record fields) (record fields')
  | wrapped {d d' : Datum} (h : Reordered d d') : Reordered (wrapped d) (wrapped d')
  | item {d d' : Datum} (h : Reordered d d') (front back : List Datum) :
    Reordered (sequence (front ++ d :: back)) (sequence (front ++ d' :: back))
  | key {d d' : Datum} (h : Reordered d d') (content : Datum) (front back : List (Datum × Datum)) :
    Reordered (.map (front ++ (d, content) :: back)) (.map (front ++ (d', content) :: back))
  | content {d d' : Datum} (h : Reordered d d') (key : Datum) (front back : List (Datum × Datum)) :
    Reordered (.map (front ++ (key, d) :: back)) (.map (front ++ (key, d') :: back))
  | keyStep {d d' : Datum} (h : Reordered d d') (front back : List (MapStep Datum)) :
    Reordered (.mapSteps (front ++ .key d :: back)) (.mapSteps (front ++ .key d' :: back))
  | valueStep {d d' : Datum} (h : Reordered d d') (front back : List (MapStep Datum)) :
    Reordered (.mapSteps (front ++ .value d :: back)) (.mapSteps (front ++ .value d' :: back))
  | field {d d' : Datum} (h : Reordered d d') (name : String)
    (front back : List (String × Datum)) :
    Reordered (.record (front ++ (name, d) :: back)) (.record (front ++ (name, d') :: back))

/-- The keys of the entries that steps give, where a key waits for its value. -/
def stepKeys (waiting : Option String) : List (MapStep Datum) → List (Option String)
  | [] => []
  | .key d :: rest => stepKeys d.keyText? rest
  | .value _ :: rest => waiting :: stepKeys none rest

/-- The texts of the keys of a map, or the names of the fields of a record. -/
def ownKeys : Datum → List (Option String)
  | .map entries => entries.map fun e => e.1.keyText?
  | .mapSteps steps => stepKeys none steps
  | .record fields => fields.map fun f => some f.1
  | _ => []

/-- The keys of every map and every record that is part of a datum have distinct texts. -/
inductive DistinctKeys : Datum → Prop
  | intro {d : Datum} (hkeys : d.ownKeys.Nodup) (hparts : ∀ p ∈ d.parts, DistinctKeys p) :
    DistinctKeys d

theorem keyText?_eq
    {d d' : Datum} (h : d.ValueAlike d') (h' : d'.ValueAlike d) :
    d.keyText? = d'.keyText? := by
  apply Option.ext
  intro key
  have hiff (e : Datum) : e.keyText? = some key ↔ e.keyText = .ok key := by
    rw [keyText?]
    cases e.keyText <;> simp [Except.toOption]
  rw [hiff, hiff]
  exact ⟨h.keyText, h'.keyText⟩

theorem stepKeys_entries
    (waiting : Option String) (entries : List StepEntry) (keys : List Datum) :
    stepKeys waiting (entries.flatMap StepEntry.steps ++ keys.map .key) =
      entries.map fun e => e.key.keyText? := by
  have hkeys (keys : List Datum) (rest : List (MapStep Datum)) (waiting : Option String) :
      ∃ waiting', stepKeys waiting (keys.map .key ++ rest) = stepKeys waiting' rest := by
    induction keys generalizing waiting with
    | nil => exact ⟨waiting, rfl⟩
    | cons k keys ih => exact ih k.keyText?
  induction entries generalizing waiting with
  | nil =>
      obtain ⟨waiting', h⟩ := hkeys keys [] waiting
      rw [List.append_nil] at h
      exact h
  | cons e entries ih =>
      obtain ⟨waiting', h⟩ := hkeys e.replaced
        (.key e.key :: .value e.content :: (entries.flatMap StepEntry.steps ++ keys.map .key))
        waiting
      rw [StepEntry.flatMap_steps_cons_append, h, stepKeys, stepKeys, ih, List.map_cons]

theorem stepKeys_append_congr
    {tail tail' : List (MapStep Datum)}
    (h : ∀ waiting, stepKeys waiting tail = stepKeys waiting tail')
    (waiting : Option String) (front : List (MapStep Datum)) :
    stepKeys waiting (front ++ tail) = stepKeys waiting (front ++ tail') := by
  induction front generalizing waiting with
  | nil => exact h waiting
  | cons step front ih =>
      cases step with
      | key d => exact ih d.keyText?
      | value d => exact congrArg (waiting :: ·) (ih none)

theorem entrySteps_eq
    (entries : List (Datum × Datum)) :
    entrySteps entries =
      (entries.map fun e => StepEntry.mk [] e.1 e.2).flatMap StepEntry.steps ++ [].map .key := by
  rw [List.map_nil, List.append_nil, List.flatMap_map]
  rfl

theorem valueAlike_map_of_perm
    {entries entries' : List (Datum × Datum)} (h : entries.Perm entries')
    (hkeys : (map entries).ownKeys.Nodup) :
    (map entries).ValueAlike (map entries') := by
  intro v hv
  rw [toValue_map, entrySteps_eq] at hv ⊢
  refine valueAlike_of_perm (h.map _) ?_ [] v hv
  rwa [List.map_map]

theorem valueAlike_record_of_perm
    {fields fields' : List (String × Datum)} (h : fields.Perm fields')
    (hkeys : (record fields).ownKeys.Nodup) :
    (record fields).ValueAlike (record fields') := by
  have hmap (fields : List (String × Datum)) :
      (record fields).toValue = (map (fields.map fun f => (.text f.1, f.2))).toValue := by
    rw [toValue_record, toValue_map, fieldSteps]
  intro v hv
  rw [hmap] at hv ⊢
  refine valueAlike_map_of_perm (h.map _) ?_ v hv
  rw [ownKeys, List.map_map]
  exact hkeys

theorem ValueAlike.trans
    {d e f : Datum} (hde : d.ValueAlike e) (hef : e.ValueAlike f) :
    d.ValueAlike f := by
  intro v hv
  obtain ⟨w, hw, hvw⟩ := hde v hv
  obtain ⟨u, hu, hwu⟩ := hef w hw
  exact ⟨u, hu, hvw.trans hwu⟩

theorem forall₂_replace
    {α : Type} {r : α → α → Prop} (hrefl : ∀ a, r a a) {a a' : α} (h : r a a')
    (front back : List α) :
    List.Forall₂ r (front ++ a :: back) (front ++ a' :: back) :=
  List.rel_append (List.forall₂_same.mpr fun b _ => hrefl b)
    (.cons h (List.forall₂_same.mpr fun b _ => hrefl b))

theorem stepAlike_refl (step : MapStep Datum) : StepAlike step step := by
  cases step with
  | key d => exact .key (valueAlike_refl d)
  | value d => exact .value (valueAlike_refl d)

/-- As long as the keys of the first datum are distinct, so are those of the second, and the values
of both are alike, where one has a value if and only if the other has. -/
def Exchangeable (d d' : Datum) : Prop :=
  d.DistinctKeys → d'.DistinctKeys ∧ d.ValueAlike d' ∧ d'.ValueAlike d

/-- What a node consists of may come in any order. -/
theorem Exchangeable.of_perm
    {α : Type} (node : List α → Datum) {l l' : List α} (h : l.Perm l')
    (hkeys : (node l).ownKeys.Perm (node l').ownKeys)
    (hparts : (node l).parts.Perm (node l').parts)
    (hvalue : ∀ {l l' : List α}, l.Perm l' → (node l).ownKeys.Nodup →
      (node l).ValueAlike (node l')) :
    (node l).Exchangeable (node l') := by
  rintro ⟨hnodup, hall⟩
  have hnodup' : (node l').ownKeys.Nodup := hkeys.nodup_iff.mp hnodup
  refine ⟨.intro hnodup' fun p hp => ?_, hvalue h hnodup, hvalue h.symm hnodup'⟩
  exact hall p (hparts.mem_iff.mpr hp)

/-- In place of one part of a node another may stand for which it can be exchanged. -/
theorem Exchangeable.of_part
    (node : Datum → Datum) {p p' : Datum} (h : p.Exchangeable p') {front back : List Datum}
    (hparts : ∀ q, (node q).parts = front ++ q :: back)
    (hkeys : p.keyText? = p'.keyText? → (node p).ownKeys = (node p').ownKeys)
    (hvalue : ∀ {q q' : Datum}, q.ValueAlike q' → (node q).ValueAlike (node q')) :
    (node p).Exchangeable (node p') := by
  rintro ⟨hnodup, hall⟩
  rw [hparts] at hall
  obtain ⟨hp', halike, halike'⟩ := h (hall p (by simp))
  refine ⟨.intro (hkeys (keyText?_eq halike halike') ▸ hnodup) ?_, hvalue halike, hvalue halike'⟩
  intro q hq
  rw [hparts] at hq
  rcases List.mem_append.mp hq with hq | hq
  · exact hall q (List.mem_append_left _ hq)
  · rcases List.mem_cons.mp hq with rfl | hq
    · exact hp'
    · exact hall q (List.mem_append_right _ (List.mem_cons_of_mem p hq))

/-- Reordered data with distinct keys have alike values. -/
theorem Reordered.exchangeable
    {d d' : Datum} (h : d.Reordered d') :
    d.Exchangeable d' := by
  have hrefl (e : Datum × Datum) : e.1.ValueAlike e.1 ∧ e.2.ValueAlike e.2 :=
    ⟨valueAlike_refl e.1, valueAlike_refl e.2⟩
  induction h with
  | refl d => exact fun hkeys => ⟨hkeys, valueAlike_refl d, valueAlike_refl d⟩
  | trans _ _ ih ih' =>
      intro hkeys
      obtain ⟨hkeys', hde, hed⟩ := ih hkeys
      obtain ⟨hkeys'', hef, hfe⟩ := ih' hkeys'
      exact ⟨hkeys'', hde.trans hef, hfe.trans hed⟩
  | map h => exact .of_perm .map h (h.map _) (h.flatMap_right _) valueAlike_map_of_perm
  | mapSteps h keys =>
      let node (entries : List StepEntry) : Datum :=
        .mapSteps (entries.flatMap StepEntry.steps ++ keys.map .key)
      have hown (entries : List StepEntry) :
          (node entries).ownKeys = entries.map fun e => e.key.keyText? :=
        stepKeys_entries none entries keys
      refine .of_perm node h ?_ (((h.flatMap_right _).append_right _).map _) ?_
      · rw [hown, hown]
        exact h.map _
      · intro entries entries' hperm hnodup
        rw [hown] at hnodup
        exact valueAlike_of_perm hperm hnodup keys
  | record h => exact .of_perm .record h (h.map _) (h.map _) valueAlike_record_of_perm
  | wrapped h ih =>
      exact .of_part .wrapped ih (fun _ => (List.nil_append _).symm) (fun _ => rfl)
        valueAlike_wrapped
  | item h front back ih =>
      refine .of_part (fun q => .sequence (front ++ q :: back)) ih (fun _ => rfl) (fun _ => rfl) ?_
      exact fun halike => valueAlike_sequence (forall₂_replace valueAlike_refl halike front back)
  | key h content front back ih =>
      have hparts (q : Datum) : parts (.map (front ++ (q, content) :: back)) =
          parts (.map front) ++ q :: content :: parts (.map back) := by
        simp [parts]
      refine .of_part (fun q => .map (front ++ (q, content) :: back)) ih hparts (fun hkey => ?_) ?_
      · simp only [ownKeys, List.map_append, List.map_cons, hkey]
      · exact fun halike => valueAlike_map
          (forall₂_replace hrefl ⟨halike, valueAlike_refl content⟩ front back)
  | content h key front back ih =>
      have hparts (q : Datum) : parts (.map (front ++ (key, q) :: back)) =
          parts (.map front) ++ [key] ++ q :: parts (.map back) := by
        simp [parts]
      refine .of_part (fun q => .map (front ++ (key, q) :: back)) ih hparts (fun _ => ?_) ?_
      · simp only [ownKeys, List.map_append, List.map_cons]
      · exact fun halike => valueAlike_map
          (forall₂_replace hrefl ⟨valueAlike_refl key, halike⟩ front back)
  | keyStep h front back ih =>
      refine .of_part (fun q => .mapSteps (front ++ .key q :: back)) ih (fun _ => List.map_append)
        (fun hkey => ?_) ?_
      · refine stepKeys_append_congr (fun waiting => ?_) none front
        rw [stepKeys, stepKeys, hkey]
      · exact fun halike =>
          valueAlike_mapSteps (forall₂_replace stepAlike_refl (.key halike) front back)
  | valueStep h front back ih =>
      refine .of_part (fun q => .mapSteps (front ++ .value q :: back)) ih (fun _ => List.map_append)
        (fun _ => ?_) ?_
      · refine stepKeys_append_congr (fun waiting => ?_) none front
        rw [stepKeys, stepKeys]
      · exact fun halike =>
          valueAlike_mapSteps (forall₂_replace stepAlike_refl (.value halike) front back)
  | field h name front back ih =>
      have hrefl (f : String × Datum) : f.1 = f.1 ∧ f.2.ValueAlike f.2 :=
        ⟨rfl, valueAlike_refl f.2⟩
      refine .of_part (fun q => .record (front ++ (name, q) :: back)) ih
        (fun _ => List.map_append) (fun _ => ?_) ?_
      · simp only [ownKeys, List.map_append, List.map_cons]
      · exact fun halike => valueAlike_record (forall₂_replace hrefl ⟨rfl, halike⟩ front back)

end Datum
end Liquid
