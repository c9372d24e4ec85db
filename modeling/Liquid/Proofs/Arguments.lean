import Liquid.CommandLine
import Liquid.Proofs.MapSteps
import Liquid.Proofs.OneTag
import Liquid.Proofs.Paths

/-!
# Arguments that bind names

An argument binds what stands before its first equals sign to what stands behind it.  Of several
arguments for one name the last counts, and a template that mentions the name as a whole shows its
text, whatever points the name holds.  No path leads into a text, so a name that no argument binds
shows nothing.
-/

namespace Liquid

open Text (Trimmed)

namespace Text

theorem divideAt?_eq_some_iff
    {α : Type} [BEq α] [LawfulBEq α] {sep : α} {l before after : List α} :
    divideAt? sep l = some (before, after) ↔ sep ∉ before ∧ l = before ++ sep :: after := by
  constructor
  · intro h
    have hmem : sep ∈ l := by
      by_contra hnot
      rw [divideAt?_eq_none hnot] at h
      exact absurd h (by simp)
    obtain ⟨front, back, rfl, hfront⟩ := List.eq_append_cons_of_mem hmem
    rw [divideAt?_append hfront] at h
    obtain ⟨rfl, rfl⟩ := Prod.mk.inj (Option.some.inj h)
    exact ⟨hfront, rfl⟩
  · rintro ⟨hbefore, rfl⟩
    exact divideAt?_append hbefore after

theorem trimmed_of_trim_eq
    {s : String} (h : trim s = s) :
    Trimmed s.toList := by
  obtain ⟨l, r, -, -, -, htrimmed⟩ := exists_eq_append_trimChars s.toList
  have hchars : trimChars s.toList = s.toList := by
    rw [← String.toList_inj, trim, String.toList_ofList] at h
    exact h
  rwa [hchars] at htrimmed

end Text

namespace CommandLine

/-! ## What an argument binds -/

/-- The argument binds the name to the text, which stands behind its first equals sign. -/
def Binds (arg name value : String) : Prop :=
  '=' ∉ name.toList ∧ arg = name ++ "=" ++ value

instance (arg name value : String) : Decidable (Binds arg name value) :=
  inferInstanceAs (Decidable (_ ∧ _))

/-- The last of the arguments that bind the name binds it to the text. -/
def BoundLast (args : List String) (name value : String) : Prop :=
  ∃ arg, Binds arg name value ∧ IsLast (fun arg => ∃ other, Binds arg name other) args arg

theorem binding?_eq_some_iff
    {arg name value : String} :
    binding? arg = some (name, value) ↔ Binds arg name value := by
  have hchars : (name ++ "=" ++ value).toList = name.toList ++ '=' :: value.toList := by simp
  have hparts (parts : List Char × List Char) :
      (String.ofList parts.1, String.ofList parts.2) = (name, value) ↔
        parts = (name.toList, value.toList) := by
    rw [Prod.mk.injEq, Prod.ext_iff, ← String.toList_inj, ← String.toList_inj,
      String.toList_ofList, String.toList_ofList]
  rw [binding?, Option.map_eq_some_iff]
  simp only [hparts, exists_eq_right]
  rw [Text.divideAt?_eq_some_iff, Binds, ← String.toList_inj, hchars]

theorem Binds.unique
    {arg name name' value value' : String} (h : Binds arg name value)
    (h' : Binds arg name' value') :
    name = name' ∧ value = value' := by
  have heq := (binding?_eq_some_iff.mpr h).symm.trans (binding?_eq_some_iff.mpr h')
  exact Prod.mk.inj (Option.some.inj heq)

theorem exists_binds_iff
    {arg name : String} :
    (∃ value, Binds arg name value) ↔ (binding? arg).map Prod.fst = some name := by
  simp [← binding?_eq_some_iff]

instance (arg name : String) : Decidable (∃ value, Binds arg name value) :=
  decidable_of_iff _ exists_binds_iff.symm

theorem exists_binds
    {arg : String} (h : '=' ∈ arg.toList) :
    ∃ name value, Binds arg name value := by
  obtain ⟨before, after, harg, hbefore⟩ := List.eq_append_cons_of_mem h
  refine ⟨String.ofList before, String.ofList after, ?_, ?_⟩
  · rwa [String.toList_ofList]
  · rw [← String.toList_inj, harg]
    simp

theorem bindings?_cons_eq_some_iff
    {arg : String} {rest : List String} {bindings : List (String × String)} :
    bindings? (arg :: rest) = some bindings ↔
      ∃ b bs, binding? arg = some b ∧ bindings? rest = some bs ∧ bindings = b :: bs := by
  rw [bindings?]
  rcases binding? arg with _ | b
  · simp
  · rcases bindings? rest with _ | bs
    · simp
    · simp [eq_comm]

/-- Arguments have bindings just if each of them binds a name. -/
theorem bindings?_eq_some_iff
    {args : List String} {bindings : List (String × String)} :
    bindings? args = some bindings ↔
      List.Forall₂ (fun arg b => Binds arg b.1 b.2) args bindings := by
  induction args generalizing bindings with
  | nil =>
      rw [bindings?, List.forall₂_nil_left_iff, Option.some.injEq]
      exact eq_comm
  | cons arg rest ih =>
      simp only [bindings?_cons_eq_some_iff, List.forall₂_cons_left_iff, ih,
        ← binding?_eq_some_iff]

theorem exists_bindings?
    {args : List String} (h : ∀ arg ∈ args, '=' ∈ arg.toList) :
    ∃ bindings, bindings? args = some bindings := by
  induction args with
  | nil => exact ⟨[], rfl⟩
  | cons arg rest ih =>
      obtain ⟨harg, hrest⟩ := List.forall_mem_cons.mp h
      obtain ⟨name, value, hbinds⟩ := exists_binds harg
      obtain ⟨bindings, hbindings⟩ := ih hrest
      refine ⟨(name, value) :: bindings, ?_⟩
      rw [bindings?_eq_some_iff] at hbindings ⊢
      exact .cons hbinds hbindings

/-! ## The data that the bindings make up -/

def textEntries (bindings : List (String × String)) : List (String × Value) :=
  bindings.map fun b => (b.1, .str b.2)

theorem addEntries_texts
    {b : MapBuilder} (hb : b.key? = none) (bindings : List (String × String)) :
    Datum.addEntries b (bindings.map fun e => (.text e.1, .text e.2)) =
      .ok (b.insertAll (textEntries bindings)) := by
  induction bindings generalizing b with
  | nil => rfl
  | cons e rest ih =>
      have hb' : ({ b with key? := none } : MapBuilder) = b := by rw [← hb]
      have hstep : Datum.addEntries b (((e :: rest).map fun e => (.text e.1, .text e.2))) =
          Datum.addEntries ({ b with key? := none }.insert e.1 (.str e.2))
            (rest.map fun e => (.text e.1, .text e.2)) := rfl
      rw [hstep, hb', ih (b := b.insert e.1 (.str e.2)) hb]
      rfl

/-- The data are a map that keeps the last text of each name. -/
theorem exists_toValue_data (bindings : List (String × String)) :
    ∃ entries, (data bindings).toValue = .ok (.map entries) ∧
      MapBuilder.KeepsLast (textEntries bindings) entries := by
  refine ⟨_, ?_, MapBuilder.keepsLast_insertAll (textEntries bindings)⟩
  rw [data, Datum.toValue, addEntries_texts rfl]
  rfl

section

variable {args : List String} {bindings : List (String × String)}

theorem forall₂_textEntries
    (h : bindings? args = some bindings) :
    List.Forall₂ (fun arg e => ∃ value, Binds arg e.1 value ∧ e.2 = .str value) args
      (textEntries bindings) := by
  rw [textEntries, List.forall₂_map_right_iff]
  exact (bindings?_eq_some_iff.mp h).imp fun arg b hbinds => ⟨b.2, hbinds, rfl⟩

variable {entries : List (String × Value)}
  (kept : MapBuilder.KeepsLast (textEntries bindings) entries)

include kept

/-- Under a name stands the text to which the last argument for it binds it. -/
theorem lookup_eq_some_iff
    (h : bindings? args = some bindings) {name : String} {v : Value} :
    entries.lookup name = some v ↔ ∃ value, BoundLast args name value ∧ v = .str value := by
  have hset := forall₂_textEntries h
  have hname {arg : String} {e : String × Value}
      (he : ∃ value, Binds arg e.1 value ∧ e.2 = .str value) :
      (∃ other, Binds arg name other) ↔ e.1 = name := by
    obtain ⟨value, hbinds, -⟩ := he
    constructor
    · rintro ⟨other, hother⟩
      exact (hbinds.unique hother).1
    · rintro rfl
      exact ⟨value, hbinds⟩
  rw [kept.lookup]
  constructor
  · intro hlast
    obtain ⟨arg, ⟨value, hbinds, hv⟩, hlast'⟩ :=
      hlast.exists_of_forall₂ hset.flip (q := fun arg => ∃ other, Binds arg name other)
        fun e arg he => (hname he).symm
    exact ⟨value, ⟨arg, hbinds, hlast'⟩, hv⟩
  · rintro ⟨value, ⟨arg, hbinds, hlast⟩, rfl⟩
    obtain ⟨⟨name', v⟩, ⟨value', hbinds', hv⟩, hlast'⟩ :=
      hlast.exists_of_forall₂ hset (q := (·.1 = name)) fun arg e he => hname he
    obtain ⟨rfl, rfl⟩ := hbinds.unique hbinds'
    obtain rfl : v = .str value := hv
    exact hlast'

theorem exists_str_of_lookup
    {name : String} {v : Value} (hv : entries.lookup name = some v) :
    ∃ value, v = .str value := by
  obtain ⟨-, front, back, hset, -⟩ := (kept.lookup name v).mp hv
  have hmem : (name, v) ∈ textEntries bindings := by simp [hset]
  obtain ⟨b, -, hb⟩ := List.mem_map.mp hmem
  exact ⟨b.2, (Prod.mk.inj hb).2.symm⟩

end

/-! ## Paths over texts -/

/-- Where every entry is a text, a path is found just as a key. -/
theorem find?_of_texts
    {entries : List (String × Value)}
    (h : ∀ name v, entries.lookup name = some v → ∃ value, v = .str value) (options : Options)
    (path : String) :
    (Context.new (.map entries) options).find? path = entries.lookup path := by
  have hbinding (name : String) :
      (Context.new (.map entries) options).binding? name = entries.lookup name := rfl
  have hinto (value : String) (rest : String) :
      (Value.str value).follow? (pathSegments rest) = none := by
    obtain ⟨key, keys, hsegments⟩ := List.exists_cons_of_ne_nil (pathSegments_ne_nil rest)
    rw [hsegments, Value.follow?]
    rfl
  rw [Context.find?]
  simp only [hbinding]
  cases hwhole : entries.lookup path with
  | some v => rfl
  | none =>
      cases Text.divideAt? '.' path.toList with
      | none => rfl
      | some parts =>
          cases hhead : entries.lookup (String.ofList parts.1) with
          | none => simp only [hhead]
          | some v =>
              obtain ⟨value, rfl⟩ := h _ v hhead
              simp only [hhead, hinto]

/-- What is bound last to a name is shown for it, and nothing for a name without a binding. -/
theorem exists_evaluate
    {args : List String} {bindings : List (String × String)} (h : bindings? args = some bindings)
    {entries : List (String × Value)} (kept : MapBuilder.KeepsLast (textEntries bindings) entries)
    {k : String} (trimmed : Trimmed k.toList) (hliteral : Value.ofLiteral? k = none) :
    ∃ v, (Context.new (.map entries) {}).evaluate k = .ok v ∧
      (∀ value, BoundLast args k value → v.display = value) ∧
      ((∀ arg ∈ args, ¬∃ value, Binds arg k value) → v.display = "") := by
  have hfind := find?_of_texts (fun name v => exists_str_of_lookup kept) {} k
  have hevaluate : (Context.new (.map entries) {}).evaluate k =
      .ok ((entries.lookup k).getD .nil) := by
    rw [Context.evaluate, Text.trim_of_trimmed trimmed]
    simp only [hliteral, hfind]
    cases entries.lookup k with
    | none => rfl
    | some v => rfl
  refine ⟨_, hevaluate, ?_, ?_⟩
  · intro value hlast
    rw [(lookup_eq_some_iff kept h).mpr ⟨value, hlast, rfl⟩]
    rfl
  · intro hunbound
    have hnone : entries.lookup k = none := by
      rw [Option.eq_none_iff_forall_ne_some]
      intro v hv
      obtain ⟨value, ⟨arg, hbinds, -, front, back, hargs, -⟩, -⟩ :=
        (lookup_eq_some_iff kept h).mp hv
      exact hunbound arg (hargs ▸ List.mem_append_right front List.mem_cons_self) ⟨value, hbinds⟩
    rw [hnone]
    rfl

/-! ## The program -/

/-- An argument that starts with a dash, but is more than a dash. -/
def IsOption (arg : String) : Prop :=
  ∃ c rest, arg.toList = '-' :: c :: rest

/-- The arguments of a run that are no options: all of them, or those before a double dash and all
those behind it. -/
inductive Positional : List String → List String → Prop
  | nil : Positional [] []
  | mark (rest : List String) : Positional ("--" :: rest) rest
  | plain {arg : String} {rest args : List String} (h : ¬IsOption arg)
    (hrest : Positional rest args) : Positional (arg :: rest) (arg :: args)

theorem Positional.ofArgsAfter_eq
    {arguments args : List String} (h : Positional arguments args) (before : List String) :
    ofArgsAfter before arguments = ofPositional (before ++ args) := by
  induction h generalizing before with
  | nil => rw [ofArgsAfter, List.append_nil]
  | mark rest => rfl
  | @plain arg rest args harg _ ih =>
      have hlater : ofArgsAfter (before ++ [arg]) rest = ofPositional (before ++ arg :: args) := by
        rw [ih, List.append_assoc, List.singleton_append]
      rw [← hlater, ofArgsAfter]
      split
      · next hchars => exact absurd ⟨'-', [], hchars⟩ harg
      · next rest' _ hchars => exact absurd ⟨'-', rest', hchars⟩ harg
      · next c rest' _ _ hchars => exact absurd ⟨c, rest', hchars⟩ harg
      · rfl

theorem Positional.ofArgs_eq
    {arguments args : List String} {path : String} {bindings : List (String × String)}
    (h : Positional arguments (path :: args)) (hpath : path ≠ "")
    (hbindings : bindings? args = some bindings) :
    Invocation.ofArgs arguments = .render path bindings := by
  have hempty : path.isEmpty = false := by simpa using hpath
  rw [Invocation.ofArgs, h.ofArgsAfter_eq, List.nil_append, ofPositional, hempty, hbindings]
  rfl

theorem renderText_of_renderTemplate
    {source text : String} {bindings : List (String × String)}
    (h : renderTemplate .standard source (data bindings) = .ok (text, [])) (path : String) :
    renderText path source bindings = { status := 0, stdout := text } := by
  rw [renderTemplate] at h
  rw [renderText]
  cases hparse : Template.parse .standard {} source with
  | error e => simp [hparse] at h
  | ok t =>
      simp only [hparse] at h
      simp only [h]
      rfl

theorem renderTemplate_of_shows
    {source text : String} {d : Datum} {root : Value} (hroot : d.toValue = .ok root)
    (h : Shows {} root source text) :
    renderTemplate .standard source d = .ok (text, []) := by
  obtain ⟨t, hparse, hrender⟩ := h
  rw [renderTemplate, hparse]
  simp only [Template.renderDatum, hroot, hrender]
  rfl

/-- Arguments with an equals sign bind names, and a template of one name shows the text to which the
last of those that bind this name binds it; without one it shows nothing.  No error is recovered on
the way.  This is what the program writes, whether its options are ended or there are none. -/
theorem bindings_reach_template
    {args : List String} (hargs : ∀ arg ∈ args, '=' ∈ arg.toList) {k : String}
    (htrim : Text.trim k = k) (hbrace : '}' ∉ k.toList) (hbar : '|' ∉ k.toList)
    (hliteral : Value.ofLiteral? k = none) :
    ∃ bindings text, bindings? args = some bindings ∧
      (∀ value, BoundLast args k value → text = value) ∧
      ((∀ arg ∈ args, ¬∃ value, Binds arg k value) → text = "") ∧
      renderTemplate .standard (expressionSource k) (data bindings) = .ok (text, []) ∧
      ∀ (arguments : List String) (path : String) (bytes : List UInt8)
        (read : String → Id (Except ReadFailure (List UInt8))),
        Positional arguments (path :: args) → path ≠ "" → read path = .ok bytes →
          Text.decode? bytes = some (expressionSource k) →
            (Invocation.ofArgs arguments).run read = ({ status := 0, stdout := text } : Outcome) := by
  have trimmed : Trimmed k.toList := Text.trimmed_of_trim_eq htrim
  obtain ⟨bindings, hbindings⟩ := exists_bindings? hargs
  obtain ⟨entries, hroot, kept⟩ := exists_toValue_data bindings
  obtain ⟨v, hv, hlast, hnone⟩ := exists_evaluate hbindings kept trimmed hliteral
  have hshown := renderTemplate_of_shows hroot (shows_expressionSource trimmed hbrace hbar hv)
  refine ⟨bindings, v.display, hbindings, hlast, hnone, hshown, ?_⟩
  intro arguments path bytes read hpositional hpath hread hdecode
  have hrun : CommandLine.render path bindings (.ok bytes) =
      { status := 0, stdout := v.display } := by
    rw [CommandLine.render]
    simp only [hdecode]
    exact renderText_of_renderTemplate hshown path
  rw [hpositional.ofArgs_eq hpath hbindings, Invocation.run, hread]
  exact hrun

/-- A name with a point is bound twice, the second time to a text with an equals sign; the empty text
is a name; and no path leads into the text of `a`.  Behind the mark an argument starts with a
dash. -/
theorem bindings_reach_template_dotted_name :
    let args := ["a.b=1", "=e=", "a=z", "-a=0", "a.b=x=y"]
    let bindings := [("a.b", "1"), ("", "e="), ("a", "z"), ("-a", "0"), ("a.b", "x=y")]
    let arguments := ["page.liquid", "a.b=1", "=e=", "--", "a=z", "-a=0", "a.b=x=y"]
    let content : List UInt8 := [0x7B, 0x7B, 0x20, 0x61, 0x2E, 0x62, 0x20, 0x7D, 0x7D]
    let read : String → Id (Except ReadFailure (List UInt8)) := fun _ => .ok content
    (∀ arg ∈ args, '=' ∈ arg.toList) ∧
      (∀ k ∈ ["a.b", "", "a.c"],
        Text.trim k = k ∧ '}' ∉ k.toList ∧ '|' ∉ k.toList ∧ Value.ofLiteral? k = none) ∧
      BoundLast args "a.b" "x=y" ∧ Positional arguments ("page.liquid" :: args) ∧
      renderTemplate .standard (expressionSource "a.b") (data bindings) = .ok ("x=y", []) ∧
      renderTemplate .standard (expressionSource "") (data bindings) = .ok ("e=", []) ∧
      renderTemplate .standard (expressionSource "a.c") (data bindings) = .ok ("", []) ∧
      (Invocation.ofArgs arguments).run read = ({ status := 0, stdout := "x=y" } : Outcome) := by
  intro args bindings arguments content read
  have hargs : ∀ arg ∈ args, '=' ∈ arg.toList := by decide
  have hnames : ∀ k ∈ ["a.b", "", "a.c"],
      Text.trim k = k ∧ '}' ∉ k.toList ∧ '|' ∉ k.toList ∧ Value.ofLiteral? k = none := by
    simp only [List.forall_mem_cons]
    decide
  have hbindings : bindings? args = some bindings := by decide
  have hdotted : BoundLast args "a.b" "x=y" :=
    ⟨"a.b=x=y", by decide, by decide, args.dropLast, [], by decide, by decide⟩
  have hempty : BoundLast args "" "e=" :=
    ⟨"=e=", by decide, by decide, ["a.b=1"], ["a=z", "-a=0", "a.b=x=y"], by decide, by decide⟩
  have hunbound : ∀ arg ∈ args, ¬∃ value, Binds arg "a.c" value := by decide
  have hpositional : Positional arguments ("page.liquid" :: args) := by
    refine .plain ?_ (.plain ?_ (.plain ?_ (.mark _)))
    all_goals
      rintro ⟨c, rest, hchars⟩
      exact absurd hchars (by simp)
  have happly {k : String} (hk : k ∈ ["a.b", "", "a.c"]) :=
    bindings_reach_template hargs (hnames k hk).1 (hnames k hk).2.1 (hnames k hk).2.2.1
      (hnames k hk).2.2.2
  obtain ⟨bs, text, hbs, hlast, -, hshown, hrun⟩ := happly (k := "a.b") (by decide)
  obtain ⟨bs', text', hbs', hlast', -, hshown', -⟩ := happly (k := "") (by decide)
  obtain ⟨bs'', text'', hbs'', -, hnone, hshown'', -⟩ := happly (k := "a.c") (by decide)
  obtain rfl := Option.some.inj (hbs.symm.trans hbindings)
  obtain rfl := Option.some.inj (hbs'.symm.trans hbindings)
  obtain rfl := Option.some.inj (hbs''.symm.trans hbindings)
  obtain rfl := hlast _ hdotted
  obtain rfl := hlast' _ hempty
  obtain rfl := hnone hunbound
  have hwritten := hrun arguments "page.liquid" content read hpositional (by decide) rfl
    (by decide)
  exact ⟨hargs, hnames, hdotted, hpositional, hshown, hshown', hshown'', hwritten⟩

end CommandLine
end Liquid
