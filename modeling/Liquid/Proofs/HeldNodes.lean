import Liquid.Proofs.Descent
import Liquid.StandardTags

/-!
# What a block held before

Opening a block empties the list to which nodes are added.  What the block holds beside this list is
out of reach, unless the block itself turns back to it at a tag that the registry does not know.
Two readings of a block that differ only in such nodes are followed step by step.
-/

namespace Liquid

/-! ## Lists of a body -/

namespace Body

/-- The list to which nodes are added. -/
def list (b : Body) : Array Node :=
  b.alternative.getD b.main

/-- Two bodies that may differ in the nodes of their lists, and in nothing else. -/
structure SameButNodes (b b' : Body) : Prop where
  second : b.alternative.isSome = b'.alternative.isSome
  closed : b.closed = b'.closed

/-- Two bodies that may differ in the nodes of the first list if the second has begun, and in
nothing else. -/
structure SameList (b b' : Body) : Prop extends SameButNodes b b' where
  list : b.list = b'.list

theorem SameList.refl (b : Body) : b.SameList b :=
  ⟨⟨rfl, rfl⟩, rfl⟩

theorem list_push (b : Body) (n : Node) : (b.push n).list = b.list.push n := by
  obtain ⟨main, alternative, closed⟩ := b
  cases alternative with
  | none => rfl
  | some nodes => rfl

theorem sameButNodes_push (b : Body) (n : Node) : b.SameButNodes (b.push n) := by
  obtain ⟨main, alternative, closed⟩ := b
  cases alternative with
  | none => exact ⟨rfl, rfl⟩
  | some nodes => exact ⟨rfl, rfl⟩

theorem SameList.push
    {b b' : Body} (h : b.SameList b') (n : Node) :
    (b.push n).SameList (b'.push n) := by
  have hb := b.sameButNodes_push n
  have hb' := b'.sameButNodes_push n
  refine ⟨⟨?_, ?_⟩, ?_⟩
  · rw [← hb.second, ← hb'.second, h.second]
  · rw [← hb.closed, ← hb'.closed, h.closed]
  · rw [list_push, list_push, h.list]

theorem SameList.close
    {b b' : Body} (h : b.SameList b') :
    b.close.SameList b'.close :=
  ⟨⟨h.second, rfl⟩, h.list⟩

theorem SameButNodes.clear
    {b b' : Body} (h : b.SameButNodes b') :
    b.clear.SameList b'.clear := by
  obtain ⟨main, alternative, closed⟩ := b
  obtain ⟨main', alternative', closed'⟩ := b'
  obtain ⟨hsecond, hclosed⟩ := h
  cases alternative with
  | none =>
      obtain rfl : alternative' = none := by simpa using hsecond.symm
      exact ⟨⟨rfl, hclosed⟩, rfl⟩
  | some nodes =>
      obtain ⟨nodes', rfl⟩ : ∃ nodes', alternative' = some nodes' :=
        Option.isSome_iff_exists.mp hsecond.symm
      exact ⟨⟨rfl, hclosed⟩, rfl⟩

end Body

/-! ## Answers that keep to the list -/

/-- Two answers at a tag that ask for the same while tokens are left, and give the block the same
list. -/
inductive Reading.SameList : Reading → Reading → Prop
  | done (node : Node) : SameList (.done node) (.done node)
  | become {b b' : Body} (h : b.SameList b') : SameList (.become b) (.become b')
  | refuse (error : Nat → Error) : SameList (.refuse error) (.refuse error)
  | tokens {resume resume' : List Token → Option Reading} {exhausted exhausted' : List Token → Reading}
    (h : ∀ taken, Option.Rel SameList (resume taken) (resume' taken)) :
    SameList (.tokens resume exhausted) (.tokens resume' exhausted')
  | block {rules : BlockRules} {held : Body} {resume resume' : Body → Reading}
    (h : ∀ body, SameList (resume body) (resume' body)) :
    SameList (.block rules held resume) (.block rules held resume')

mutual

theorem Reading.SameList.refl : ∀ r : Reading, r.SameList r
  | .done node => .done node
  | .become body => .become (.refl body)
  | .refuse error => .refuse error
  | .tokens resume _ => .tokens fun taken => Reading.SameList.rel_self (resume taken)
  | .block _ _ resume => .block fun body => Reading.SameList.refl (resume body)
termination_by structural r => r

theorem Reading.SameList.rel_self : ∀ o : Option Reading, Option.Rel Reading.SameList o o
  | none => .none
  | some r => .some (Reading.SameList.refl r)
termination_by structural o => o

end

/-- What the block does at a tag that the registry does not know depends on its list, and on no other
node that it holds. -/
def BlockRules.KeepsToList (rules : BlockRules) : Prop :=
  ∀ site b b' answer, b.SameList b' → rules.unknownTag site b = .ok answer →
    ∃ answer', rules.unknownTag site b' = .ok answer' ∧ answer.SameList answer'

theorem BlockRules.keepsToList_of_refuses
    {rules : BlockRules} (h : ∀ site body answer, rules.unknownTag site body ≠ .ok answer) :
    rules.KeepsToList :=
  fun site b _ answer _ hok => absurd hok (h site b answer)

/-- A block that takes no tags of its own keeps to its list, as loops and comments do. -/
theorem BlockRules.keepsToList_of_name (name : String) : BlockRules.KeepsToList { name := name } :=
  keepsToList_of_refuses fun _ _ _ hok => by simp at hok

/-- A conditional looks at whether its second list has begun, and at no node. -/
theorem StandardTags.conditionalRules_keepsToList : conditionalRules.KeepsToList := by
  intro site b b' answer same hok
  simp only [conditionalRules] at hok ⊢
  split at hok
  · next htakes =>
      obtain rfl := Except.ok.inj hok
      rw [Bool.and_eq_true, ← Option.not_isSome, same.second, Option.not_isSome] at htakes
      rw [if_pos (Bool.and_eq_true_iff.mpr htakes)]
      exact ⟨_, rfl, .become ⟨⟨rfl, same.closed⟩, rfl⟩⟩
  · exact absurd hok (by simp)

/-! ## Two readings of a block -/

/-- Two tags that take tokens, have taken the same, and go on alike. -/
def TokenRequest.SameList (q q' : TokenRequest) : Prop :=
  q.taken = q'.taken ∧ ∀ taken, Option.Rel Reading.SameList (q.resume taken) (q'.resume taken)

/-- Two readings that differ at most in the nodes that the outermost block holds beside its list. -/
inductive ReaderState.SameList : ReaderState → ReaderState → Prop
  | outermost {rules : BlockRules} {openedAt line depth : Nat} {b b' : Body}
    {request request' : Option TokenRequest} (keeps : rules.KeepsToList) (same : b.SameList b')
    (requests : Option.Rel TokenRequest.SameList request request') :
    SameList ⟨⟨rules, openedAt, b⟩, [], request, line, depth⟩
      ⟨⟨rules, openedAt, b'⟩, [], request', line, depth⟩
  | inside (s : ReaderState) {rules : BlockRules} {openedAt : Nat} {b b' : Body}
    {resume resume' : Body → Reading} (keeps : rules.KeepsToList) (same : b.SameList b')
    (resumes : ∀ body, (resume body).SameList (resume' body)) :
    SameList (s.under [⟨⟨rules, openedAt, b⟩, resume⟩]) (s.under [⟨⟨rules, openedAt, b'⟩, resume'⟩])

/-- Two steps that lead to readings of the same list, or close the block with the same list. -/
inductive Progress.SameList : Progress → Progress → Prop
  | reading {s s' : ReaderState} (h : s.SameList s') : SameList (.reading s) (.reading s')
  | closed {b b' : Body} (h : b.SameList b') (depth : Nat) : SameList (.closed b depth) (.closed b' depth)

namespace ReaderState

variable {registry : Registry} {options : Options}

section

variable {rules : BlockRules} {b b' : Body} (keeps : rules.KeepsToList) (same : b.SameList b')
  (openedAt line depth : Nat)

include keeps same

theorem sameList_proceed
    {answer answer' : Reading} (h : answer.SameList answer') {after : ReaderState}
    (hok : proceed options ⟨⟨rules, openedAt, b⟩, [], none, line, depth⟩ answer = .ok after) :
    ∃ after', proceed options ⟨⟨rules, openedAt, b'⟩, [], none, line, depth⟩ answer' = .ok after' ∧
      after.SameList after' := by
  cases h with
  | done node =>
      obtain rfl := Except.ok.inj hok
      exact ⟨_, rfl, .outermost keeps (same.push node) .none⟩
  | become h =>
      obtain rfl := Except.ok.inj hok
      exact ⟨_, rfl, .outermost keeps h .none⟩
  | refuse error => exact absurd hok (by simp [proceed])
  | @tokens resume resume' exhausted exhausted' h =>
      obtain rfl := Except.ok.inj hok
      exact ⟨_, rfl, .outermost keeps same (.some ⟨rfl, h⟩)⟩
  | @block inner held resume resume' h =>
      rw [proceed, enter] at hok
      split at hok
      · exact absurd hok (by simp)
      · next hdeep =>
          obtain rfl := Except.ok.inj hok
          exact ⟨_, if_neg hdeep,
            .inside ⟨⟨inner, line, held.clear⟩, [], none, line, depth + 1⟩ keeps same h⟩

theorem sameList_map_proceed
    {answer answer' : Reading} (h : answer.SameList answer') {progress : Progress}
    (hok : Progress.reading <$>
      proceed options ⟨⟨rules, openedAt, b⟩, [], none, line, depth⟩ answer = .ok progress) :
    ∃ progress', Progress.reading <$>
        proceed options ⟨⟨rules, openedAt, b'⟩, [], none, line, depth⟩ answer' = .ok progress' ∧
      progress.SameList progress' := by
  obtain ⟨after, hafter, rfl⟩ := map_reading_eq_ok_iff.mp hok
  obtain ⟨after', hafter', hsame⟩ := sameList_proceed keeps same openedAt line depth h hafter
  exact ⟨_, map_reading_eq_ok_iff.mpr ⟨after', hafter', rfl⟩, .reading hsame⟩

theorem sameList_readTag
    {name markup : String} {progress : Progress}
    (hok : readTag registry options ⟨⟨rules, openedAt, b⟩, [], none, line, depth⟩ name markup =
      .ok progress) :
    ∃ progress', readTag registry options ⟨⟨rules, openedAt, b'⟩, [], none, line, depth⟩ name
        markup = .ok progress' ∧ progress.SameList progress' := by
  simp only [readTag] at hok ⊢
  split at hok
  · next hdelimiter =>
      obtain rfl := Except.ok.inj hok
      exact ⟨_, if_pos hdelimiter, .closed same.close _⟩
  · next hdelimiter =>
      rw [if_neg hdelimiter]
      generalize (if isReserved name then none else registry.find? name) = found at hok ⊢
      cases found with
      | some definition => exact sameList_map_proceed keeps same openedAt line depth (.refl _) hok
      | none =>
          simp only at hok ⊢
          split at hok
          · next answer hanswer =>
              obtain ⟨answer', hanswer', hsame⟩ := keeps _ _ _ _ same hanswer
              simp only [hanswer']
              exact sameList_map_proceed keeps same openedAt line depth hsame hok
          · exact absurd hok (by simp)

theorem sameList_readToken
    {t : Token} {progress : Progress}
    (hok : readToken registry options ⟨⟨rules, openedAt, b⟩, [], none, line, depth⟩ t =
      .ok progress) :
    ∃ progress', readToken registry options ⟨⟨rules, openedAt, b'⟩, [], none, line, depth⟩ t =
        .ok progress' ∧ progress.SameList progress' := by
  simp only [readToken] at hok ⊢
  split at hok
  · split at hok
    · exact sameList_readTag keeps same openedAt line depth hok
    · exact absurd hok (by simp)
  · split at hok
    · obtain rfl := Except.ok.inj hok
      exact ⟨_, rfl, .reading (.outermost keeps (same.push _) .none)⟩
    · exact absurd hok (by simp)
  · obtain rfl := Except.ok.inj hok
    exact ⟨_, rfl, .reading (.outermost keeps same .none)⟩
  · obtain rfl := Except.ok.inj hok
    exact ⟨_, rfl, .reading (.outermost keeps (same.push _) .none)⟩

end

/-- A step does not look beside the list of the outermost block. -/
theorem SameList.step
    {s s' : ReaderState} (h : s.SameList s') {t : Token} {progress : Progress}
    (hok : s.step registry options t = .ok progress) :
    ∃ progress', s'.step registry options t = .ok progress' ∧ progress.SameList progress' := by
  cases h with
  | @outermost rules openedAt line depth b b' request request' keeps same requests =>
      cases requests with
      | none => exact sameList_readToken keeps same openedAt t.line depth hok
      | @some q q' hsame =>
          obtain ⟨htaken, hresume⟩ := hsame
          simp only [ReaderState.step] at hok ⊢
          rw [htaken] at hok
          generalize hanswers : q.resume (t :: q'.taken) = answer at hok
          generalize hanswers' : q'.resume (t :: q'.taken) = answer'
          have hrel := hresume (t :: q'.taken)
          rw [hanswers, hanswers'] at hrel
          cases hrel with
          | none =>
              obtain rfl := Except.ok.inj hok
              exact ⟨_, rfl, .reading (.outermost keeps same (.some ⟨rfl, hresume⟩))⟩
          | some hanswer => exact sameList_map_proceed keeps same openedAt t.line depth hanswer hok
  | @inside inner rules openedAt b b' resume resume' keeps same resumes =>
      rw [step_under] at hok ⊢
      cases hstep : inner.step registry options t with
      | error e =>
          rw [hstep] at hok
          exact absurd hok (by simp [bind, Except.bind])
      | ok next =>
          rw [hstep] at hok
          cases next with
          | reading next =>
              obtain rfl := Except.ok.inj hok
              exact ⟨_, rfl, .reading (.inside next keeps same resumes)⟩
          | closed body depth =>
              exact sameList_map_proceed keeps same openedAt t.line depth (resumes body) hok

theorem SameList.after?
    {s s' after : ReaderState} (h : s.SameList s') {front : List Token}
    (hafter : s.after? registry options front = some after) :
    ∃ after', s'.after? registry options front = some after' ∧ after.SameList after' := by
  induction front generalizing s s' with
  | nil =>
      obtain rfl := Option.some.inj hafter
      exact ⟨s', rfl, h⟩
  | cons t front ih =>
      obtain ⟨next, hstep, hnext⟩ := after?_cons_eq_some_iff.mp hafter
      obtain ⟨progress, hstep', hsame⟩ := h.step hstep
      cases hsame with
      | reading hsame =>
          obtain ⟨after', hafter', hsame'⟩ := ih hsame hnext
          exact ⟨after', after?_cons_eq_some_iff.mpr ⟨_, hstep', hafter'⟩, hsame'⟩

end ReaderState

/-! ## Opening a block -/

end Liquid
