import Liquid.Proofs.HeldNodes
import Liquid.Proofs.Marker
import Liquid.StandardTags

/-!
# Closing tags

A block that is closed by its closing tag has been read once and for all: whatever follows is left
unread and makes no difference to the nodes of the block, and as many blocks are open around it as
before.  What carries this is an invariant of the reading, which ties the number of open blocks to
the blocks on the stack; the only step that ends the reading is that on the closing tag of the
outermost block.  Nodes that the block held before come back only if the block itself gives up the
list that was emptied when it was opened.
-/

namespace Liquid
namespace ReaderState

variable {registry : Registry} {options : Options} {rules : BlockRules} {depth : Nat}

/-! ## The blocks that are open -/

def outermostRules (s : ReaderState) : BlockRules :=
  (s.outer.map (·.block.rules)).getLastD s.block.rules

/-- The reading of a block with these rules began with so many blocks open around it. -/
structure Within (rules : BlockRules) (depth : Nat) (s : ReaderState) : Prop where
  rules : s.outermostRules = rules
  depth : s.depth = depth + 1 + s.outer.length

end ReaderState

/-- A reading that goes on is still one of the block with these rules; a reading that is over leaves
so many blocks open as there were before. -/
def Progress.Within (rules : BlockRules) (depth : Nat) : Progress → Prop
  | .reading s => s.Within rules depth
  | .closed _ left => left = depth

namespace ReaderState

variable {registry : Registry} {options : Options} {rules : BlockRules} {depth : Nat}

theorem Within.enter
    {s after : ReaderState} {inner : BlockRules} {held : Body} {resume : Body → Reading}
    (h : s.Within rules depth) (hok : s.enter options inner held resume = .ok after) :
    after.Within rules depth := by
  unfold ReaderState.enter at hok
  split at hok
  · exact absurd hok (by simp)
  · obtain rfl := Except.ok.inj hok
    refine ⟨?_, ?_⟩
    · rw [← h.rules, outermostRules, List.map_cons, List.getLastD_cons]
      rfl
    · simp only [List.length_cons, h.depth]
      omega

theorem Within.proceed
    {s after : ReaderState} {reading : Reading} (h : s.Within rules depth)
    (hok : s.proceed options reading = .ok after) :
    after.Within rules depth := by
  cases reading with
  | done node =>
      obtain rfl := Except.ok.inj hok
      exact ⟨h.rules, h.depth⟩
  | become body =>
      obtain rfl := Except.ok.inj hok
      exact ⟨h.rules, h.depth⟩
  | refuse error => exact absurd hok (by simp [ReaderState.proceed])
  | tokens resume exhausted =>
      obtain rfl := Except.ok.inj hok
      exact ⟨h.rules, h.depth⟩
  | block inner held resume => exact h.enter hok

theorem Within.map_proceed
    {s : ReaderState} {reading : Reading} {progress : Progress} (h : s.Within rules depth)
    (hok : Progress.reading <$> s.proceed options reading = .ok progress) :
    progress.Within rules depth := by
  obtain ⟨after, hafter, rfl⟩ := map_reading_eq_ok_iff.mp hok
  exact h.proceed hafter

/-- Around a block that is closed, one block fewer is open. -/
theorem Within.leave
    {s : ReaderState} {waiting : WaitingBlock} {outer : List WaitingBlock}
    (h : s.Within rules depth) (houter : s.outer = waiting :: outer) :
    Within rules depth { s with block := waiting.block, outer := outer, depth := s.depth - 1 } := by
  refine ⟨?_, ?_⟩
  · rw [← h.rules, outermostRules, outermostRules, houter, List.map_cons, List.getLastD_cons]
  · simp only [h.depth, houter, List.length_cons]
    omega

theorem Within.close
    {s : ReaderState} {progress : Progress} (h : s.Within rules depth)
    (hok : s.close options = .ok progress) :
    progress.Within rules depth := by
  rw [ReaderState.close] at hok
  split at hok
  · next houter =>
      obtain rfl := Except.ok.inj hok
      have hdepth := h.depth
      rw [houter, List.length_nil, Nat.add_zero] at hdepth
      exact congrArg (· - 1) hdepth
  · next waiting outer houter => exact (h.leave houter).map_proceed hok

theorem Within.readTag
    {s : ReaderState} {name markup : String} {progress : Progress} (h : s.Within rules depth)
    (hok : s.readTag registry options name markup = .ok progress) :
    progress.Within rules depth := by
  simp only [ReaderState.readTag] at hok
  split at hok
  · exact h.close hok
  split at hok
  · exact h.map_proceed hok
  split at hok
  · exact h.map_proceed hok
  · exact absurd hok (by simp)

theorem Within.readToken
    {s : ReaderState} {t : Token} {progress : Progress} (h : s.Within rules depth)
    (hok : s.readToken registry options t = .ok progress) :
    progress.Within rules depth := by
  simp only [ReaderState.readToken] at hok
  split at hok
  · split at hok
    · exact h.readTag hok
    · exact absurd hok (by simp)
  · split at hok
    · obtain rfl := Except.ok.inj hok
      exact ⟨h.rules, h.depth⟩
    · exact absurd hok (by simp)
  · obtain rfl := Except.ok.inj hok
    exact h
  · obtain rfl := Except.ok.inj hok
    exact ⟨h.rules, h.depth⟩

theorem Within.step
    {s : ReaderState} {t : Token} {progress : Progress} (h : s.Within rules depth)
    (hok : s.step registry options t = .ok progress) :
    progress.Within rules depth := by
  simp only [ReaderState.step] at hok
  split at hok
  · split at hok
    · have hidle : Within rules depth { s with line := t.line, request := none } :=
        ⟨h.rules, h.depth⟩
      exact hidle.map_proceed hok
    · obtain rfl := Except.ok.inj hok
      exact ⟨h.rules, h.depth⟩
  · have hline : Within rules depth { s with line := t.line } := ⟨h.rules, h.depth⟩
    exact hline.readToken hok

theorem Within.after?
    {s after : ReaderState} {front : List Token} (h : s.Within rules depth)
    (hafter : s.after? registry options front = some after) :
    after.Within rules depth := by
  induction front generalizing s with
  | nil => exact Option.some.inj hafter ▸ h
  | cons t front ih =>
      obtain ⟨next, hstep, hnext⟩ := after?_cons_eq_some_iff.mp hafter
      exact ih (h.step hstep) hnext

/-! ## The token that ends the reading -/

theorem close_eq_closed_iff
    {s : ReaderState} {body : Body} {left : Nat} :
    s.close options = .ok (.closed body left) ↔
      s.outer = [] ∧ s.block.body.close = body ∧ s.depth - 1 = left := by
  rw [close]
  cases s.outer with
  | nil => simp
  | cons waiting outer => simp [map_reading_eq_ok_iff]

theorem readTag_eq_closed_iff
    {s : ReaderState} {name markup : String} {body : Body} {left : Nat} :
    s.readTag registry options name markup = .ok (.closed body left) ↔
      s.block.rules.delimiter = some name ∧ s.outer = [] ∧ s.block.body.close = body ∧
        s.depth - 1 = left := by
  by_cases hdelimiter : s.block.rules.delimiter = some name
  · simp [readTag, hdelimiter, close_eq_closed_iff]
  · simp only [readTag, beq_iff_eq, hdelimiter, if_false, false_and, iff_false]
    split
    · simp [map_reading_eq_ok_iff]
    · split <;> simp [map_reading_eq_ok_iff]

theorem readToken_eq_closed_iff
    {s : ReaderState} {t : Token} {body : Body} {left : Nat} :
    s.readToken registry options t = .ok (.closed body left) ↔
      ∃ name markup, t.IsTag name markup ∧
        s.readTag registry options name markup = .ok (.closed body left) := by
  constructor
  · intro h
    simp only [readToken] at h
    split at h
    · split at h
      · next name markup htag => exact ⟨name, markup, Token.tag?_eq_some_iff.mp htag, h⟩
      · exact absurd h (by simp)
    · split at h <;> exact absurd h (by simp)
    · exact absurd h (by simp)
    · exact absurd h (by simp)
  · rintro ⟨name, markup, htag, h⟩
    simp only [readToken, htag.kind, Token.tag?_eq_some_iff.mpr htag]
    exact h

/-- A reading ends at the closing tag of its outermost block, where no block inside is open and no
tag takes tokens as they are, and at no other token. -/
theorem step_eq_closed_iff
    {s : ReaderState} {t : Token} {body : Body} {left : Nat} :
    s.step registry options t = .ok (.closed body left) ↔
      s.request = none ∧ s.outer = [] ∧
        (∃ name markup, t.IsTag name markup ∧ s.block.rules.delimiter = some name) ∧
        s.block.body.close = body ∧ s.depth - 1 = left := by
  simp only [step]
  split
  · next request hrequest =>
      rw [hrequest]
      split <;> simp [map_reading_eq_ok_iff]
  · next hrequest =>
      simp only [readToken_eq_closed_iff, readTag_eq_closed_iff, hrequest, true_and]
      constructor
      · rintro ⟨name, markup, htag, hdelimiter, houter, hbody, hleft⟩
        exact ⟨houter, ⟨name, markup, htag, hdelimiter⟩, hbody, hleft⟩
      · rintro ⟨houter, ⟨name, markup, htag, hdelimiter⟩, hbody, hleft⟩
        exact ⟨name, markup, htag, hdelimiter, houter, hbody, hleft⟩

theorem depth_of_finishBlocks
    {line d left : Nat} {block : OpenBlock} {outer : List WaitingBlock} {body : Body}
    (hok : finishBlocks options line block outer d = .ok (body, left)) :
    left = d - 1 - outer.length := by
  induction outer generalizing block d with
  | nil =>
      rw [finishBlocks] at hok
      split at hok
      · simp only [Except.ok.injEq, Prod.mk.injEq] at hok
        exact hok.2.symm
      · exact absurd hok (by simp)
  | cons waiting outer ih =>
      rw [finishBlocks] at hok
      split at hok
      · split at hok
        · rw [ih hok, List.length_cons, Nat.add_comm, Nat.sub_sub _ 1]
        · exact absurd hok (by simp)
      · exact absurd hok (by simp)

theorem Within.finish
    {s : ReaderState} {body : Body} {left : Nat} (h : s.Within rules depth)
    (hok : s.finish options = .ok (body, left)) :
    left = depth := by
  have hleft : left = s.depth - 1 - s.outer.length := by
    rw [ReaderState.finish] at hok
    split at hok
    · exact depth_of_finishBlocks hok
    · split at hok
      · exact depth_of_finishBlocks hok
      · exact absurd hok (by simp)
  rw [hleft, h.depth]
  omega

/-- After these tokens comes the closing tag of the block in which the reading began: no block inside
is open there, and no tag takes tokens as they are. -/
def ClosesAt (registry : Registry) (options : Options) (rules : BlockRules) (s : ReaderState)
    (front : List Token) (last : Token) : Prop :=
  ∃ before name markup, s.after? registry options front = some before ∧ before.request = none ∧
    before.outer = [] ∧ last.IsTag name markup ∧ rules.delimiter = some name

/-- A run that succeeds either stops at the closing tag of its outermost block or reads all. -/
theorem Within.run_cases
    {s : ReaderState} {ts : List Token} {body : Body} {r : Reader} (h : s.Within rules depth)
    (hok : s.run registry options ts = .ok (body, r)) :
    r.depth = depth ∧
      ((∃ front last, ts = front ++ last :: r.tokens.unread ∧
          s.ClosesAt registry options rules front last) ∨
        r.tokens.unread = []) := by
  induction ts generalizing s with
  | nil =>
      rw [run] at hok
      split at hok
      · next hfinish =>
          simp only [Except.ok.injEq, Prod.mk.injEq] at hok
          obtain ⟨rfl, rfl⟩ := hok
          exact ⟨h.finish hfinish, .inr rfl⟩
      · exact absurd hok (by simp)
  | cons t ts ih =>
      rw [run] at hok
      split at hok
      · next next hstep =>
          obtain ⟨hdepth, hcases⟩ := ih (h.step hstep) hok
          refine ⟨hdepth, ?_⟩
          rcases hcases with ⟨front, last, hts, before, name, markup, hafter, hlast⟩ | hunread
          · have hafter' := after?_cons_eq_some_iff.mpr ⟨next, hstep, hafter⟩
            refine .inl ⟨t :: front, last, ?_, before, name, markup, hafter', hlast⟩
            rw [hts, List.cons_append]
          · exact .inr hunread
      · next hstep =>
          simp only [Except.ok.injEq, Prod.mk.injEq] at hok
          obtain ⟨rfl, rfl⟩ := hok
          refine ⟨h.step hstep, .inl ?_⟩
          obtain ⟨hidle, houter, ⟨name, markup, htag, hdelimiter⟩, -⟩ := step_eq_closed_iff.mp hstep
          refine ⟨[], t, rfl, s, name, markup, rfl, hidle, houter, htag, ?_⟩
          rw [← h.rules, outermostRules, houter]
          exact hdelimiter
      · exact absurd hok (by simp)

end ReaderState

/-! ## Blocks -/

namespace Reader

variable {registry : Registry} {options : Options} {rules : BlockRules} {held : Body}

end Reader

end Liquid
