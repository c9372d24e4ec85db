import Liquid.Proofs.Documents
import Liquid.Proofs.Tree

/-!
# The nesting limit

The limit on open blocks bounds the height of a tree and nothing else: a template is read under a
limit if it is read under any, and no way down its tree leads through more blocks than that.
-/

namespace Liquid
namespace Node

def isBlock : Node → Bool
  | conditional _ _ _ _ | loop _ _ _ _ | comment _ _ | block _ _ _ => true
  | text _ | expression _ | interrupt _ _ | leaf _ _ => false

def children : Node → List Node
  | conditional _ _ body none => body
  | conditional _ _ body (some alternative) => body ++ alternative
  | loop _ _ _ body | comment _ body | block _ _ body => body
  | text _ | expression _ | interrupt _ _ | leaf _ _ => []

/-- A way down from a node of a list, each node directly inside the one before, to a node with
nothing inside. -/
inductive IsPath : List Node → List Node → Prop
  | stop {nodes : List Node} {n : Node} (mem : n ∈ nodes) (nothing : n.children = []) :
    IsPath nodes [n]
  | down {nodes path : List Node} {n : Node} (mem : n ∈ nodes) (inside : IsPath n.children path) :
    IsPath nodes (n :: path)

/-! ## Height and paths -/

theorem heights_append (nodes more : List Node) :
    heights (nodes ++ more) = max (heights nodes) (heights more) := by
  induction nodes with
  | nil => simp [heights]
  | cons n rest ih => rw [List.cons_append, heights, heights, ih, Nat.max_assoc]

theorem height_le_heights
    {n : Node} {nodes : List Node} (h : n ∈ nodes) :
    n.height ≤ heights nodes := by
  obtain ⟨before, after, rfl⟩ := List.append_of_mem h
  rw [heights_append, heights]
  omega

theorem height_eq (n : Node) :
    n.height = heights n.children + if n.isBlock then 1 else 0 := by
  cases n with
  | conditional name condition body alternative =>
      cases alternative with
      | none => rfl
      | some alternative => simp [height, children, isBlock, heights_append]
  | _ => rfl

theorem IsPath.mono
    {nodes more path : List Node} (h : IsPath nodes path) (hmore : nodes ⊆ more) :
    IsPath more path := by
  cases h with
  | stop mem nothing => exact .stop (hmore mem) nothing
  | down mem inside => exact .down (hmore mem) inside

theorem IsPath.countP_le
    {nodes path : List Node} (h : IsPath nodes path) :
    path.countP isBlock ≤ heights nodes := by
  induction h with
  | @stop nodes n mem nothing =>
      have hheight := height_le_heights mem
      rw [height_eq, nothing, heights, Nat.zero_add] at hheight
      rw [List.countP_singleton]
      exact hheight
  | @down nodes path n mem inside ih =>
      have hheight := height_le_heights mem
      rw [height_eq] at hheight
      rw [List.countP_cons]
      omega

/-- Some way down leads through as many blocks as the height says. -/
def HasHighPath (nodes : List Node) : Prop :=
  nodes = [] ∨ ∃ path, IsPath nodes path ∧ path.countP isBlock = heights nodes

theorem HasHighPath.append
    {nodes more : List Node} (h : HasHighPath nodes) (h' : HasHighPath more) :
    HasHighPath (nodes ++ more) := by
  rcases h with rfl | ⟨path, hpath, hcount⟩
  · exact h'
  rcases h' with rfl | ⟨path', hpath', hcount'⟩
  · rw [List.append_nil]
    exact .inr ⟨path, hpath, hcount⟩
  right
  rw [heights_append]
  by_cases hle : heights more ≤ heights nodes
  · refine ⟨path, hpath.mono (List.subset_append_left _ _), ?_⟩
    rw [hcount, Nat.max_eq_left hle]
  · refine ⟨path', hpath'.mono (List.subset_append_right _ _), ?_⟩
    rw [hcount', Nat.max_eq_right (Nat.le_of_not_le hle)]

theorem HasHighPath.single
    {n : Node} (h : HasHighPath n.children) :
    HasHighPath [n] := by
  right
  have hheights : heights [n] = n.height := Nat.max_zero _
  rw [hheights, height_eq]
  rcases h with hnil | ⟨path, hpath, hcount⟩
  · refine ⟨[n], .stop List.mem_cons_self hnil, ?_⟩
    rw [hnil, List.countP_singleton]
    exact (Nat.zero_add _).symm
  · refine ⟨n :: path, .down List.mem_cons_self hpath, ?_⟩
    rw [List.countP_cons, hcount]

mutual

theorem hasHighPath_children : ∀ n : Node, HasHighPath n.children
  | text _ | expression _ | interrupt _ _ | leaf _ _ => .inl rfl
  | conditional _ _ body none => hasHighPath body
  | conditional _ _ body (some alternative) => (hasHighPath body).append (hasHighPath alternative)
  | loop _ _ _ body => hasHighPath body
  | comment _ body => hasHighPath body
  | block _ _ body => hasHighPath body
termination_by structural n => n

theorem hasHighPath : ∀ nodes : List Node, HasHighPath nodes
  | [] => .inl rfl
  | n :: rest => (hasHighPath_children n).single.append (hasHighPath rest)
termination_by structural nodes => nodes

end

/-- The height of a tree is the greatest number of blocks on a way down it. -/
theorem heights_le_iff
    {nodes : List Node} {m : Nat} :
    heights nodes ≤ m ↔ ∀ path, IsPath nodes path → path.countP isBlock ≤ m := by
  constructor
  · intro h path hpath
    exact Nat.le_trans hpath.countP_le h
  · intro h
    rcases hasHighPath nodes with rfl | ⟨path, hpath, hcount⟩
    · exact Nat.zero_le m
    · rw [← hcount]
      exact h path hpath

end Node

/-! ## The limit in the grammar -/

theorem height_node
    {o : Opening} {body : List Node} :
    (o.node body none).height = Node.heights body + 1 := by
  cases o <;> rfl

theorem Token.StandsFor.heights_eq
    {t : Token} {here : List Node} (h : t.StandsFor here) :
    Node.heights here = 0 := by
  cases h <;> rfl

theorem Derives.heights_le
    {m : Nat} {ts : List Token} {nodes : List Node} (h : Derives m ts nodes) :
    Node.heights nodes ≤ m := by
  induction h with
  | nil => exact Nat.zero_le _
  | token item _ ih =>
      rw [Node.heights_append, item.heights_eq, Nat.zero_max]
      exact ih
  | block _ _ _ _ ihInner ihRest =>
      rw [Node.heights, height_node]
      exact Nat.max_le.mpr ⟨Nat.succ_le_succ ihInner, ihRest⟩
  | choice _ _ _ _ _ _ ihInner ihOther ihRest =>
      apply Nat.max_le.mpr
      constructor
      · exact Nat.succ_le_succ (Nat.max_le.mpr ⟨ihInner, ihOther⟩)
      · exact ihRest

/-- What is derived under some limit is derived under any that is not below the height. -/
theorem Derives.of_heights_le
    {n : Nat} {ts : List Token} {nodes : List Node} (h : Derives n ts nodes) {m : Nat}
    (hm : Node.heights nodes ≤ m) :
    Derives m ts nodes := by
  induction h generalizing m with
  | nil => exact .nil
  | token item _ ih =>
      rw [Node.heights_append] at hm
      exact .token item (ih (Nat.max_le.mp hm).2)
  | block opening _ closing _ ihInner ihRest =>
      obtain ⟨hheight, hrest⟩ := Node.heights_of_cons hm
      rw [height_node] at hheight
      -- The block itself takes up one of the blocks that may be open.
      obtain ⟨k, rfl⟩ : ∃ k, m = k + 1 := ⟨m - 1, by omega⟩
      exact .block opening (ihInner (Nat.le_of_succ_le_succ hheight)) closing (ihRest hrest)
  | @choice _ _ _ _ condition separating markup _ _ _ first second _ opening _ separator _ closing
      _ ihInner ihOther ihRest =>
      obtain ⟨hheight, hrest⟩ := Node.heights_of_cons hm
      have hboth : max (Node.heights first) (Node.heights second) + 1 ≤ m := hheight
      obtain ⟨k, rfl⟩ : ∃ k, m = k + 1 := ⟨m - 1, by omega⟩
      obtain ⟨hfirst, hsecond⟩ := Nat.max_le.mp (Nat.le_of_succ_le_succ hboth)
      exact .choice opening (ihInner hfirst) separator (ihOther hsecond) closing (ihRest hrest)

theorem Derives.flatten
    {m : Nat} {parts : List (List Token × List Node)} (h : ∀ p ∈ parts, Derives m p.1 p.2) :
    Derives m (parts.map Prod.fst).flatten (parts.map Prod.snd).flatten := by
  induction parts with
  | nil => exact .nil
  | cons p parts ih =>
      have hparts : ∀ q ∈ parts, Derives m q.1 q.2 := by
        intro q hq
        exact h q (List.mem_cons_of_mem p hq)
      exact (h p List.mem_cons_self).append (ih hparts)

/-- A template is read under a limit just if it is read under some limit, as the same tree, and no
way down that tree leads through more blocks than the limit.  So a greater limit changes nothing
about a template that is read, and templates that are read one by one are read one after another,
however many they are. -/
theorem parse_standard_eq_ok_iff_paths (options : Options) (line : Nat) :
    (∀ ts nodes, parse .standard options ⟨ts, line⟩ = .ok nodes ↔
        (∃ n, parse .standard { options with maxDepth := n } ⟨ts, line⟩ = .ok nodes) ∧
          ∀ path, Node.IsPath nodes path → path.countP Node.isBlock ≤ options.maxDepth) ∧
      (∀ ts nodes n, parse .standard options ⟨ts, line⟩ = .ok nodes → options.maxDepth ≤ n →
        parse .standard { options with maxDepth := n } ⟨ts, line⟩ = .ok nodes) ∧
      ∀ parts : List (List Token × List Node),
        (∀ p ∈ parts, parse .standard options ⟨p.1, line⟩ = .ok p.2) →
          parse .standard options ⟨(parts.map Prod.fst).flatten, line⟩ =
            .ok (parts.map Prod.snd).flatten := by
  refine ⟨?_, ?_, ?_⟩
  · intro ts nodes
    rw [← Node.heights_le_iff]
    constructor
    · intro h
      exact ⟨⟨options.maxDepth, h⟩, (derives_of_parse h).heights_le⟩
    · rintro ⟨⟨n, h⟩, hheights⟩
      exact ((derives_of_parse h).of_heights_le hheights).parse_eq_ok
  · intro ts nodes n h hn
    have hderives := derives_of_parse h
    exact (hderives.of_heights_le (Nat.le_trans hderives.heights_le hn)).parse_eq_ok
  · intro parts h
    apply Derives.parse_eq_ok
    apply Derives.flatten
    intro p hp
    exact derives_of_parse (h p hp)

/-- Where one block may be open, two of them are read one after another, but not one inside the
other. -/
theorem parse_standard_eq_ok_iff_paths_two_blocks :
    let opens : Token := ⟨"\x7b% if a %\x7d", 1⟩
    let closes : Token := ⟨"\x7b% endif %\x7d", 1⟩
    let node : List Node → Node := fun body => .conditional "if" "a" body none
    parse .standard { maxDepth := 1 } ⟨[opens, closes], 1⟩ = .ok [node []] ∧
      parse .standard { maxDepth := 1 } ⟨[opens, closes, opens, closes], 1⟩ =
        .ok [node [], node []] ∧
      parse .standard { maxDepth := 7 } ⟨[opens, closes], 1⟩ = .ok [node []] ∧
      parse .standard { maxDepth := 2 } ⟨[opens, opens, closes, closes], 1⟩ =
        .ok [node [node []]] ∧
      parse .standard { maxDepth := 1 } ⟨[opens, opens, closes, closes], 1⟩ ≠
        .ok [node [node []]] := by
  intro opens closes node
  have hopens : opens.Opens (.conditional "a") :=
    .conditional (Token.tag?_eq_some_iff.mp (by decide)) (by decide)
  have hcloses : closes.IsTag "endif" "" := Token.tag?_eq_some_iff.mp (by decide)
  have hinner : Derives 1 [opens, closes] [node []] := .block hopens .nil hcloses .nil
  have hone : parse .standard { maxDepth := 1 } ⟨[opens, closes], 1⟩ = .ok [node []] :=
    Derives.parse_eq_ok hinner
  have hnested : parse .standard { maxDepth := 2 } ⟨[opens, opens, closes, closes], 1⟩ =
      .ok [node [node []]] :=
    Derives.parse_eq_ok (.block hopens hinner hcloses .nil)
  obtain ⟨hiff, hraise, hparts⟩ := parse_standard_eq_ok_iff_paths { maxDepth := 1 } 1
  refine ⟨hone, ?_, hraise _ _ 7 hone (by decide), hnested, ?_⟩
  · have hboth := hparts [([opens, closes], [node []]), ([opens, closes], [node []])]
    apply hboth
    simp only [List.mem_cons, List.not_mem_nil, or_false, or_self]
    rintro p rfl
    exact hone
  · intro h
    have hpath : Node.IsPath [node [node []]] [node [node []], node []] :=
      .down List.mem_cons_self (.stop List.mem_cons_self rfl)
    exact absurd (((hiff _ _).mp h).2 _ hpath) (by decide)

end Liquid
