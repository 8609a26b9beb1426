import Drawbridge.Proofs.Diagram.Forest
import Drawbridge.Proofs.Diagram.Nesting
import Drawbridge.Proofs.Diagram.Writer

/-!
What is written for the blocks of a graph, whatever their parent pointers are and whatever nodes
they list. The lines of the blocks are the lines of a forest (`forestOf`, `lines_forestOf`), in which

* `mem_forestOf`, `forestOf_nodup`: there are just the blocks that hold a node, each once;
* `held_forestOf`: every block lies directly in its parent;
* `placed_forestOf`, `nodes_forestOf`: every node is declared once, directly in the block of its
  place or outside all blocks.

`writeGraph_blocks` says so of the lines of the text.
-/

namespace Drawbridge

/-! ## Held nodes -/

namespace Block

/-- A node has its place in the block with a name, or in one that lies in it. -/
def Holds (blocks : List Block) (nodes : List Node) (name : Text) : Prop :=
  ∃ n ∈ nodes, ∃ inner, placeOf? blocks n.id = some inner ∧ Within blocks inner name

variable {blocks : List Block} {nodes : List Node} {name : Text}

theorem deepest?_mem {depth : Text → Nat} {best : Option Text} {bs : List Block}
    (h : deepest? depth best bs = some name) :
    best = some name ∨ name ∈ bs.map (·.name) := by
  induction bs generalizing best with
  | nil => exact .inl h
  | cons b bs ih =>
    rw [List.map_cons, List.mem_cons]
    unfold deepest? at h
    cases best with
    | none =>
      rcases ih h with first | later
      · exact .inr (.inl (Option.some.inj first).symm)
      · exact .inr (.inr later)
    | some c =>
      rcases ih h with first | later
      · split at first
        · exact .inr (.inl (Option.some.inj first).symm)
        · exact .inl first
      · exact .inr (.inr later)

theorem placeOf?_mem {nodeId : Text} (h : placeOf? blocks nodeId = some name) :
    name ∈ blocks.map (·.name) := by
  rcases deepest?_mem h with first | later
  · cases first
  · obtain ⟨b, hb, rfl⟩ := List.mem_map.mp later
    exact List.mem_map_of_mem (List.mem_filter.mp hb).1

end Block

section Outline

variable {nodes : List Node} {blocks : List Block} {name : Text} {parent : Option Text} {b : Block}

theorem mem_childrenOf : b ∈ childrenOf (Outline.of nodes blocks) parent ↔
    b ∈ blocks ∧ Block.parentOf? blocks b.name = parent := by
  rw [childrenOf, List.mem_filter, decide_eq_true_eq, Outline.parent?_of]
  rfl

theorem membersOf_eq : membersOf (Outline.of nodes blocks) nodes name =
    nodes.filter fun n => Block.placeOf? blocks n.id = some name := by
  apply List.filter_congr
  intro n hn
  rw [Outline.place?_of nodes blocks (List.mem_map_of_mem hn)]

theorem membersOf_isEmpty : (!(membersOf (Outline.of nodes blocks) nodes name).isEmpty) = true ↔
    ∃ n ∈ nodes, Block.placeOf? blocks n.id = some name := by
  rw [membersOf_eq]
  simp

/-- A block holds what has its place in it and what the blocks directly in it hold. -/
theorem holds_iff : Block.Holds blocks nodes name ↔
    (∃ n ∈ nodes, Block.placeOf? blocks n.id = some name) ∨
      ∃ b ∈ childrenOf (Outline.of nodes blocks) (some name), Block.Holds blocks nodes b.name := by
  constructor
  · rintro ⟨n, hn, inner, place, way⟩
    rcases way.cases_tail with same | ⟨c, way, step⟩
    · exact .inl ⟨n, hn, same ▸ place⟩
    · obtain ⟨b, hb, rfl⟩ := List.mem_map.mp (Block.parentOf?_mem step).1
      exact .inr ⟨b, mem_childrenOf.mpr ⟨hb, step⟩, n, hn, inner, place, way⟩
  · rintro (⟨n, hn, place⟩ | ⟨b, hb, n, hn, inner, place, way⟩)
    · exact ⟨n, hn, name, place, .refl⟩
    · exact ⟨n, hn, inner, place, way.tail (mem_childrenOf.mp hb).2⟩

/-- **The search for a node finds one if there is one.** -/
theorem occupied_iff {fuel : Nat} (far : blocks.length ≤ fuel + Block.depthOf blocks name) :
    occupied (Outline.of nodes blocks) nodes fuel name = true ↔ Block.Holds blocks nodes name := by
  induction fuel generalizing name with
  | zero =>
    rw [occupied, membersOf_isEmpty]
    refine ⟨fun here => holds_iff.mpr (.inl here), ?_⟩
    rintro ⟨n, hn, inner, place, way⟩
    have := Block.depthOf_lt (Block.placeOf?_mem place)
    have := way.depth_le
    omega
  | succ fuel ih =>
    rw [occupied, Bool.or_eq_true, membersOf_isEmpty, List.any_eq_true, holds_iff]
    refine or_congr_right (exists_congr fun b => and_congr_right fun hb => ih ?_)
    have := Block.depthOf_parent (mem_childrenOf.mp hb).2
    omega

end Outline

/-! ## The forest of a graph -/

/-- The blocks that are written directly in a block, or in none. -/
def writtenIn (o : Outline) (nodes : List Node) (parent : Option Text) : List Block :=
  (childrenOf o parent).filter fun b => occupied o nodes o.blocks.length b.name

/-- The forest of what is written for some blocks; the bound counts levels. -/
def forestWithin (o : Outline) (nodes : List Node) : Nat → List Block → Forest Block Node
  | 0, _ => .nil
  | fuel + 1, bs =>
    .ofList (fun b => forestWithin o nodes fuel (childrenOf o (some b.name)))
      (fun b => membersOf o nodes b.name)
      (bs.filter fun b => occupied o nodes o.blocks.length b.name)

/-- The forest of what is written for the blocks of a graph. -/
def forestOf (nodes : List Node) (blocks : List Block) : Forest Block Node :=
  forestWithin (Outline.of nodes blocks) nodes (blocks.length + 1)
    (childrenOf (Outline.of nodes blocks) none)

def Forest.lines (colors : Bool) : Nat → Forest Block Node → List Text
  | _, nil => []
  | level, cons b inner ms rest =>
    (indentBy level ++ blockHeader b) ::
      (inner.lines colors (level + 1) ++
        ms.map (fun n => indentBy level ++ indent ++ nodeLine colors n) ++
        [indentBy level ++ "end".toList]) ++ rest.lines colors level

theorem lines_forestWithin (colors : Bool) (o : Outline) (nodes : List Node) (fuel level : Nat)
    (bs : List Block) : (forestWithin o nodes fuel bs).lines colors level =
      bs.flatMap fun b => blockLines colors o nodes fuel level b := by
  induction fuel generalizing level bs with
  | zero => exact (List.flatMap_eq_nil_iff.mpr fun _ _ => rfl).symm
  | succ fuel ih =>
    rw [forestWithin]
    induction bs with
    | nil => rfl
    | cons b bs rest =>
      rw [List.flatMap_cons, ← rest, blockLines, List.filter_cons]
      split
      · rw [Forest.ofList, Forest.lines, ih]
      · rfl

theorem lines_forestOf (colors : Bool) (nodes : List Node) (blocks : List Block) :
    (forestOf nodes blocks).lines colors 1 =
      allBlockLines colors (Outline.of nodes blocks) nodes :=
  lines_forestWithin colors _ nodes _ 1 _

section Forest

variable {nodes : List Node} {blocks : List Block} {b : Block} {parent : Option Text}

theorem mem_writtenIn : b ∈ writtenIn (Outline.of nodes blocks) nodes parent ↔
    b ∈ blocks ∧ Block.parentOf? blocks b.name = parent ∧ Block.Holds blocks nodes b.name := by
  have far : blocks.length ≤ blocks.length + Block.depthOf blocks b.name := Nat.le_add_right _ _
  rw [writtenIn, List.mem_filter, mem_childrenOf, and_assoc]
  exact and_congr_right fun _ => and_congr_right fun _ => occupied_iff far

/-- The bound on the levels is never reached. -/
theorem forestWithin_grown {fuel : Nat} {bs : List Block} (listed : ∀ b ∈ bs, b ∈ blocks)
    (far : ∀ b ∈ bs, blocks.length ≤ fuel + Block.depthOf blocks b.name) :
    (forestWithin (Outline.of nodes blocks) nodes fuel bs).roots =
        bs.filter (fun b => occupied (Outline.of nodes blocks) nodes blocks.length b.name) ∧
      (forestWithin (Outline.of nodes blocks) nodes fuel bs).Grown
        (fun b => writtenIn (Outline.of nodes blocks) nodes (some b.name))
        (fun b => membersOf (Outline.of nodes blocks) nodes b.name) := by
  induction fuel generalizing bs with
  | zero =>
    cases bs with
    | nil => exact ⟨rfl, trivial⟩
    | cons b bs =>
      have := far b List.mem_cons_self
      have := Block.depthOf_lt (List.mem_map_of_mem (listed b List.mem_cons_self))
      omega
  | succ fuel ih =>
    refine ⟨Forest.roots_ofList _ _ _, Forest.grown_ofList fun b hb => ?_⟩
    have bound := far b (List.mem_filter.mp hb).1
    apply ih
    · exact fun c hc => (mem_childrenOf.mp hc).1
    · intro c hc
      have := Block.depthOf_parent (mem_childrenOf.mp hc).2
      omega

theorem forestOf_grown (nodes : List Node) (blocks : List Block) :
    (forestOf nodes blocks).roots = writtenIn (Outline.of nodes blocks) nodes none ∧
      (forestOf nodes blocks).Grown
        (fun b => writtenIn (Outline.of nodes blocks) nodes (some b.name))
        (fun b => membersOf (Outline.of nodes blocks) nodes b.name) :=
  forestWithin_grown (fun _ hb => (mem_childrenOf.mp hb).1) fun _ _ => by omega

/-- **What is written are the blocks that hold nodes.** -/
theorem mem_forestOf : b ∈ (forestOf nodes blocks).blocks ↔
    b ∈ blocks ∧ Block.Holds blocks nodes b.name := by
  obtain ⟨roots, grown⟩ := forestOf_grown nodes blocks
  constructor
  · intro hb
    rcases grown.mem_blocks_iff.mp hb with root | ⟨p, -, child⟩
    · obtain ⟨listed, -, holds⟩ := mem_writtenIn.mp (roots ▸ root)
      exact ⟨listed, holds⟩
    · obtain ⟨listed, -, holds⟩ := mem_writtenIn.mp child
      exact ⟨listed, holds⟩
  · rintro ⟨listed, holds⟩
    -- by induction on the depth: the parent is written, and it writes what lies in it
    induction hd : Block.depthOf blocks b.name generalizing b with
    | zero =>
      apply Forest.roots_subset_blocks
      rw [roots, mem_writtenIn]
      refine ⟨listed, ?_, holds⟩
      cases hp : Block.parentOf? blocks b.name with
      | none => rfl
      | some p =>
        have := Block.depthOf_parent hp
        omega
    | succ d ih =>
      cases hp : Block.parentOf? blocks b.name with
      | none =>
        have := Block.depthOf_root hp
        omega
      | some p =>
        have deeper := Block.depthOf_parent hp
        obtain ⟨c, hc, rfl⟩ := List.mem_map.mp (Block.parentOf?_mem hp).2
        have around : Block.Holds blocks nodes c.name :=
          holds_iff.mpr (.inr ⟨b, mem_childrenOf.mpr ⟨listed, hp⟩, holds⟩)
        have outer := ih hc around (by omega)
        exact grown.mem_of_child outer (mem_writtenIn.mpr ⟨listed, hp, holds⟩)

/-- Every block is written directly in its parent. -/
theorem held_forestOf {x : Option Block × Block} (hx : x ∈ (forestOf nodes blocks).held none) :
    x.1.map (·.name) = Block.parentOf? blocks x.2.name := by
  obtain ⟨roots, grown⟩ := forestOf_grown nodes blocks
  rcases grown.held_cases hx with ⟨none_around, root⟩ | ⟨p, -, around, child⟩
  · rw [none_around, (mem_writtenIn.mp (roots ▸ root)).2.1]
    rfl
  · rw [around, (mem_writtenIn.mp child).2.1]
    rfl

/-- Every node is declared directly in the block of its place. -/
theorem placed_forestOf {x : Block × Node} (hx : x ∈ (forestOf nodes blocks).placed) :
    Block.placeOf? blocks x.2.id = some x.1.name := by
  have member := ((forestOf_grown nodes blocks).2.mem_placed hx).2
  rw [membersOf_eq] at member
  exact of_decide_eq_true (List.mem_filter.mp member).2

/-! ## Nothing is written twice -/

theorem writtenIn_nodup (distinct : (blocks.map (·.name)).Nodup) (parent : Option Text) :
    ((writtenIn (Outline.of nodes blocks) nodes parent).map (·.name)).Nodup :=
  distinct.sublist ((List.filter_sublist.trans List.filter_sublist).map _)

/-- A block of a forest lies in one of its roots. -/
theorem exists_root_around {f : Forest Block Node}
    (grown : f.Grown (fun b => writtenIn (Outline.of nodes blocks) nodes (some b.name))
      fun b => membersOf (Outline.of nodes blocks) nodes b.name) (hb : b ∈ f.blocks) :
    ∃ root ∈ f.roots, Block.Within blocks b.name root.name := by
  induction f with
  | nil => cases hb
  | cons c inner ms rest innerIh restIh =>
    obtain ⟨roots, -, grownInner, grownRest⟩ := grown
    rcases List.mem_cons.mp hb with rfl | hb
    · exact ⟨b, List.mem_cons_self, .refl⟩
    rcases List.mem_append.mp hb with hb | hb
    · obtain ⟨root, hr, way⟩ := innerIh grownInner hb
      rw [roots] at hr
      exact ⟨c, List.mem_cons_self, way.tail (mem_writtenIn.mp hr).2.1⟩
    · obtain ⟨root, hr, way⟩ := restIh grownRest hb
      exact ⟨root, List.mem_cons_of_mem c hr, way⟩

/-- Grown from different roots of one depth, a forest holds no block twice. -/
theorem grown_nodup (distinct : (blocks.map (·.name)).Nodup) {f : Forest Block Node} (depth : Nat)
    (grown : f.Grown (fun b => writtenIn (Outline.of nodes blocks) nodes (some b.name))
      fun b => membersOf (Outline.of nodes blocks) nodes b.name)
    (different : (f.roots.map (·.name)).Nodup)
    (level : ∀ root ∈ f.roots, Block.depthOf blocks root.name = depth) :
    (f.blocks.map (·.name)).Nodup := by
  induction f generalizing depth with
  | nil => exact .nil
  | cons c inner ms rest innerIh restIh =>
    have whole := grown
    obtain ⟨roots, -, grownInner, grownRest⟩ := grown
    have here := level c List.mem_cons_self
    have inside : ∀ x ∈ inner.blocks, Block.Within blocks x.name c.name ∧
        depth < Block.depthOf blocks x.name := by
      intro x hx
      obtain ⟨root, hr, way⟩ := exists_root_around grownInner hx
      rw [roots] at hr
      have step := (mem_writtenIn.mp hr).2.1
      have := Block.depthOf_parent step
      have := way.depth_le
      exact ⟨way.tail step, by omega⟩
    have beside : ∀ x ∈ rest.blocks, ¬ Block.Within blocks x.name c.name := by
      intro x hx way
      obtain ⟨root, hr, way'⟩ := exists_root_around grownRest hx
      have same := way.eq_of_depth way'
        (here.trans (level root (List.mem_cons_of_mem c hr)).symm)
      exact (List.nodup_cons.mp different).1 (List.mem_map.mpr ⟨root, hr, same.symm⟩)
    rw [Forest.blocks, List.map_cons, List.map_append, List.nodup_cons, List.nodup_append]
    refine ⟨?_, ?_, ?_, ?_⟩
    · intro hm
      rcases List.mem_append.mp hm with hm | hm
      · obtain ⟨x, hx, same⟩ := List.mem_map.mp hm
        have deeper := (inside x hx).2
        rw [same, here] at deeper
        exact Nat.lt_irrefl _ deeper
      · obtain ⟨x, hx, same⟩ := List.mem_map.mp hm
        exact beside x hx (same ▸ .refl)
    · refine innerIh (depth + 1) grownInner (roots ▸ writtenIn_nodup distinct _) ?_
      intro root hr
      rw [roots] at hr
      have := Block.depthOf_parent (mem_writtenIn.mp hr).2.1
      omega
    · exact restIh depth grownRest (List.nodup_cons.mp different).2
        fun root hr => level root (List.mem_cons_of_mem c hr)
    · intro a ha a' ha' same
      obtain ⟨x, hx, rfl⟩ := List.mem_map.mp ha
      obtain ⟨y, hy, rfl⟩ := List.mem_map.mp ha'
      exact beside y hy (same ▸ (inside x hx).1)

/-- **No block is written twice.** -/
theorem forestOf_nodup (distinct : (blocks.map (·.name)).Nodup) :
    ((forestOf nodes blocks).blocks.map (·.name)).Nodup := by
  obtain ⟨roots, grown⟩ := forestOf_grown nodes blocks
  refine grown_nodup distinct 0 grown ?_ ?_
  · exact roots ▸ writtenIn_nodup distinct none
  · intro root hr
    rw [roots] at hr
    exact Block.depthOf_root (mem_writtenIn.mp hr).2.1

/-- The elements of a list under different keys, key by key. -/
theorem flatMap_filter_perm {α : Type} (key : α → Option Text) (l : List α) {keys : List Text}
    (distinct : keys.Nodup) : (keys.flatMap fun k => l.filter fun a => key a = some k).Perm
      (l.filter fun a => (key a).any (· ∈ keys)) := by
  induction keys with
  | nil =>
    have none_left : l.filter (fun a => (key a).any (· ∈ ([] : List Text))) = [] := by
      rw [List.filter_eq_nil_iff]
      intro a _
      cases key a <;> simp
    rw [none_left]
    exact .nil
  | cons k ks ih =>
    obtain ⟨new, rest⟩ := List.nodup_cons.mp distinct
    have first : (l.filter fun a => (key a).any (· ∈ k :: ks)).filter (fun a => key a = some k) =
        l.filter fun a => key a = some k := by
      rw [List.filter_filter]
      apply List.filter_congr
      intro a _
      by_cases here : key a = some k <;> simp [here]
    have others : (l.filter fun a => (key a).any (· ∈ k :: ks)).filter
        (fun a => !decide (key a = some k)) = l.filter fun a => (key a).any (· ∈ ks) := by
      rw [List.filter_filter]
      apply List.filter_congr
      intro a _
      cases hk : key a with
      | none => simp
      | some j =>
        by_cases same : j = k
        · simp [same, new]
        · simp [same]
    rw [List.flatMap_cons]
    refine .trans ((ih rest).append_left _) ?_
    rw [← first, ← others]
    exact List.filter_append_perm _ _

/-- **Every node is declared once.** -/
theorem nodes_forestOf (distinct : (blocks.map (·.name)).Nodup) :
    ((forestOf nodes blocks).nodes ++
      nodes.filter fun n => Block.placeOf? blocks n.id = none).Perm nodes := by
  have members := (forestOf_grown nodes blocks).2.nodes_perm
  simp only [membersOf_eq] at members
  have byName := flatMap_filter_perm (fun n : Node => Block.placeOf? blocks n.id) nodes
    (forestOf_nodup distinct : ((forestOf nodes blocks).blocks.map (·.name)).Nodup)
  rw [List.flatMap_map] at byName
  have places : nodes.filter (fun n => (Block.placeOf? blocks n.id).any
      (· ∈ (forestOf nodes blocks).blocks.map (·.name))) =
        nodes.filter fun n => !decide (Block.placeOf? blocks n.id = none) := by
    apply List.filter_congr
    intro n hn
    cases place : Block.placeOf? blocks n.id with
    | none => rfl
    | some name =>
      obtain ⟨b, hb, rfl⟩ := List.mem_map.mp (Block.placeOf?_mem place)
      have written := mem_forestOf.mpr ⟨hb, n, hn, b.name, place, .refl⟩
      simpa using ⟨b, written, rfl⟩
  rw [places] at byName
  refine .trans ((members.trans byName).append_right _) ?_
  exact List.perm_append_comm.trans (List.filter_append_perm _ nodes)

end Forest

/-! ## The lines of the text -/

theorem unbroken_quoteLabel {s : Text} (h : Unbroken s) : Unbroken (quoteLabel s) := by
  intro c hc
  rcases mem_quoteLabel hc with hc | hc
  · exact h c hc
  · have entity : Unbroken ('"' :: quoteEntity) := by
      unfold Unbroken
      decide
    exact entity c hc

theorem unbroken_indentBy (level : Nat) : Unbroken (indentBy level) := by
  intro c hc
  rw [mem_indentBy hc]
  decide

/-- The names, labels and titles of a graph with its blocks are without line breaks. -/
structure SingleLine (g : Graph) (blocks : List Block) : Prop where
  nodes : ∀ n ∈ g.nodes, Unbroken n.id ∧ Unbroken n.label
  edges : ∀ e ∈ g.edges, Unbroken e.source ∧ Unbroken e.target ∧ Unbroken e.label
  blocks : ∀ b ∈ blocks, Unbroken b.name ∧ Unbroken b.label

theorem unbroken_nodeLine {n : Node} (id : Unbroken n.id) (label : Unbroken n.label) :
    Unbroken (nodeLine false n) := by
  have shown : Unbroken n.shownLabel := by
    unfold Node.shownLabel
    split <;> assumption
  obtain ⟨opening, closing⟩ := isInline_brackets n.shape
  rw [nodeLine_eq, styleMark, if_neg Bool.false_ne_true, List.append_nil]
  exact ((id.append opening.unbroken).append (unbroken_quoteLabel shown)).append closing.unbroken

theorem nodeLine_ne_nil (colors : Bool) (n : Node) : nodeLine colors n ≠ [] := by
  have bracket : (brackets n.shape).1 ≠ [] := by cases n.shape <;> exact List.cons_ne_nil _ _
  rw [nodeLine_eq]
  simp [bracket]

theorem unbroken_edgeText {e : Edge} (source : Unbroken e.source) (target : Unbroken e.target)
    (label : Unbroken e.label) : Unbroken (edgeText e) := by
  have arrow : Unbroken " -->".toList := by
    unfold Unbroken
    decide
  have space : Unbroken [' '] := by
    unfold Unbroken
    decide
  have piped : Unbroken (pipeLabel e.label) := by
    have pipe : Unbroken ['|'] := by
      unfold Unbroken
      decide
    unfold pipeLabel
    split
    · exact fun c hc => absurd hc List.not_mem_nil
    · exact pipe.append ((unbroken_quoteLabel label).append pipe)
  exact (((source.append arrow).append piped).append space).append target

theorem unbroken_blockHeader {b : Block} (name : Unbroken b.name) (label : Unbroken b.label) :
    Unbroken (blockHeader b) := by
  have keyword : Unbroken "subgraph ".toList := by
    unfold Unbroken
    decide
  have bracket : Unbroken ['['] ∧ Unbroken [']'] := by
    unfold Unbroken
    decide
  refine (keyword.append name).append ?_
  split
  · exact fun c hc => absurd hc List.not_mem_nil
  · exact bracket.1.append ((unbroken_quoteLabel label).append bracket.2)

theorem indentBy_succ (level : Nat) : indentBy level ++ indent = indentBy (level + 1) := by
  rw [indentBy, indentBy, List.replicate_succ', List.flatten_append, List.flatten_singleton]

theorem Forest.mem_lines {colors : Bool} {level : Nat} {f : Forest Block Node} {l : Text}
    (h : l ∈ f.lines colors level) : ∃ k, (∃ b ∈ f.blocks, l = indentBy k ++ blockHeader b) ∨
      (∃ n ∈ f.nodes, l = indentBy k ++ nodeLine colors n) ∨ l = indentBy k ++ "end".toList := by
  induction f generalizing level with
  | nil => cases h
  | cons b inner ms rest innerIh restIh =>
    rw [lines, List.cons_append, List.mem_cons, List.mem_append, List.mem_append, List.mem_append,
      List.mem_singleton] at h
    rcases h with rfl | ((h | h) | rfl) | h
    · exact ⟨level, .inl ⟨b, List.mem_cons_self, rfl⟩⟩
    · obtain ⟨k, ⟨c, hc, hl⟩ | ⟨n, hn, hl⟩ | hl⟩ := innerIh h
      · exact ⟨k, .inl ⟨c, List.mem_cons_of_mem b (List.mem_append_left _ hc), hl⟩⟩
      · exact ⟨k, .inr (.inl ⟨n, List.mem_append_left _ (List.mem_append_left _ hn), hl⟩)⟩
      · exact ⟨k, .inr (.inr hl)⟩
    · obtain ⟨n, hn, rfl⟩ := List.mem_map.mp h
      refine ⟨level + 1, .inr (.inl ⟨n, ?_, by rw [indentBy_succ]⟩)⟩
      exact List.mem_append_left _ (List.mem_append_right _ hn)
    · exact ⟨level, .inr (.inr rfl)⟩
    · obtain ⟨k, ⟨c, hc, hl⟩ | ⟨n, hn, hl⟩ | hl⟩ := restIh h
      · exact ⟨k, .inl ⟨c, List.mem_cons_of_mem b (List.mem_append_right _ hc), hl⟩⟩
      · exact ⟨k, .inr (.inl ⟨n, List.mem_append_right _ hn, hl⟩)⟩
      · exact ⟨k, .inr (.inr hl)⟩

def looseNodes (nodes : List Node) (blocks : List Block) : List Node :=
  nodes.filter fun n => Block.placeOf? blocks n.id = none

theorem mem_written {g : Graph} {blocks : List Block} {n : Node} :
    n ∈ (forestOf g.nodes blocks).nodes ++ looseNodes g.nodes blocks → n ∈ g.nodes := by
  intro hn
  rcases List.mem_append.mp hn with hn | hn
  · rw [← Forest.placed_map_snd] at hn
    obtain ⟨x, hx, rfl⟩ := List.mem_map.mp hn
    exact (List.mem_filter.mp ((forestOf_grown g.nodes blocks).2.mem_placed hx).2).1
  · exact (List.mem_filter.mp hn).1

theorem looseNodeLines_of (colors : Bool) (nodes : List Node) (blocks : List Block) :
    looseNodeLines colors (Outline.of nodes blocks) nodes =
      (looseNodes nodes blocks).map fun n => indent ++ nodeLine colors n := by
  have loose : nodes.filter (fun n => ((Outline.of nodes blocks).place? n.id).isNone) =
      looseNodes nodes blocks := by
    apply List.filter_congr
    intro n hn
    rw [Outline.place?_of nodes blocks (List.mem_map_of_mem hn)]
    cases Block.placeOf? blocks n.id <;> rfl
  rw [looseNodeLines, loose]

def groupedLines (direction : Text) (colors : Bool) (g : Graph) (blocks : List Block) :
    List Text :=
  flowchartHeader direction :: ((forestOf g.nodes blocks).lines colors 1 ++
    (looseNodes g.nodes blocks).map (fun n => indent ++ nodeLine colors n) ++
    g.edges.map edgeLine ++ afterGap ((styleTexts colors g).map (indent ++ ·)))

theorem flowchartLines_blocks {g : Graph} {colors : Bool}
    (h : colors = true → ∀ s ∈ g.styles, IsColour s.fill ∧ IsColour s.stroke) (direction : Text)
    (blocks : List Block) :
    flowchartLines g direction colors blocks = .ok (groupedLines direction colors g blocks) := by
  rw [groupedLines, lines_forestOf, ← looseNodeLines_of]
  unfold flowchartLines
  cases colors with
  | false => rfl
  | true =>
    have styles : styleLines g.styles = .ok (afterGap ((styleTexts true g).map (indent ++ ·))) := by
      rw [styleLines, mapM_ok fun s hs => styleLine_eq (h rfl s hs).1 (h rfl s hs).2,
        styleTexts, if_pos rfl, List.map_map]
      rfl
    rw [if_pos rfl, styles]
    rfl

theorem writeGraph_eq {g : Graph} {options : WriteOptions} {direction : Text}
    (plain : options.includeColors = true → ∀ s ∈ g.styles, IsColour s.fill ∧ IsColour s.stroke)
    (kind : DiagramType.ofJson options.diagramType = .ok .flowchart)
    (dir : readDirection options.direction = .ok direction) (blocks : List Block) :
    writeGraph g options blocks =
      .ok (joinLines (groupedLines direction options.includeColors g blocks)) := by
  have written := flowchartLines_blocks plain direction blocks
  unfold writeGraph
  rw [kind]
  show (readDirection options.direction >>= _) = _
  rw [dir]
  show (flowchartLines g direction options.includeColors blocks >>= _) = _
  rw [written]
  rfl

theorem SingleLine.lines {g : Graph} {blocks : List Block} (h : SingleLine g blocks)
    (distinct : (blocks.map (·.name)).Nodup) {direction : Text} (hd : direction ∈ directions) :
    ∀ l ∈ groupedLines direction false g blocks, Unbroken l ∧ l ≠ [] := by
  have nodes : ((forestOf g.nodes blocks).nodes ++ looseNodes g.nodes blocks).Perm g.nodes :=
    nodes_forestOf distinct
  have declared : ∀ n ∈ (forestOf g.nodes blocks).nodes ++ looseNodes g.nodes blocks,
      Unbroken (nodeLine false n) := by
    intro n hn
    obtain ⟨id, label⟩ := h.nodes n (nodes.mem_iff.mp hn)
    exact unbroken_nodeLine id label
  have level (k : Nat) {s : Text} (hs : Unbroken s) : Unbroken (indentBy k ++ s) :=
    (unbroken_indentBy k).append hs
  have first (s : Text) (hs : Unbroken s) : Unbroken (indent ++ s) ∧ indent ++ s ≠ [] :=
    ⟨level 1 hs, List.cons_ne_nil _ _⟩
  intro l hl
  rcases List.mem_cons.mp hl with rfl | hl
  · exact ⟨(isLine_header hd).unbroken, List.cons_ne_nil _ _⟩
  have uncoloured : afterGap ((styleTexts false g).map (indent ++ ·)) = [] := rfl
  rw [uncoloured, List.append_nil, List.mem_append, List.mem_append] at hl
  rcases hl with (hl | hl) | hl
  · obtain ⟨k, ⟨b, hb, rfl⟩ | ⟨n, hn, rfl⟩ | rfl⟩ := Forest.mem_lines hl
    · obtain ⟨name, label⟩ := h.blocks b (mem_forestOf.mp hb).1
      exact ⟨level k (unbroken_blockHeader name label),
        List.append_ne_nil_of_right_ne_nil _ (List.cons_ne_nil _ _)⟩
    · exact ⟨level k (declared n (List.mem_append_left _ hn)),
        List.append_ne_nil_of_right_ne_nil _ (nodeLine_ne_nil false n)⟩
    · have ending : Unbroken "end".toList := by
        unfold Unbroken
        decide
      exact ⟨level k ending, List.append_ne_nil_of_right_ne_nil _ (List.cons_ne_nil _ _)⟩
  · obtain ⟨n, hn, rfl⟩ := List.mem_map.mp hl
    exact first _ (declared n (List.mem_append_right _ hn))
  · obtain ⟨e, he, rfl⟩ := List.mem_map.mp hl
    obtain ⟨source, target, label⟩ := h.edges e he
    rw [edgeLine_eq]
    exact first _ (unbroken_edgeText source target label)

/-- **What a flowchart with blocks consists of.** -/
theorem writeGraph_blocks {g : Graph} {blocks : List Block} {options : WriteOptions}
    {direction : Text} (kind : DiagramType.ofJson options.diagramType = .ok .flowchart)
    (dir : readDirection options.direction = .ok direction)
    (plain : options.includeColors = false) (distinct : (blocks.map (·.name)).Nodup)
    (single : SingleLine g blocks) :
    ∃ (code : Text) (f : Forest Block Node) (loose : List Node),
      writeGraph g options blocks = .ok code ∧
      lines code = flowchartHeader direction :: (f.lines false 1 ++
        loose.map (fun n => indent ++ nodeLine false n) ++ g.edges.map edgeLine) ∧
      (f.nodes ++ loose).Perm g.nodes ∧
      (∀ x ∈ f.placed, Block.placeOf? blocks x.2.id = some x.1.name) ∧
      (∀ n ∈ loose, Block.placeOf? blocks n.id = none) ∧
      (f.blocks.map (·.name)).Nodup ∧
      (∀ b, b ∈ f.blocks ↔ b ∈ blocks ∧ Block.Holds blocks g.nodes b.name) ∧
      ∀ x ∈ f.held none, x.1.map (·.name) = Block.parentOf? blocks x.2.name := by
  have written : writeGraph g options blocks =
      .ok (joinLines (groupedLines direction options.includeColors g blocks)) :=
    writeGraph_eq (by simp [plain]) kind dir blocks
  rw [plain] at written
  have sound := single.lines distinct (mem_directions_of_readDirection dir)
  refine ⟨_, forestOf g.nodes blocks, looseNodes g.nodes blocks, written, ?_,
    nodes_forestOf distinct, fun x => placed_forestOf, ?_, forestOf_nodup distinct,
    fun b => mem_forestOf, fun x => held_forestOf⟩
  · rw [lines_joinLines (fun l hl => (sound l hl).1)
      fun l hl => (sound l (List.mem_of_mem_getLast? hl)).2, groupedLines]
    exact congrArg _ (List.append_nil _)
  · exact fun n hn => of_decide_eq_true (List.mem_filter.mp hn).2

/-- A node in a block, one in a block in another, and one outside all blocks. -/
def tangledGraph : Graph where
  nodes := [{ id := "A".toList, shape := .box, label := "one".toList, styleClass := [] },
    { id := "B".toList, shape := .ellipse, label := [], styleClass := [] },
    { id := "C".toList, shape := .box, label := "x|y".toList, styleClass := [] }]
  edges := [{ source := "A".toList, target := "C".toList }]

/-- Two blocks that lie in each other, a third in one of them, and one in a block that is not there;
a node in several blocks, and one that is unknown. -/
def tangledBlocks : List Block :=
  [{ name := "G1".toList, label := "G1".toList, nodeIds := ["A".toList, "Z".toList, "A".toList],
     parent := some "G2".toList },
    { name := "G2".toList, label := "loop".toList, nodeIds := ["A".toList],
      parent := some "G1".toList },
    { name := "G3".toList, label := "in a loop".toList, nodeIds := ["B".toList],
      parent := some "G2".toList },
    { name := "G4".toList, label := "empty".toList, parent := some "G9".toList }]

theorem singleLine_tangled : SingleLine tangledGraph tangledBlocks where
  nodes := by
    simp only [tangledGraph, List.forall_mem_cons, Unbroken]
    decide
  edges := by
    simp only [tangledGraph, List.forall_mem_cons, Unbroken]
    decide
  blocks := by
    simp only [tangledBlocks, List.forall_mem_cons, Unbroken]
    decide

/-- The text of the tangled blocks. -/
theorem writeGraph_blocks_tangled :
    (tangledBlocks.map (·.name)).Nodup ∧ ∃ (f : Forest Block Node) (loose : List Node),
      ["flowchart TD", "    subgraph G1", "        A[one]", "    end", "    subgraph G2[loop]",
        "        subgraph G3[in a loop]", "            B((B))", "        end", "    end",
        "    C[\"x|y\"]", "    A --> C"].map String.toList =
        flowchartHeader "TD".toList :: (f.lines false 1 ++
          loose.map (fun n => indent ++ nodeLine false n) ++ tangledGraph.edges.map edgeLine) ∧
      (f.nodes ++ loose).Perm tangledGraph.nodes ∧
      ∀ x ∈ f.held none, x.1.map (·.name) = Block.parentOf? tangledBlocks x.2.name := by
  have distinct : (tangledBlocks.map (·.name)).Nodup := by decide
  obtain ⟨code, f, loose, written, read, nodes, -, -, -, -, held⟩ :=
    @writeGraph_blocks tangledGraph tangledBlocks { includeColors := false } "TD".toList rfl rfl
      rfl distinct singleLine_tangled
  refine ⟨distinct, f, loose, ?_, nodes, held⟩
  rw [← read]
  cases written
  decide +kernel

end Drawbridge
