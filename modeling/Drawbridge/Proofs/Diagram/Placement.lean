import Drawbridge.Proofs.Diagram.Grouping
import Mathlib.Data.Set.Card

/-!
What an outline makes of some blocks, whatever their parent pointers are and whatever nodes they
list. The pointers are a relation between names (`Block.PointsTo`), in which a block may come back
to itself (`Block.OnCircle`).

* `Block.parentOf?_eq_some_iff`: a block keeps its pointer just if this names a block and the block
  is not itself on a circle;
* `Outline.not_inside_self`, `Outline.encard_inside`: no block lies in itself, and its depth is the
  number of the blocks around it;
* `Block.exists_isFirstDeepest`: the search for the deepest block finds the first of them;
* `outline_repaired`: all of this for the outline that a flowchart is written from.
-/

namespace Drawbridge

/-! ## Pointers -/

theorem exists_climb_iff {α : Type} {f : α → Option α} {a b : α} :
    (∃ k, climb f k a = some b) ↔ Relation.ReflTransGen (fun a b => f a = some b) a b := by
  constructor
  · rintro ⟨k, hk⟩
    induction k generalizing a with
    | zero =>
      cases hk
      exact .refl
    | succ k ih =>
      obtain ⟨c, first, rest⟩ := Option.bind_eq_some_iff.mp hk
      exact .head first (ih rest)
  · intro way
    induction way using Relation.ReflTransGen.head_induction_on with
    | refl => exact ⟨0, rfl⟩
    | head first _ ih =>
      obtain ⟨k, rest⟩ := ih
      exact ⟨k + 1, by rw [climb, first, Option.bind_some, rest]⟩

namespace Block

variable {blocks : List Block} {name p : Text} {b : Block}

/-- A block with the one name has the other as its parent pointer. -/
def PointsTo (blocks : List Block) (inner outer : Text) : Prop :=
  ∃ b ∈ blocks, b.name = inner ∧ b.parent = some outer

/-- Following the pointers from a block leads back to it. -/
def OnCircle (blocks : List Block) (name : Text) : Prop :=
  Relation.TransGen (PointsTo blocks) name name

theorem PointsTo.listed (h : PointsTo blocks name p) : name ∈ blocks.map (·.name) := by
  obtain ⟨b, hb, rfl, -⟩ := h
  exact List.mem_map_of_mem hb

theorem pointsTo_of_pointer? (h : pointer? blocks name = some p) : PointsTo blocks name p := by
  obtain ⟨b, found, parent⟩ := Option.bind_eq_some_iff.mp h
  have here : b.name = name := of_decide_eq_true (List.find?_some (p := fun b : Block =>
    b.name = name) found)
  exact ⟨b, List.mem_reverse.mp (List.mem_of_find?_eq_some found), here,
    (Option.filter_eq_some_iff.mp parent).1⟩

section Distinct

variable (distinct : (blocks.map (·.name)).Nodup)

include distinct

theorem named?_of_mem (hb : b ∈ blocks) : named? blocks b.name = some b := by
  obtain ⟨c, hc⟩ := Option.isSome_iff_exists.mp (named?_isSome.mpr (List.mem_map_of_mem hb))
  have mem : c ∈ blocks := List.mem_reverse.mp (List.mem_of_find?_eq_some hc)
  have same : c.name = b.name := of_decide_eq_true (List.find?_some (p := fun c : Block =>
    c.name = b.name) hc)
  rw [hc, List.inj_on_of_nodup_map distinct mem hb same]

theorem pointsTo_iff (hb : b ∈ blocks) : PointsTo blocks b.name p ↔ b.parent = some p := by
  constructor
  · rintro ⟨c, hc, same, parent⟩
    rwa [List.inj_on_of_nodup_map distinct hc hb same] at parent
  · exact fun parent => ⟨b, hb, rfl, parent⟩

theorem pointer?_of_pointsTo (points : PointsTo blocks name p) (listed : p ∈ blocks.map (·.name)) :
    pointer? blocks name = some p := by
  obtain ⟨b, hb, rfl, parent⟩ := points
  rw [pointer?, named?_of_mem distinct hb, Option.bind_some, parent, Option.filter_some,
    if_pos (named?_isSome.mpr listed)]

/-- Pointers that lead to a block lead through blocks all the way. -/
theorem exists_climb_of_pointsTo {a : Text}
    (way : Relation.ReflTransGen (PointsTo blocks) a name) (listed : name ∈ blocks.map (·.name)) :
    a ∈ blocks.map (·.name) ∧ ∃ k, climb (pointer? blocks) k a = some name := by
  induction way using Relation.ReflTransGen.head_induction_on with
  | refl => exact ⟨listed, 0, rfl⟩
  | head first _ ih =>
    obtain ⟨known, k, rest⟩ := ih
    refine ⟨first.listed, k + 1, ?_⟩
    rw [climb, pointer?_of_pointsTo distinct first known, Option.bind_some, rest]

/-- **A block keeps a pointer to a block, unless it is itself on a circle of pointers.** -/
theorem parentOf?_eq_some_iff (hb : b ∈ blocks) : parentOf? blocks b.name = some p ↔
    b.parent = some p ∧ p ∈ blocks.map (·.name) ∧ ¬ OnCircle blocks b.name := by
  have listed : b.name ∈ blocks.map (·.name) := List.mem_map_of_mem hb
  constructor
  · intro kept
    have points := pointsTo_of_pointer? (parentOf?_eq_some kept).1
    refine ⟨(pointsTo_iff distinct hb).mp points, (parentOf?_mem kept).2, fun circle => ?_⟩
    obtain ⟨q, first, back⟩ := Relation.TransGen.head'_iff.mp circle
    have same : b.parent = some q := (pointsTo_iff distinct hb).mp first
    rw [(pointsTo_iff distinct hb).mp points] at same
    cases same
    obtain ⟨-, k, way⟩ := exists_climb_of_pointsTo distinct back listed
    exact climb_pointer?_ne kept k way
  · rintro ⟨parent, known, free⟩
    have unmet : reaches blocks b.name blocks.length (some p) = false := by
      rw [← Bool.not_eq_true]
      intro met
      have back := exists_climb_iff.mp (exists_climb_of_reaches met)
      have first : PointsTo blocks b.name p := ⟨b, hb, rfl, parent⟩
      exact free (.head' first
        (Relation.ReflTransGen.mono (fun _ _ => pointsTo_of_pointer?) _ _ back))
    unfold parentOf?
    rw [named?_of_mem distinct hb, Option.bind_some, parent]
    simp only [named?_isSome.mpr known, unmet, Bool.not_false, Bool.and_self, if_true]

end Distinct

/-! ## The deepest block -/

/-- Of some blocks, this one is the first of the deepest. -/
def IsFirstDeepest (depth : Text → Nat) (bs : List Block) (b : Block) : Prop :=
  ∃ before behind, bs = before ++ b :: behind ∧ (∀ c ∈ before, depth c.name < depth b.name) ∧
    ∀ c ∈ behind, depth c.name ≤ depth b.name

variable {depth : Text → Nat} {bs : List Block} {c d : Block}

theorem IsFirstDeepest.mem (h : IsFirstDeepest depth bs b) : b ∈ bs := by
  obtain ⟨before, behind, rfl, -⟩ := h
  exact List.mem_append_right before List.mem_cons_self

theorem IsFirstDeepest.le (h : IsFirstDeepest depth bs b) (hc : c ∈ bs) :
    depth c.name ≤ depth b.name := by
  obtain ⟨before, behind, rfl, lower, others⟩ := h
  rcases List.mem_append.mp hc with hc | hc
  · exact Nat.le_of_lt (lower c hc)
  · rcases List.mem_cons.mp hc with rfl | hc
    · exact Nat.le_refl _
    · exact others c hc

/-- A block in front counts for nothing if the next one is deeper. -/
theorem IsFirstDeepest.cons (h : IsFirstDeepest depth (d :: bs) b)
    (deeper : depth c.name < depth d.name) : IsFirstDeepest depth (c :: d :: bs) b := by
  have top := h.le List.mem_cons_self
  obtain ⟨before, behind, whole, lower, others⟩ := h
  refine ⟨c :: before, behind, congrArg (c :: ·) whole, ?_, others⟩
  exact List.forall_mem_cons.mpr ⟨Nat.lt_of_lt_of_le deeper top, lower⟩

/-- A block counts for nothing if the one before it is as deep. -/
theorem IsFirstDeepest.insert (h : IsFirstDeepest depth (c :: bs) b)
    (low : depth d.name ≤ depth c.name) : IsFirstDeepest depth (c :: d :: bs) b := by
  obtain ⟨before, behind, whole, lower, others⟩ := h
  cases before with
  | nil =>
    obtain ⟨rfl, rfl⟩ := List.cons.inj whole
    exact ⟨[], d :: bs, rfl, nofun, List.forall_mem_cons.mpr ⟨low, others⟩⟩
  | cons e before =>
    obtain ⟨rfl, rfl⟩ := List.cons.inj whole
    obtain ⟨first, lower⟩ := List.forall_mem_cons.mp lower
    refine ⟨c :: d :: before, behind, rfl, ?_, others⟩
    exact List.forall_mem_cons.mpr
      ⟨first, List.forall_mem_cons.mpr ⟨Nat.lt_of_le_of_lt low first, lower⟩⟩

/-- **The search finds the first of the deepest blocks.** -/
theorem exists_isFirstDeepest (depth : Text → Nat) (c : Block) (bs : List Block) :
    ∃ b, IsFirstDeepest depth (c :: bs) b ∧ deepest? depth none (c :: bs) = some b.name := by
  show ∃ b, IsFirstDeepest depth (c :: bs) b ∧ deepest? depth (some c.name) bs = some b.name
  induction bs generalizing c with
  | nil => exact ⟨c, ⟨[], [], rfl, nofun, nofun⟩, rfl⟩
  | cons d bs ih =>
    rw [deepest?]
    by_cases deeper : depth c.name < depth d.name
    · obtain ⟨b, first, found⟩ := ih d
      exact ⟨b, first.cons deeper, by rw [if_pos deeper, found]⟩
    · obtain ⟨b, first, found⟩ := ih c
      exact ⟨b, first.insert (Nat.le_of_not_lt deeper), by rw [if_neg deeper, found]⟩

/-- A node has its place in the first of the deepest blocks that list it. -/
theorem placeOf?_cases (blocks : List Block) (nodeId : Text) :
    (placeOf? blocks nodeId = none ∧ ∀ b ∈ blocks, nodeId ∉ b.nodeIds) ∨
      ∃ b, placeOf? blocks nodeId = some b.name ∧
        IsFirstDeepest (depthOf blocks) (listing blocks nodeId) b := by
  unfold placeOf?
  cases listed : listing blocks nodeId with
  | nil =>
    refine .inl ⟨rfl, fun b hb lists => ?_⟩
    have mem : b ∈ listing blocks nodeId := List.mem_filter.mpr ⟨hb, decide_eq_true lists⟩
    rw [listed] at mem
    cases mem
  | cons c bs =>
    obtain ⟨b, first, found⟩ := exists_isFirstDeepest (depthOf blocks) c bs
    exact .inr ⟨b, found, first⟩

end Block

/-! ## The outline -/

namespace Outline

/-- A block lies inside another, directly or not. -/
def Inside (o : Outline) (inner outer : Text) : Prop :=
  Relation.TransGen (fun a b => o.parent? a = some b) inner outer

variable {nodes : List Node} {blocks : List Block} {name outer p : Text}

/-- Without a parent a block lies inside none, else inside its parent and what is around this. -/
theorem inside_iff {o : Outline} :
    o.Inside name outer ↔ ∃ p, o.parent? name = some p ∧ (outer = p ∨ o.Inside p outer) := by
  unfold Inside
  rw [Relation.TransGen.head'_iff]
  exact exists_congr fun p => and_congr_right fun _ => Relation.reflTransGen_iff_eq_or_transGen

/-- **No block lies inside itself.** -/
theorem not_inside_self (nodes : List Node) (blocks : List Block) (name : Text) :
    ¬ (of nodes blocks).Inside name name := by
  unfold Inside
  simp only [parent?_of]
  intro circle
  obtain ⟨p, first, back⟩ := Relation.TransGen.head'_iff.mp circle
  obtain ⟨k, way⟩ := exists_climb_iff.mpr back
  exact Block.parentOf?_acyclic first k way

/-- **The depth of a block is the number of the blocks around it.** -/
theorem encard_inside (nodes : List Node) (blocks : List Block) (name : Text) :
    {outer | (of nodes blocks).Inside name outer}.encard = Block.depthOf blocks name := by
  induction hd : Block.depthOf blocks name generalizing name with
  | zero =>
    have root : Block.parentOf? blocks name = none := by
      cases hp : Block.parentOf? blocks name with
      | none => rfl
      | some p =>
        have := Block.depthOf_parent hp
        omega
    have free : {outer | (of nodes blocks).Inside name outer} = ∅ := by
      ext outer
      show (of nodes blocks).Inside name outer ↔ outer ∈ ∅
      rw [inside_iff, parent?_of, root]
      simp
    rw [free, Set.encard_empty]
    rfl
  | succ d ih =>
    cases hp : Block.parentOf? blocks name with
    | none =>
      have := Block.depthOf_root hp
      omega
    | some p =>
      have deeper := Block.depthOf_parent hp
      have split : {outer | (of nodes blocks).Inside name outer} =
          insert p {outer | (of nodes blocks).Inside p outer} := by
        ext outer
        show (of nodes blocks).Inside name outer ↔ _
        rw [inside_iff, parent?_of, hp]
        simp
      have apart : p ∉ {outer | (of nodes blocks).Inside p outer} :=
        not_inside_self nodes blocks p
      rw [split, Set.encard_insert_of_notMem apart, ih p (by omega)]
      rfl

theorem place?_eq (nodes : List Node) (blocks : List Block) (nodeId : Text) :
    (of nodes blocks).place? nodeId =
      if nodeId ∈ nodes.map (·.id) then Block.placeOf? blocks nodeId else none := by
  split
  · rename_i known
    exact place?_of nodes blocks known
  · rename_i unknown
    simp only [of, place?, Dictionary.get?_tabulate, if_neg unknown, Option.getD_none]

/-- **The nodes with places are those that a block lists.** -/
theorem place?_ne_none_iff {nodeId : Text} : (of nodes blocks).place? nodeId ≠ none ↔
    nodeId ∈ nodes.map (·.id) ∧ ∃ b ∈ blocks, nodeId ∈ b.nodeIds := by
  rw [place?_eq]
  split
  · rename_i known
    rcases Block.placeOf?_cases blocks nodeId with ⟨none_found, unlisted⟩ | ⟨b, found, first⟩
    · rw [none_found]
      refine iff_of_false (fun h => h rfl) ?_
      rintro ⟨-, b, hb, lists⟩
      exact unlisted b hb lists
    · rw [found]
      obtain ⟨hb, lists⟩ := List.mem_filter.mp first.mem
      exact iff_of_true (Option.some_ne_none b.name) ⟨known, b, hb, of_decide_eq_true lists⟩
  · rename_i unknown
    exact iff_of_false (fun h => h rfl) fun h => unknown h.1

/-- **A place is the first of the deepest blocks that list the node.** -/
theorem place?_isFirstDeepest {nodeId : Text}
    (place : (of nodes blocks).place? nodeId = some name) :
    ∃ b, b.name = name ∧
      Block.IsFirstDeepest (Block.depthOf blocks) (Block.listing blocks nodeId) b := by
  rw [place?_eq] at place
  split at place
  · rcases Block.placeOf?_cases blocks nodeId with ⟨none_found, -⟩ | ⟨b, found, first⟩
    · rw [none_found] at place
      cases place
    · rw [found] at place
      exact ⟨b, Option.some.inj place, first⟩
  · cases place

end Outline

/--
**The outline of a graph is a forest, and every node has one place in it.** Whatever the parent
pointers of some blocks with names of their own are, a block keeps its pointer just if this names
one of the blocks and the block is not itself on a circle of pointers. What is kept leads no block
back to itself, and the depth of a block is the number of the blocks around it. The nodes of the
graph that some block lists, and no others, have places: of the blocks that list the node, the first
of the deepest.
-/
theorem outline_repaired {blocks : List Block} (distinct : (blocks.map (·.name)).Nodup)
    (nodes : List Node) :
    let o := Outline.of nodes blocks
    (∀ b ∈ blocks, ∀ p, o.parent? b.name = some p ↔
      b.parent = some p ∧ p ∈ blocks.map (·.name) ∧ ¬ Block.OnCircle blocks b.name) ∧
    (∀ name, ¬ o.Inside name name) ∧
    (∀ b ∈ blocks, {outer | o.Inside b.name outer}.encard = Block.depthOf blocks b.name) ∧
    (∀ nodeId, o.place? nodeId ≠ none ↔
      nodeId ∈ nodes.map (·.id) ∧ ∃ b ∈ blocks, nodeId ∈ b.nodeIds) ∧
    ∀ nodeId name, o.place? nodeId = some name → ∃ b, b.name = name ∧
      Block.IsFirstDeepest (Block.depthOf blocks) (Block.listing blocks nodeId) b := by
  intro o
  refine ⟨fun b hb p => ?_, Outline.not_inside_self nodes blocks,
    fun b _ => Outline.encard_inside nodes blocks b.name, fun _ => Outline.place?_ne_none_iff,
    fun _ _ => Outline.place?_isFirstDeepest⟩
  rw [Outline.parent?_of]
  exact Block.parentOf?_eq_some_iff distinct hb

/-- Two blocks on a circle, a third that points to it, and a node that the first two list. -/
theorem outline_repaired_tangled :
    let o := Outline.of tangledGraph.nodes tangledBlocks
    (tangledBlocks.map (·.name)).Nodup ∧
      Block.OnCircle tangledBlocks "G1".toList ∧ o.parent? "G1".toList ≠ some "G2".toList ∧
      ¬ Block.OnCircle tangledBlocks "G3".toList ∧
      {outer | o.Inside "G3".toList outer}.encard = 1 ∧ o.place? "Z".toList = none ∧
      ∃ b, b.name = "G1".toList ∧ Block.IsFirstDeepest (Block.depthOf tangledBlocks)
        (Block.listing tangledBlocks "A".toList) b := by
  intro o
  have distinct : (tangledBlocks.map (·.name)).Nodup := by decide
  obtain ⟨kept, -, depths, places, first⟩ := outline_repaired distinct tangledGraph.nodes
  have circle : Block.OnCircle tangledBlocks "G1".toList :=
    .tail (.single ⟨_, List.mem_cons_self, rfl, rfl⟩)
      ⟨_, List.mem_cons_of_mem _ List.mem_cons_self, rfl, rfl⟩
  have third : tangledBlocks[2] ∈ tangledBlocks := List.getElem_mem _
  refine ⟨distinct, circle, fun again => ((kept _ List.mem_cons_self _).mp again).2.2 circle, ?_,
    ?_, ?_, first "A".toList "G1".toList (by decide +kernel)⟩
  · exact ((kept _ third "G2".toList).mp (by decide +kernel)).2.2
  · refine (depths _ third).trans ?_
    have deep : Block.depthOf tangledBlocks "G3".toList = 1 := by decide +kernel
    exact congrArg Nat.cast deep
  · by_contra placed
    obtain ⟨known, -⟩ := (places _).mp placed
    revert known
    decide

end Drawbridge
