import Drawbridge.Proofs.Diagram.Grouping
import Drawbridge.Proofs.Diagram.Mentions

/-!
What is written for a graph with blocks, against what is read from it. The nodes are written one
after the other, each inside the blocks around it (`writtenNodes`), and the blocks that are read are
the table of these lists (`readBlocks`). The table keeps the places of the nodes and the parents of
the blocks (`placeOf?_readBlocks`, `parentOf?_readBlocks`), so what is written for it is the same
forest (`forestOf_readBlocks`), with its blocks under the same names (`readName_readBlocks`).
-/

namespace Drawbridge

/-! ## The outline of a table -/

/-- The deepest of some blocks, if no other is as deep. -/
theorem Block.deepest?_eq_some {depth : Text → Nat} {best : Option Text} {bs : List Block}
    {name : Text} (first : ∀ c, best = some c → c = name ∨ depth c < depth name)
    (others : ∀ b ∈ bs, b.name = name ∨ depth b.name < depth name)
    (present : best = some name ∨ name ∈ bs.map (·.name)) :
    deepest? depth best bs = some name := by
  induction bs generalizing best with
  | nil =>
    rcases present with here | later
    · exact here
    · cases later
  | cons b bs ih =>
    have here := others b List.mem_cons_self
    have rest : ∀ c ∈ bs, c.name = name ∨ depth c.name < depth name :=
      fun c hc => others c (List.mem_cons_of_mem b hc)
    have step (d : Text) (low : d = name ∨ depth d < depth name)
        (left : d = name ∨ name ∈ bs.map (·.name)) : deepest? depth (some d) bs = some name := by
      refine ih ?_ rest (left.imp (congrArg some) fun later => later)
      rintro c ⟨⟩
      exact low
    rw [List.map_cons, List.mem_cons] at present
    cases best with
    | none =>
      rcases present with none_best | same | later
      · cases none_best
      · exact step b.name here (.inl same.symm)
      · exact step b.name here (.inr later)
    | some c =>
      have low := first c rfl
      rw [deepest?]
      by_cases deeper : depth c < depth b.name
      · rw [if_pos deeper]
        apply step b.name here
        rcases present with same | same | later
        · rw [Option.some.inj same] at deeper
          rcases here with same | lower
          · exact .inl same
          · exact absurd deeper (Nat.lt_asymm lower)
        · exact .inl same.symm
        · exact .inr later
      · rw [if_neg deeper]
        apply step c low
        rcases present with same | same | later
        · exact .inl (Option.some.inj same)
        · rcases low with same' | lower
          · exact .inl same'
          · exact absurd (same ▸ lower) deeper
        · exact .inr later

namespace BlockTable

section Outline

variable {κ : Type} [DecidableEq κ] {labels : Dictionary Text} {id : κ → Text}
  {outer : κ → Option κ} {rank : κ → Nat} {items : List (List κ × Text)} {a k q : κ}

theorem tableFor_names (labels : Dictionary Text) (id : κ → Text) (items : List (List κ × Text))
    (outer : κ → Option κ) :
    (tableFor labels id items outer).map (·.name) = (mentioned items).map (groupName items) := by
  rw [tableFor, List.map_map]
  rfl

theorem groupName_inj (ha : a ∈ mentioned items) (same : groupName items a = groupName items k) :
    a = k :=
  idxOf_inj_of_name ha same

theorem tableFor_nodup (labels : Dictionary Text) (id : κ → Text) (items : List (List κ × Text))
    (outer : κ → Option κ) : ((tableFor labels id items outer).map (·.name)).Nodup := by
  rw [tableFor_names]
  exact List.Nodup.map_on (fun a ha b _ same => groupName_inj ha same) (nodup_eraseDups _)

theorem named?_tableFor (hk : k ∈ mentioned items) :
    Block.named? (tableFor labels id items outer) (groupName items k) =
      some (blockFor labels id items outer k) := by
  rw [Block.named?, tableFor, ← List.map_reverse]
  apply find?_map_of_inj (List.mem_reverse.mpr hk)
  intro a ha
  rw [decide_eq_true_eq]
  exact ⟨groupName_inj (List.mem_reverse.mp ha), fun same => same ▸ rfl⟩

section Ways

variable (falls : ∀ a p, outer a = some p → rank p < rank a)
  (ways : ∀ x ∈ items, IsWay outer x.1)

include falls ways

/-- Going outwards along the ranks never comes back. -/
theorem reaches_tableFor (hq : q ∈ mentioned items) (below : rank q < rank a) (fuel : Nat) :
    Block.reaches (tableFor labels id items outer) (groupName items a) fuel
      (some (groupName items q)) = false := by
  induction fuel generalizing q with
  | zero => rfl
  | succ fuel ih =>
    have other : groupName items q ≠ groupName items a := by
      intro same
      rw [groupName_inj hq same] at below
      exact Nat.lt_irrefl _ below
    rw [Block.reaches, named?_tableFor hq]
    show (decide _ || Block.reaches _ _ fuel ((outer q).map (groupName items))) = false
    rw [decide_eq_false other, Bool.false_or]
    cases hp : outer q with
    | none => cases fuel <;> rfl
    | some p => exact ih (mentioned_outer ways hq hp) (Nat.lt_trans (falls q p hp) below)

/-- **The parent of a block is the block of the group around.** -/
theorem parentOf?_tableFor (hk : k ∈ mentioned items) :
    Block.parentOf? (tableFor labels id items outer) (groupName items k) =
      (outer k).map (groupName items) := by
  have pointer : (Block.named? (tableFor labels id items outer)
      (groupName items k)).bind (·.parent) = (outer k).map (groupName items) := by
    rw [named?_tableFor hk]
    rfl
  rw [Block.parentOf?, pointer]
  cases hp : outer k with
  | none => rfl
  | some p =>
    have known := mentioned_outer ways hk hp
    simp only [Option.map_some, named?_tableFor known,
      reaches_tableFor falls ways known (falls k p hp)]
    rfl

/-- A block on a way lies in the blocks further on. -/
theorem within_tableFor {gs : List κ} (way : IsWay outer (a :: gs)) (ha : a ∈ mentioned items)
    (hk : k ∈ a :: gs) : Block.Within (tableFor labels id items outer) (groupName items a)
      (groupName items k) := by
  induction gs generalizing a with
  | nil =>
    rw [List.mem_singleton.mp hk]
    exact .refl
  | cons b gs ih =>
    obtain ⟨next, rest⟩ := way
    rcases List.mem_cons.mp hk with rfl | hk
    · exact .refl
    · refine .head ?_ (ih rest (mentioned_outer ways ha next) hk)
      rw [parentOf?_tableFor falls ways ha, next]
      rfl

/-- **A node has its place in the first of the groups it is entered under.** -/
theorem placeOf?_tableFor (distinct : (items.map Prod.snd).Nodup) {x : List κ × Text}
    (hx : x ∈ items) :
    Block.placeOf? (tableFor labels id items outer) x.2 = x.1.head?.map (groupName items) := by
  have listing : Block.listing (tableFor labels id items outer) x.2 =
      ((mentioned items).filter fun k => k ∈ x.1).map (blockFor labels id items outer) := by
    rw [Block.listing, tableFor, List.filter_map]
    congr 1
    apply List.filter_congr
    intro k _
    exact decide_eq_decide.mpr (mem_enteredUnder distinct hx k)
  have known : ∀ k ∈ x.1, k ∈ mentioned items := fun k hk => mem_mentioned.mpr ⟨x, hx, hk⟩
  have way := ways x hx
  rw [Block.placeOf?, listing]
  cases hgs : x.1 with
  | nil => simp [Block.deepest?]
  | cons a gs =>
    rw [hgs] at way known
    have ha := known a List.mem_cons_self
    apply Block.deepest?_eq_some
    · rintro c ⟨⟩
    · intro b hb
      obtain ⟨k, hk, rfl⟩ := List.mem_map.mp hb
      have inside : Block.Within (tableFor labels id items outer) (groupName items a)
          (groupName items k) :=
        within_tableFor falls ways way ha (of_decide_eq_true (List.mem_filter.mp hk).2)
      rcases Nat.lt_or_ge (Block.depthOf (tableFor labels id items outer) (groupName items k))
        (Block.depthOf (tableFor labels id items outer) (groupName items a)) with less | deep
      · exact .inr less
      · exact .inl (inside.eq_of_le deep).symm
    · have first : a ∈ (mentioned items).filter fun k => k ∈ a :: gs :=
        List.mem_filter.mpr ⟨ha, decide_eq_true List.mem_cons_self⟩
      exact .inr (List.mem_map_of_mem (List.mem_map_of_mem first))

end Ways

end Outline

end BlockTable

/-! ## What is written, by names -/

/-- The forest of what is written for the blocks of a graph, by names. -/
def outlineOf (nodes : List Node) (blocks : List Block) : Forest Text Node :=
  (forestOf nodes blocks).map (·.name) id

/-- The nodes in the order in which they are written, with the blocks around, innermost first. -/
def writtenNodes (nodes : List Node) (blocks : List Block) : List (List Text × Node) :=
  (outlineOf nodes blocks).entries [] ++ (looseNodes nodes blocks).map ([], ·)

section Written

variable {nodes : List Node} {blocks : List Block}

theorem outlineOf_nodes (nodes : List Node) (blocks : List Block) :
    (outlineOf nodes blocks).nodes = (forestOf nodes blocks).nodes := by
  rw [outlineOf, Forest.nodes_map, List.map_id]

theorem writtenNodes_map_snd (nodes : List Node) (blocks : List Block) :
    (writtenNodes nodes blocks).map Prod.snd =
      (outlineOf nodes blocks).nodes ++ looseNodes nodes blocks := by
  rw [writtenNodes, List.map_append, Forest.entries_map_snd, List.map_map]
  exact congrArg (_ ++ ·) (List.map_id _)

theorem writtenNodes_perm (distinct : (blocks.map (·.name)).Nodup) :
    ((writtenNodes nodes blocks).map Prod.snd).Perm nodes := by
  rw [writtenNodes_map_snd, outlineOf_nodes]
  exact nodes_forestOf distinct

theorem outlineOf_nodup (distinct : (blocks.map (·.name)).Nodup) :
    (outlineOf nodes blocks).blocks.Nodup := by
  rw [outlineOf, Forest.blocks_map]
  exact forestOf_nodup distinct

def namesIn (nodes : List Node) (blocks : List Block) (parent : Option Text) : List Text :=
  (writtenIn (Outline.of nodes blocks) nodes parent).map (·.name)

theorem mem_namesIn {parent : Option Text} {name : Text} : name ∈ namesIn nodes blocks parent ↔
    name ∈ blocks.map (·.name) ∧ Block.parentOf? blocks name = parent ∧
      Block.Holds blocks nodes name := by
  constructor
  · intro h
    obtain ⟨b, hb, rfl⟩ := List.mem_map.mp h
    obtain ⟨listed, rest⟩ := mem_writtenIn.mp hb
    exact ⟨List.mem_map_of_mem listed, rest⟩
  · rintro ⟨listed, rest⟩
    obtain ⟨b, hb, rfl⟩ := List.mem_map.mp listed
    exact List.mem_map_of_mem (mem_writtenIn.mpr ⟨hb, rest⟩)

theorem mem_outlineOf {name : Text} : name ∈ (outlineOf nodes blocks).blocks ↔
    name ∈ blocks.map (·.name) ∧ Block.Holds blocks nodes name := by
  rw [outlineOf, Forest.blocks_map]
  constructor
  · intro h
    obtain ⟨b, hb, rfl⟩ := List.mem_map.mp h
    obtain ⟨listed, holds⟩ := mem_forestOf.mp hb
    exact ⟨List.mem_map_of_mem listed, holds⟩
  · rintro ⟨listed, holds⟩
    obtain ⟨b, hb, rfl⟩ := List.mem_map.mp listed
    exact List.mem_map_of_mem (mem_forestOf.mpr ⟨hb, holds⟩)

theorem outlineOf_grown (nodes : List Node) (blocks : List Block) :
    (outlineOf nodes blocks).roots = namesIn nodes blocks none ∧
      (outlineOf nodes blocks).Grown (fun name => namesIn nodes blocks (some name))
        (fun name => membersOf (Outline.of nodes blocks) nodes name) := by
  obtain ⟨roots, grown⟩ := forestOf_grown nodes blocks
  constructor
  · rw [outlineOf, Forest.roots_map, roots]
    rfl
  · exact grown.map _ _ (fun _ _ => rfl) fun _ _ => (List.map_id _).symm

theorem outlineOf_full (nodes : List Node) (blocks : List Block) :
    (outlineOf nodes blocks).Full := by
  refine (outlineOf_grown nodes blocks).2.full ?_
  intro name hname
  rcases holds_iff.mp (mem_outlineOf.mp hname).2 with ⟨n, hn, place⟩ | ⟨b, hb, holds⟩
  · right
    rw [membersOf_eq]
    exact List.ne_nil_of_mem (List.mem_filter.mpr ⟨hn, decide_eq_true place⟩)
  · left
    obtain ⟨listed, parent⟩ := mem_childrenOf.mp hb
    exact List.ne_nil_of_mem (mem_namesIn.mpr ⟨List.mem_map_of_mem listed, parent, holds⟩)

/-- **The blocks around a written node go outwards from parent to parent.** -/
theorem writtenNodes_way {x : List Text × Node} (hx : x ∈ writtenNodes nodes blocks) :
    IsWay (Block.parentOf? blocks) x.1 := by
  rcases List.mem_append.mp hx with hx | hx
  · have start : IsWay (Block.parentOf? blocks) [] := trivial
    refine Forest.isWay_of_mem_entries ?_ start hx
    intro y hy
    have renamed : (outlineOf nodes blocks).held none =
        ((forestOf nodes blocks).held none).map (Prod.map (Option.map (·.name)) (·.name)) :=
      Forest.held_map _ _ _ none
    obtain ⟨z, hz, rfl⟩ := List.mem_map.mp (renamed ▸ hy)
    exact (held_forestOf hz).symm
  · obtain ⟨n, -, rfl⟩ := List.mem_map.mp hx
    trivial

/-- **The first of the blocks around a written node is its place.** -/
theorem writtenNodes_place {x : List Text × Node} (hx : x ∈ writtenNodes nodes blocks) :
    x.1.head? = Block.placeOf? blocks x.2.id := by
  rcases List.mem_append.mp hx with hx | hx
  · obtain ⟨name, gs, chain, placed⟩ := Forest.placed_of_mem_entries hx
    have member := ((outlineOf_grown nodes blocks).2.mem_placed placed).2
    rw [membersOf_eq] at member
    rw [chain, of_decide_eq_true (List.mem_filter.mp member).2]
    rfl
  · obtain ⟨n, hn, rfl⟩ := List.mem_map.mp hx
    exact (of_decide_eq_true (List.mem_filter.mp hn).2).symm

end Written

/-! ## Read back -/

theorem writtenIn_eq {nodes : List Node} {blocks : List Block}
    (all : ∀ b ∈ blocks, Block.Holds blocks nodes b.name) (parent : Option Text) :
    writtenIn (Outline.of nodes blocks) nodes parent =
      blocks.filter fun b => Block.parentOf? blocks b.name = parent := by
  have children : childrenOf (Outline.of nodes blocks) parent =
      blocks.filter fun b => Block.parentOf? blocks b.name = parent := by
    apply List.filter_congr
    intro b _
    rw [Outline.parent?_of]
  rw [writtenIn, children, List.filter_eq_self]
  intro b hb
  exact (occupied_iff (Nat.le_add_right _ _)).mpr (all b (List.mem_filter.mp hb).1)

section Regrouped

variable {nodes : List Node} {blocks : List Block} {labels : Dictionary Text} {id : Text → Text}
  {rename : Node → Node}

/-- The written nodes as members of the groups around them, under new names. -/
def writtenMembers (rename : Node → Node) (nodes : List Node) (blocks : List Block) :
    List (List Text × Text) :=
  (writtenNodes nodes blocks).map fun x => (x.1, (rename x.2).id)

def readNodes (rename : Node → Node) (nodes : List Node) (blocks : List Block) : List Node :=
  (writtenNodes nodes blocks).map fun x => rename x.2

theorem readNodes_eq (rename : Node → Node) (nodes : List Node) (blocks : List Block) :
    readNodes rename nodes blocks = ((writtenNodes nodes blocks).map Prod.snd).map rename := by
  rw [List.map_map]
  rfl

/-- The name under which a block is read back. -/
def readName (rename : Node → Node) (nodes : List Node) (blocks : List Block) (name : Text) :
    Text :=
  BlockTable.groupName (writtenMembers rename nodes blocks) name

/-- The block that is read back for one that was written. -/
def readBlock (labels : Dictionary Text) (id : Text → Text) (rename : Node → Node)
    (nodes : List Node) (blocks : List Block) (name : Text) : Block :=
  BlockTable.blockFor labels id (writtenMembers rename nodes blocks) (Block.parentOf? blocks) name

def readBlocks (labels : Dictionary Text) (id : Text → Text) (rename : Node → Node)
    (nodes : List Node) (blocks : List Block) : List Block :=
  BlockTable.tableFor labels id (writtenMembers rename nodes blocks) (Block.parentOf? blocks)

theorem writtenMembers_mentions (rename : Node → Node) (nodes : List Node) (blocks : List Block) :
    (writtenMembers rename nodes blocks).flatMap Prod.fst =
      (outlineOf nodes blocks).mentions [] := by
  have loose : ((looseNodes nodes blocks).map (([], ·) : Node → List Text × Node)).flatMap
      Prod.fst = [] := by
    rw [List.flatMap_map]
    exact List.flatMap_eq_nil_iff.mpr fun _ _ => rfl
  rw [writtenMembers, List.flatMap_map]
  show (writtenNodes nodes blocks).flatMap Prod.fst = _
  rw [writtenNodes, List.flatMap_append, loose, List.append_nil]
  rfl

/-- What is mentioned is what is written. -/
theorem mem_mentioned_writtenMembers {name : Text} :
    name ∈ BlockTable.mentioned (writtenMembers rename nodes blocks) ↔
      name ∈ (outlineOf nodes blocks).blocks := by
  rw [BlockTable.mem_mentioned, ← List.mem_flatMap, writtenMembers_mentions]
  constructor
  · intro h
    rcases Forest.mem_mentions h with h | h
    · exact h
    · cases h
  · exact (outlineOf_full nodes blocks).mem_mentions

theorem writtenMembers_way {x : List Text × Text} (hx : x ∈ writtenMembers rename nodes blocks) :
    IsWay (Block.parentOf? blocks) x.1 := by
  obtain ⟨y, hy, rfl⟩ := List.mem_map.mp hx
  exact writtenNodes_way hy

theorem depthOf_falls (a p : Text) (h : Block.parentOf? blocks a = some p) :
    Block.depthOf blocks p < Block.depthOf blocks a := by
  have := Block.depthOf_parent h
  omega

theorem readName_inj {a b : Text} (ha : a ∈ (outlineOf nodes blocks).blocks)
    (same : readName rename nodes blocks a = readName rename nodes blocks b) : a = b :=
  BlockTable.groupName_inj (mem_mentioned_writtenMembers.mpr ha) same

/-- **Blocks that are read back lie in one another as they were written.** -/
theorem parentOf?_readBlocks {name : Text} (h : name ∈ (outlineOf nodes blocks).blocks) :
    Block.parentOf? (readBlocks labels id rename nodes blocks) (readName rename nodes blocks name) =
      (Block.parentOf? blocks name).map (readName rename nodes blocks) :=
  BlockTable.parentOf?_tableFor depthOf_falls (fun _ hx => writtenMembers_way hx)
    (mem_mentioned_writtenMembers.mpr h)

section Named

variable (names : ((writtenNodes nodes blocks).map fun x => (rename x.2).id).Nodup)

include names

/-- **Nodes that are read back have their places where they were written.** -/
theorem placeOf?_readBlocks {n : Node} (hn : n ∈ (writtenNodes nodes blocks).map Prod.snd) :
    Block.placeOf? (readBlocks labels id rename nodes blocks) (rename n).id =
      (Block.placeOf? blocks n.id).map (readName rename nodes blocks) := by
  obtain ⟨x, hx, rfl⟩ := List.mem_map.mp hn
  have member : (x.1, (rename x.2).id) ∈ writtenMembers rename nodes blocks :=
    List.mem_map_of_mem hx
  have distinct : ((writtenMembers rename nodes blocks).map Prod.snd).Nodup := by
    rw [writtenMembers, List.map_map]
    exact names
  rw [← writtenNodes_place hx]
  exact BlockTable.placeOf?_tableFor depthOf_falls (fun _ hx => writtenMembers_way hx) distinct
    member

theorem holds_readBlocks {b : Block} (hb : b ∈ readBlocks labels id rename nodes blocks) :
    Block.Holds (readBlocks labels id rename nodes blocks) (readNodes rename nodes blocks)
      b.name := by
  obtain ⟨name, hname, rfl⟩ := List.mem_map.mp hb
  obtain ⟨y, hy, listed⟩ := BlockTable.mem_mentioned.mp hname
  obtain ⟨⟨gs, n⟩, hx, rfl⟩ := List.mem_map.mp hy
  have way := writtenMembers_way hy
  have place : Block.placeOf? (readBlocks labels id rename nodes blocks) (rename n).id =
      (Block.placeOf? blocks n.id).map (readName rename nodes blocks) :=
    placeOf?_readBlocks names (List.mem_map_of_mem hx)
  rw [← writtenNodes_place hx] at place
  cases gs with
  | nil => cases listed
  | cons a gs =>
    have first : a ∈ BlockTable.mentioned (writtenMembers rename nodes blocks) :=
      BlockTable.mem_mentioned.mpr ⟨_, hy, List.mem_cons_self⟩
    exact ⟨rename n, List.mem_map_of_mem hx, _, place,
      BlockTable.within_tableFor depthOf_falls (fun _ hx => writtenMembers_way hx) way first listed⟩

/-- What is written directly in a block that has been read back, or in none. -/
theorem writtenIn_readBlocks (distinct : (blocks.map (·.name)).Nodup) {parent : Option Text}
    (known : ∀ p, parent = some p → p ∈ (outlineOf nodes blocks).blocks) :
    writtenIn
        (Outline.of (readNodes rename nodes blocks) (readBlocks labels id rename nodes blocks))
        (readNodes rename nodes blocks) (parent.map (readName rename nodes blocks)) =
      (namesIn nodes blocks parent).map (readBlock labels id rename nodes blocks) := by
  have inner : (BlockTable.mentioned (writtenMembers rename nodes blocks)).filter
      (fun name => Block.parentOf? blocks name = parent) = namesIn nodes blocks parent := by
    obtain ⟨roots, grown⟩ := outlineOf_grown nodes blocks
    have full := outlineOf_full nodes blocks
    have own : ∀ name ∈ (outlineOf nodes blocks).blocks,
        decide (Block.parentOf? blocks name = parent) = true ↔
          name ∈ namesIn nodes blocks parent := by
      intro name hname
      obtain ⟨listed, holds⟩ := mem_outlineOf.mp hname
      rw [decide_eq_true_eq, mem_namesIn]
      exact ⟨fun h => ⟨listed, h, holds⟩, fun h => h.2.1⟩
    have outside : ∀ name ∈ ([] : List Text),
        decide (Block.parentOf? blocks name = parent) = false := by
      intro name hname
      cases hname
    rw [BlockTable.filter_mentioned, writtenMembers_mentions]
    cases parent with
    | none =>
      rw [← roots] at own ⊢
      exact Forest.filter_mentions_roots full (outlineOf_nodup distinct) own outside
    | some p =>
      exact grown.filter_mentions full (outlineOf_nodup distinct) (known p rfl) own outside
  rw [writtenIn_eq fun b hb => holds_readBlocks names hb]
  show ((BlockTable.mentioned (writtenMembers rename nodes blocks)).map
    (readBlock labels id rename nodes blocks)).filter _ = _
  rw [List.filter_map, ← inner]
  refine congrArg (List.map _) (List.filter_congr fun name hname => ?_)
  have listed := mem_mentioned_writtenMembers.mp hname
  apply decide_eq_decide.mpr
  show Block.parentOf? _ (readName rename nodes blocks name) = _ ↔ _
  rw [parentOf?_readBlocks listed]
  refine ⟨fun same => ?_, fun same => congrArg _ same⟩
  cases around : Block.parentOf? blocks name with
  | none =>
    rw [around] at same
    exact (Option.map_eq_none_iff.mp same.symm).symm
  | some p =>
    rw [around] at same
    obtain ⟨q, hq, equal⟩ := Option.map_eq_some_iff.mp same.symm
    rw [hq, readName_inj (known q hq) equal]

theorem membersOf_readBlocks (distinct : (blocks.map (·.name)).Nodup) {name : Text}
    (h : name ∈ (outlineOf nodes blocks).blocks) :
    membersOf
        (Outline.of (readNodes rename nodes blocks) (readBlocks labels id rename nodes blocks))
        (readNodes rename nodes blocks) (readName rename nodes blocks name) =
      (membersOf (Outline.of nodes blocks) nodes name).map rename := by
  obtain ⟨-, grown⟩ := outlineOf_grown nodes blocks
  have inside : (outlineOf nodes blocks).nodes.filter
      (fun n => Block.placeOf? blocks n.id = some name) =
        membersOf (Outline.of nodes blocks) nodes name := by
    refine grown.filter_nodes (outlineOf_nodup distinct) h ?_
    intro x hx
    have member := (grown.mem_placed hx).2
    rw [membersOf_eq] at member
    rw [of_decide_eq_true (List.mem_filter.mp member).2, decide_eq_true_eq, Option.some_inj]
  have outside : (looseNodes nodes blocks).filter
      (fun n => Block.placeOf? blocks n.id = some name) = [] := by
    rw [List.filter_eq_nil_iff]
    intro n hn
    rw [of_decide_eq_true (List.mem_filter.mp hn).2]
    simp
  have written : ((writtenNodes nodes blocks).map Prod.snd).filter
      (fun n => Block.placeOf? blocks n.id = some name) =
        membersOf (Outline.of nodes blocks) nodes name := by
    rw [writtenNodes_map_snd, List.filter_append, inside, outside, List.append_nil]
  rw [membersOf_eq, ← written, readNodes_eq, List.filter_map]
  refine congrArg (List.map rename) (List.filter_congr fun n hn => ?_)
  apply decide_eq_decide.mpr
  show Block.placeOf? _ (rename n).id = _ ↔ _
  rw [placeOf?_readBlocks names hn]
  constructor
  · intro same
    obtain ⟨q, hq, equal⟩ := Option.map_eq_some_iff.mp same
    rw [hq, readName_inj h equal.symm]
  · intro same
    rw [same]
    rfl

/-- **The forest that is written for what has been read back is the one that was written.** -/
theorem forestOf_readBlocks (distinct : (blocks.map (·.name)).Nodup) :
    forestOf (readNodes rename nodes blocks) (readBlocks labels id rename nodes blocks) =
      (outlineOf nodes blocks).map (readBlock labels id rename nodes blocks) rename := by
  obtain ⟨roots, grown⟩ := outlineOf_grown nodes blocks
  obtain ⟨roots', grown'⟩ := forestOf_grown (readNodes rename nodes blocks)
    (readBlocks labels id rename nodes blocks)
  have outermost : ∀ p, (none : Option Text) = some p → p ∈ (outlineOf nodes blocks).blocks := by
    rintro p ⟨⟩
  refine grown'.ext (grown.map _ _ ?_ ?_) ?_
  · intro name hname
    have known : ∀ p, some name = some p → p ∈ (outlineOf nodes blocks).blocks := by
      rintro p ⟨⟩
      exact hname
    show writtenIn _ _ ((some name).map (readName rename nodes blocks)) = _
    exact writtenIn_readBlocks names distinct known
  · exact fun name hname => membersOf_readBlocks names distinct hname
  · rw [roots', Forest.roots_map, roots]
    show writtenIn _ _ ((none : Option Text).map (readName rename nodes blocks)) = _
    exact writtenIn_readBlocks names distinct outermost

theorem looseNodes_readBlocks :
    looseNodes (readNodes rename nodes blocks) (readBlocks labels id rename nodes blocks) =
      (looseNodes nodes blocks).map rename := by
  have inside : (outlineOf nodes blocks).nodes.filter
      (fun n => Block.placeOf? blocks n.id = none) = [] := by
    rw [← Forest.placed_map_snd, List.filter_eq_nil_iff]
    intro n hn
    obtain ⟨x, hx, rfl⟩ := List.mem_map.mp hn
    have member := ((outlineOf_grown nodes blocks).2.mem_placed hx).2
    rw [membersOf_eq] at member
    rw [of_decide_eq_true (List.mem_filter.mp member).2]
    simp
  have outside : (looseNodes nodes blocks).filter
      (fun n => Block.placeOf? blocks n.id = none) = looseNodes nodes blocks :=
    List.filter_eq_self.mpr fun n hn => (List.mem_filter.mp hn).2
  have written : ((writtenNodes nodes blocks).map Prod.snd).filter
      (fun n => Block.placeOf? blocks n.id = none) = looseNodes nodes blocks := by
    rw [writtenNodes_map_snd, List.filter_append, inside, outside, List.nil_append]
  nth_rewrite 1 [looseNodes]
  rw [readNodes_eq, List.filter_map, ← written]
  refine congrArg (List.map rename) (List.filter_congr fun n hn => ?_)
  apply decide_eq_decide.mpr
  show Block.placeOf? _ (rename n).id = _ ↔ _
  rw [placeOf?_readBlocks names hn]
  exact Option.map_eq_none_iff

/-- The outline of what has been read back is the outline that was written. -/
theorem outlineOf_readBlocks (distinct : (blocks.map (·.name)).Nodup) :
    outlineOf (readNodes rename nodes blocks) (readBlocks labels id rename nodes blocks) =
      (outlineOf nodes blocks).map (readName rename nodes blocks) rename := by
  rw [outlineOf, forestOf_readBlocks names distinct, Forest.map_map]
  rfl

/-- **Nodes that have been read back are written in their order.** -/
theorem writtenNodes_readBlocks (distinct : (blocks.map (·.name)).Nodup) :
    (writtenNodes (readNodes rename nodes blocks) (readBlocks labels id rename nodes blocks)).map
      Prod.snd = readNodes rename nodes blocks := by
  rw [writtenNodes_map_snd, outlineOf_readBlocks names distinct, Forest.nodes_map,
    looseNodes_readBlocks names, ← List.map_append, ← writtenNodes_map_snd, ← readNodes_eq]

/-- **Blocks that have been read back keep their names.** -/
theorem readName_readBlocks (distinct : (blocks.map (·.name)).Nodup) (rename' : Node → Node)
    {name : Text} (h : name ∈ (readBlocks labels id rename nodes blocks).map (·.name)) :
    readName rename' (readNodes rename nodes blocks) (readBlocks labels id rename nodes blocks)
      name = name := by
  rw [readBlocks, BlockTable.tableFor_names] at h
  obtain ⟨a, ha, rfl⟩ := List.mem_map.mp h
  apply BlockTable.groupName_map
  · exact fun a ha b _ same => BlockTable.groupName_inj ha same
  · rw [writtenMembers_mentions, writtenMembers_mentions, outlineOf_readBlocks names distinct]
    exact Forest.mentions_map _ _ [] _
  · exact ha

end Named

end Regrouped

end Drawbridge
