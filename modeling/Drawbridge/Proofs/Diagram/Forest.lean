import Mathlib.Data.List.Basic

/-!
Blocks in blocks, as a tree structure: a `Forest` is a list of blocks, each with the blocks inside
and the nodes directly in it. A forest is grown from functions that give the blocks and nodes
directly in a block (`Forest.Grown`), and grown from the same roots it is the same
(`Forest.Grown.ext`). What it holds is what the roots and the functions give:

* `Grown.mem_blocks_iff`: its blocks are the roots and what lies directly in its blocks;
* `Grown.held_cases`, `Grown.mem_placed`: so are the blocks directly around them and its nodes;
* `Grown.nodes_perm`: every node comes once for each block that it is directly in.
-/

namespace Drawbridge

/-- Blocks one after the other, each with the blocks inside and the nodes directly in it. -/
inductive Forest (β ν : Type) where
  | nil
  | cons (block : β) (inner : Forest β ν) (members : List ν) (rest : Forest β ν)

namespace Forest

variable {β ν : Type}

def roots : Forest β ν → List β
  | nil => []
  | cons b _ _ rest => b :: rest.roots

/-- All blocks, each before those inside. -/
def blocks : Forest β ν → List β
  | nil => []
  | cons b inner _ rest => b :: (inner.blocks ++ rest.blocks)

/-- All nodes, those of a block after those of the blocks inside. -/
def nodes : Forest β ν → List ν
  | nil => []
  | cons _ inner ms rest => inner.nodes ++ ms ++ rest.nodes

/-- All blocks, each with the block directly around it. -/
def held (around : Option β) : Forest β ν → List (Option β × β)
  | nil => []
  | cons b inner _ rest => (around, b) :: (inner.held (some b) ++ rest.held around)

/-- All nodes, each with the block directly around it. -/
def placed : Forest β ν → List (β × ν)
  | nil => []
  | cons b inner ms rest => inner.placed ++ ms.map (b, ·) ++ rest.placed

def ofList (inner : β → Forest β ν) (members : β → List ν) : List β → Forest β ν
  | [] => nil
  | b :: bs => cons b (inner b) (members b) (ofList inner members bs)

theorem roots_ofList (inner : β → Forest β ν) (members : β → List ν) (bs : List β) :
    (ofList inner members bs).roots = bs := by
  induction bs with
  | nil => rfl
  | cons b bs ih => exact congrArg (b :: ·) ih

theorem held_map_snd (around : Option β) (f : Forest β ν) :
    (f.held around).map Prod.snd = f.blocks := by
  induction f generalizing around with
  | nil => rfl
  | cons b inner ms rest innerIh restIh =>
    rw [held, List.map_cons, List.map_append, innerIh, restIh]
    rfl

theorem placed_map_snd (f : Forest β ν) : f.placed.map Prod.snd = f.nodes := by
  induction f with
  | nil => rfl
  | cons b inner ms rest innerIh restIh =>
    rw [placed, List.map_append, List.map_append, innerIh, restIh, List.map_map]
    show inner.nodes ++ ms.map id ++ rest.nodes = _
    rw [List.map_id]
    rfl

theorem roots_subset_blocks {f : Forest β ν} {b : β} (h : b ∈ f.roots) : b ∈ f.blocks := by
  induction f with
  | nil => cases h
  | cons c inner ms rest _ ih =>
    rcases List.mem_cons.mp h with rfl | h
    · exact List.mem_cons_self
    · exact List.mem_cons_of_mem c (List.mem_append_right _ (ih h))

/-! ## Growing -/

/-- What lies directly in a block is what two functions give. -/
def Grown (children : β → List β) (members : β → List ν) : Forest β ν → Prop
  | nil => True
  | cons b inner ms rest =>
    inner.roots = children b ∧ ms = members b ∧ inner.Grown children members ∧
      rest.Grown children members

variable {children : β → List β} {members : β → List ν} {f g : Forest β ν}

theorem grown_ofList {inner : β → Forest β ν} {bs : List β}
    (h : ∀ b ∈ bs, (inner b).roots = children b ∧ (inner b).Grown children members) :
    (ofList inner members bs).Grown children members := by
  induction bs with
  | nil => trivial
  | cons b bs ih =>
    obtain ⟨roots, grown⟩ := h b List.mem_cons_self
    exact ⟨roots, rfl, grown, ih fun c hc => h c (List.mem_cons_of_mem b hc)⟩

namespace Grown

/-- **Grown from the same roots, a forest is the same.** -/
theorem ext (hf : f.Grown children members) (hg : g.Grown children members)
    (same : f.roots = g.roots) : f = g := by
  induction f generalizing g with
  | nil =>
    cases g with
    | nil => rfl
    | cons => cases same
  | cons b inner ms rest innerIh restIh =>
    cases g with
    | nil => cases same
    | cons c inner' ms' rest' =>
      obtain ⟨rfl, tail⟩ := List.cons.inj same
      obtain ⟨roots, here, grownInner, grownRest⟩ := hf
      obtain ⟨roots', here', grownInner', grownRest'⟩ := hg
      rw [innerIh grownInner grownInner' (roots.trans roots'.symm), here.trans here'.symm,
        restIh grownRest grownRest' tail]

/-- A block of the forest is outermost, or lies directly in one. -/
theorem held_cases (h : f.Grown children members) {around : Option β} {x : Option β × β}
    (hx : x ∈ f.held around) :
    x.1 = around ∧ x.2 ∈ f.roots ∨ ∃ p ∈ f.blocks, x.1 = some p ∧ x.2 ∈ children p := by
  induction f generalizing around with
  | nil => cases hx
  | cons b inner ms rest innerIh restIh =>
    obtain ⟨roots, -, grownInner, grownRest⟩ := h
    rcases List.mem_cons.mp hx with rfl | hx
    · exact .inl ⟨rfl, List.mem_cons_self⟩
    rcases List.mem_append.mp hx with hx | hx
    · right
      rcases innerIh grownInner hx with ⟨here, root⟩ | ⟨p, hp, here, child⟩
      · exact ⟨b, List.mem_cons_self, here, roots ▸ root⟩
      · exact ⟨p, List.mem_cons_of_mem b (List.mem_append_left _ hp), here, child⟩
    · rcases restIh grownRest hx with ⟨here, root⟩ | ⟨p, hp, here, child⟩
      · exact .inl ⟨here, List.mem_cons_of_mem b root⟩
      · exact .inr ⟨p, List.mem_cons_of_mem b (List.mem_append_right _ hp), here, child⟩

theorem mem_of_child (h : f.Grown children members) {p c : β} (hp : p ∈ f.blocks)
    (hc : c ∈ children p) : c ∈ f.blocks := by
  induction f with
  | nil => cases hp
  | cons b inner ms rest innerIh restIh =>
    obtain ⟨roots, -, grownInner, grownRest⟩ := h
    apply List.mem_cons_of_mem
    rcases List.mem_cons.mp hp with rfl | hp
    · exact List.mem_append_left _ (roots_subset_blocks (roots ▸ hc))
    rcases List.mem_append.mp hp with hp | hp
    · exact List.mem_append_left _ (innerIh grownInner hp)
    · exact List.mem_append_right _ (restIh grownRest hp)

/-- **The blocks of a forest are its roots and what lies directly in its blocks.** -/
theorem mem_blocks_iff (h : f.Grown children members) {b : β} :
    b ∈ f.blocks ↔ b ∈ f.roots ∨ ∃ p ∈ f.blocks, b ∈ children p := by
  constructor
  · intro hb
    rw [← held_map_snd none f] at hb
    obtain ⟨x, hx, rfl⟩ := List.mem_map.mp hb
    rcases h.held_cases hx with ⟨-, root⟩ | ⟨p, hp, -, child⟩
    · exact .inl root
    · exact .inr ⟨p, hp, child⟩
  · rintro (root | ⟨p, hp, child⟩)
    · exact roots_subset_blocks root
    · exact h.mem_of_child hp child

theorem mem_placed (h : f.Grown children members) {x : β × ν} (hx : x ∈ f.placed) :
    x.1 ∈ f.blocks ∧ x.2 ∈ members x.1 := by
  induction f with
  | nil => cases hx
  | cons b inner ms rest innerIh restIh =>
    obtain ⟨-, here, grownInner, grownRest⟩ := h
    rcases List.mem_append.mp hx with hx | hx
    · rcases List.mem_append.mp hx with hx | hx
      · obtain ⟨block, node⟩ := innerIh grownInner hx
        exact ⟨List.mem_cons_of_mem b (List.mem_append_left _ block), node⟩
      · obtain ⟨n, hn, rfl⟩ := List.mem_map.mp hx
        exact ⟨List.mem_cons_self, here ▸ hn⟩
    · obtain ⟨block, node⟩ := restIh grownRest hx
      exact ⟨List.mem_cons_of_mem b (List.mem_append_right _ block), node⟩

/-- **Every node comes once for each block that it is directly in.** -/
theorem nodes_perm (h : f.Grown children members) : f.nodes.Perm (f.blocks.flatMap members) := by
  induction f with
  | nil => exact .nil
  | cons b inner ms rest innerIh restIh =>
    obtain ⟨-, here, grownInner, grownRest⟩ := h
    rw [nodes, blocks, List.flatMap_cons, List.flatMap_append, ← here, ← List.append_assoc]
    have first : (inner.nodes ++ ms).Perm (ms ++ inner.nodes) := List.perm_append_comm
    exact (first.trans ((innerIh grownInner).append_left ms)).append (restIh grownRest)

end Grown

end Forest

end Drawbridge
