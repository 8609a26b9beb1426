import Drawbridge.Graph.Basic

/-!
How blocks lie in one another. The parent pointers of a list of blocks may be dangling or circular;
`Block.parentOf?` repairs them to a forest, `Block.depthOf` measures it, and `Block.placeOf?` gives
every node one place: the deepest of the blocks that list it, the first of those. An `Outline` holds
the parents and places of a graph worked out once; `parent?_of` and `place?_of` say that it agrees
with the definitions.
-/

namespace Drawbridge

namespace Block

/-- The block with a name; of several the last one counts. -/
def named? (blocks : List Block) (name : Text) : Option Block :=
  blocks.reverse.find? fun b => b.name = name

/-- Whether following the parent pointers from `current` at most so many times meets `name`. -/
def reaches (blocks : List Block) (name : Text) : Nat → Option Text → Bool
  | 0, _ => false
  | _ + 1, none => false
  | fuel + 1, some current =>
    match named? blocks current with
    | none => false
    | some b => current = name || reaches blocks name fuel b.parent

/--
The parent of the block with a name: its pointer, if that names a listed block and following the
pointers from there does not lead back.
-/
def parentOf? (blocks : List Block) (name : Text) : Option Text :=
  match (named? blocks name).bind (·.parent) with
  | none => none
  | some p =>
    if (named? blocks p).isSome && !reaches blocks name blocks.length (some p) then some p else none

/-- The number of steps outwards from a name, as far as the bound goes. -/
def depthWithin (parent? : Text → Option Text) : Nat → Text → Nat
  | 0, _ => 0
  | fuel + 1, name =>
    match parent? name with
    | some p => depthWithin parent? fuel p + 1
    | none => 0

/-- The number of blocks around the one with a name. -/
def depthOf (blocks : List Block) (name : Text) : Nat :=
  depthWithin (parentOf? blocks) blocks.length name

/-- The first of the deepest among some blocks, given the best so far. -/
def deepest? (depth : Text → Nat) (best : Option Text) : List Block → Option Text
  | [] => best
  | b :: rest =>
    match best with
    | none => deepest? depth (some b.name) rest
    | some c => deepest? depth (some (if depth c < depth b.name then b.name else c)) rest

/-- The blocks that list a node. -/
def listing (blocks : List Block) (nodeId : Text) : List Block :=
  blocks.filter fun b => nodeId ∈ b.nodeIds

/-- The block in which a node is declared. -/
def placeOf? (blocks : List Block) (nodeId : Text) : Option Text :=
  deepest? (depthOf blocks) none (listing blocks nodeId)

end Block

/-- Blocks with their parents, and the places of nodes. -/
structure Outline where
  blocks : List Block
  parents : Dictionary (Option Text)
  places : Dictionary (Option Text)

namespace Outline

def parent? (o : Outline) (name : Text) : Option Text :=
  (o.parents.get? name).getD none

def place? (o : Outline) (nodeId : Text) : Option Text :=
  (o.places.get? nodeId).getD none

def of (nodes : List Node) (blocks : List Block) : Outline :=
  let names := blocks.map (·.name)
  let parents := Dictionary.tabulate (Block.parentOf? blocks) names
  let outwards (name : Text) : Option Text := (parents.get? name).getD none
  let depths := Dictionary.tabulate (Block.depthWithin outwards blocks.length) names
  let depth (name : Text) : Nat := (depths.get? name).getD 0
  let place (nodeId : Text) : Option Text :=
    Block.deepest? depth none (Block.listing blocks nodeId)
  { blocks, parents, places := Dictionary.tabulate place (nodes.map (·.id)) }

end Outline

/-! ## Agreement with the definitions -/

theorem Block.named?_eq_none {blocks : List Block} {name : Text}
    (h : name ∉ blocks.map (·.name)) : named? blocks name = none := by
  simp only [named?, List.find?_eq_none, List.mem_reverse, decide_eq_true_eq]
  intro b hb hn
  exact h (List.mem_map.mpr ⟨b, hb, hn⟩)

theorem Block.parentOf?_eq_none {blocks : List Block} {name : Text}
    (h : name ∉ blocks.map (·.name)) : parentOf? blocks name = none := by
  simp [parentOf?, named?_eq_none h]

theorem Block.deepest?_congr {f g : Text → Nat} (names : List Text) (hfg : ∀ n ∈ names, f n = g n)
    (blocks : List Block) (hb : ∀ b ∈ blocks, b.name ∈ names) (best : Option Text)
    (hbest : ∀ n ∈ best, n ∈ names) : deepest? f best blocks = deepest? g best blocks := by
  induction blocks generalizing best with
  | nil => rfl
  | cons b rest ih =>
    have hname : b.name ∈ names := hb b (by simp)
    have hrest : ∀ b ∈ rest, b.name ∈ names := fun b h => hb b (by simp [h])
    cases best with
    | none => exact ih hrest (some b.name) (by simpa using hname)
    | some c =>
      have hc : c ∈ names := hbest c (by simp)
      simp only [deepest?, hfg c hc, hfg b.name hname]
      refine ih hrest _ ?_
      split <;> simpa

namespace Outline

theorem parent?_of (nodes : List Node) (blocks : List Block) (name : Text) :
    (of nodes blocks).parent? name = Block.parentOf? blocks name := by
  simp only [of, parent?, Dictionary.get?_tabulate]
  split
  · rfl
  · rename_i h
    exact (Block.parentOf?_eq_none h).symm

theorem place?_of (nodes : List Node) (blocks : List Block) {nodeId : Text}
    (h : nodeId ∈ nodes.map (·.id)) :
    (of nodes blocks).place? nodeId = Block.placeOf? blocks nodeId := by
  have outwards : (fun name => ((Dictionary.tabulate (Block.parentOf? blocks)
      (blocks.map (·.name))).get? name).getD none) = Block.parentOf? blocks :=
    funext (parent?_of nodes blocks)
  simp only [of, place?, Dictionary.get?_tabulate, if_pos h, Option.getD_some, Block.placeOf?]
  refine Block.deepest?_congr (blocks.map (·.name)) ?_ _ ?_ none (by simp)
  · intro n hn
    simp only [Dictionary.get?_tabulate] at outwards
    simp only [if_pos hn, Option.getD_some, Block.depthOf, outwards]
  · intro b hb
    exact List.mem_map.mpr ⟨b, (List.mem_filter.mp hb).1, rfl⟩

end Outline

end Drawbridge
