import Drawbridge.Graph.Basic

/-!
The table of blocks while a scene is read. `addMember` enters a node under the groups of its shape,
innermost first, creating blocks in the order in which groups are first seen. Neighbours in the list
give the nesting, unless that would close a cycle or the inner block has its place already.
-/

namespace Drawbridge

/-- Blocks in the order in which their groups were first seen. -/
abbrev BlockTable := List Block

namespace BlockTable

def find? (t : BlockTable) (sourceId : Text) : Option Block :=
  List.find? (fun b => b.sourceId = sourceId) t

def named? (t : BlockTable) (name : Text) : Option Block :=
  List.find? (fun b => b.name = name) t

/-- The table with a block for a group. A group without a display label shows its block's name. -/
def ensure (labels : Dictionary Text) (t : BlockTable) (sourceId : Text) : BlockTable :=
  match find? t sourceId with
  | some _ => t
  | none =>
    let name := blockName t.length
    let label :=
      match labels.get? sourceId with
      | some (c :: l) => c :: l
      | _ => name
    t ++ [{ name, label, sourceId }]

def update (t : BlockTable) (sourceId : Text) (f : Block → Block) : BlockTable :=
  t.map fun b => if b.sourceId = sourceId then f b else b

/-- Enters a node into a block once. -/
def addNode (nodeId : Text) (b : Block) : Block :=
  if nodeId ∈ b.nodeIds then b else { b with nodeIds := b.nodeIds ++ [nodeId] }

/-- Whether `name` is reached from `current` by going outwards at most so many times. -/
def encloses (t : BlockTable) (name : Text) : Nat → Text → Bool
  | 0, current => current = name
  | fuel + 1, current =>
    current = name ||
      match (named? t current).bind (·.parent) with
      | some outer => encloses t name fuel outer
      | none => false

/-- Puts the block of `inner` into that of `outer`, if it has no place yet and no cycle arises. -/
def nest (t : BlockTable) (inner outer : Text) : BlockTable :=
  match find? t inner, find? t outer with
  | some b, some enclosing =>
    if b.parent.isNone && !encloses t b.name t.length enclosing.name then
      update t inner fun b => { b with parent := some enclosing.name }
    else t
  | _, _ => t

/-- Nests the groups of a list, innermost first. -/
def nestAll (t : BlockTable) : List Text → BlockTable
  | inner :: outer :: rest => nestAll (nest t inner outer) (outer :: rest)
  | _ => t

/-- Enters a node under a list of groups; gives the table and the names of their blocks. -/
def addMember (labels : Dictionary Text) (t : BlockTable) (groupIds : List Text) (nodeId : Text) :
    BlockTable × List Text :=
  let entered := groupIds.foldl (fun t g => update (ensure labels t g) g (addNode nodeId)) t
  let names := groupIds.filterMap fun g => (find? entered g).map (·.name)
  (nestAll entered groupIds, names)

end BlockTable

end Drawbridge
