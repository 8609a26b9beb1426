import Drawbridge.Scene.Element

/-!
The graph behind a scene: nodes and edges under canonical names, the groups of nodes as blocks that
may lie in one another, and the colour pairs in use as style classes.
-/

namespace Drawbridge

/-- A pair of colours under a name. -/
structure StyleClass where
  name : Text
  fill : Json
  stroke : Json

/-- A shape of the scene. -/
structure Node where
  /-- Canonical name: `A` to `Z`, then `N27`, `N28`, and so on. -/
  id : Text
  sourceId : Text := []
  shape : Shape
  label : Text
  fill : Json := .null
  stroke : Json := .null
  styleClass : Text
  /-- Names of the blocks the shape belongs to, innermost first. -/
  groups : List Text := []

/-- An arrow between two nodes. -/
structure Edge where
  source : Text
  target : Text
  label : Text := []
  deriving DecidableEq, Repr

/-- A group of nodes. -/
structure Block where
  /-- Canonical name: `G1`, `G2`, and so on. -/
  name : Text
  label : Text
  nodeIds : List Text := []
  sourceId : Text := []
  /-- The name of the block this one lies in. -/
  parent : Option Text := none
  deriving DecidableEq, Repr

/-- Nodes, edges, blocks and style classes of a scene. -/
structure Graph where
  nodes : List Node := []
  edges : List Edge := []
  blocks : List Block := []
  styles : List StyleClass := []

/-- The first node with a name. -/
def Graph.node? (g : Graph) (id : Text) : Option Node :=
  g.nodes.find? fun n => n.id = id

/-- The canonical name of the node with an index. -/
def nodeName (index : Nat) : Text :=
  if index < 26 then [Char.ofNat (65 + index)] else 'N' :: decimal (index + 1)

def blockName (index : Nat) : Text :=
  'G' :: decimal (index + 1)

def styleName (index : Nat) : Text :=
  'C' :: decimal (index + 1)

end Drawbridge
