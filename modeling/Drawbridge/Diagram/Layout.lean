import Drawbridge.Diagram.Draft

/-!
Laying out a diagram as a scene: shapes on a grid of four columns in the order of first mention, a
text in every shape that has a label, and an arrow for every edge, with a text if it has one. All
elements and groups are numbered in one sequence.
-/

namespace Drawbridge

/-- A scene with the titles of its groups. -/
structure Rendering where
  elements : List Element := []
  files : Dictionary Json := []
  groupLabels : Dictionary Text := []

namespace Layout

def columns : Nat := 4

def shapeWidth : Float := 180.0

def shapeHeight : Float := 80.0

/-- The distance between the left edges of two columns. -/
def columnStep : Float := 280.0

/-- The distance between the upper edges of two rows. -/
def rowStep : Float := 200.0

/-- The identifier of an element or group: its kind and its number. -/
def numbered (kind : String) (n : Nat) : Text :=
  kind.toList ++ '-' :: decimal n

/-- The identifiers of the subgraphs, numbered from 1. -/
def groupIds (titles : Dictionary Text) : Dictionary Text :=
  titles.mapIdx fun i (id, _) => (id, numbered "group" (i + 1))

def textIn (container : Element) (id label : Text) (groups : List Text) : Element :=
  { id, type := "text".toList, text := .str label, stroke := .str defaultStroke, groupIds := groups,
    containerId := .str container.id, x := container.x, y := container.y,
    width := container.width, height := container.height }

/-- A node with its place in the order, and the numbers of its shape and its text. -/
structure PlacedNode where
  node : DraftNode
  index : Nat
  number : Nat
  deriving DecidableEq, Repr

/-- Numbers the nodes. A node with a label takes a second number for its text. -/
def placeNodes (index number : Nat) : List DraftNode → List PlacedNode × Nat
  | [] => ([], number)
  | n :: ns =>
    let next := if n.label = [] then number + 1 else number + 2
    let (placed, last) := placeNodes (index + 1) next ns
    (⟨n, index, number⟩ :: placed, last)

structure PlacedEdge where
  edge : Edge
  number : Nat
  deriving DecidableEq, Repr

def placeEdges (number : Nat) : List Edge → List PlacedEdge
  | [] => []
  | e :: es => ⟨e, number⟩ :: placeEdges (if e.label = [] then number + 1 else number + 2) es

/-- The arrows at a node, one entry for each end. -/
def arrowsAt (edges : List PlacedEdge) (id : Text) : List BoundElement :=
  edges.flatMap fun e =>
    let entry : BoundElement := ⟨numbered "arrow" e.number, "arrow".toList⟩
    (if e.edge.source = id then [entry] else []) ++ (if e.edge.target = id then [entry] else [])

/-- The entry of a text in its shape or arrow, if there is a label. -/
def textEntry (label : Text) (number : Nat) : List BoundElement :=
  if label = [] then [] else [⟨numbered "text" number, "text".toList⟩]

/-- The groups of a node, innermost first. -/
def groupsOf (ids : Dictionary Text) (n : DraftNode) : List Text :=
  n.groups.reverse.filterMap ids.get?

def shapeOf (d : Draft) (edges : List PlacedEdge) (p : PlacedNode) : Element :=
  let style := (d.classDefs.get? p.node.styleClass).getD []
  { id := numbered "shape" p.number
    type := p.node.shape.name
    fill := .str ((style.get? "fill".toList).getD transparent)
    stroke := .str ((style.get? "stroke".toList).getD defaultStroke)
    groupIds := groupsOf (groupIds d.titles) p.node
    boundElements := textEntry p.node.label (p.number + 1) ++ arrowsAt edges p.node.id
    x := (p.index % columns).toFloat * columnStep
    y := (p.index / columns).toFloat * rowStep
    width := shapeWidth
    height := shapeHeight }

def nodeElements (d : Draft) (edges : List PlacedEdge) (p : PlacedNode) : List Element :=
  let shape := shapeOf d edges p
  shape :: (if p.node.label = [] then []
    else [textIn shape (numbered "text" (p.number + 1)) p.node.label shape.groupIds])

def centre (e : Element) : Float × Float :=
  (e.x + e.width / 2.0, e.y + e.height / 2.0)

def arrowOf (p : PlacedEdge) (start stop : Element) : Element :=
  let (x₁, y₁) := centre start
  let (x₂, y₂) := centre stop
  { id := numbered "arrow" p.number
    type := "arrow".toList
    stroke := .str defaultStroke
    boundElements := textEntry p.edge.label (p.number + 1)
    startId := some start.id
    endId := some stop.id
    x := x₁
    y := y₁
    width := (x₂ - x₁).abs
    height := (y₂ - y₁).abs
    points := [[.float 0.0, .float 0.0], [.float (x₂ - x₁), .float (y₂ - y₁)]] }

def edgeElements (shapeNamed? : Text → Option Element) (p : PlacedEdge) : List Element :=
  match shapeNamed? p.edge.source, shapeNamed? p.edge.target with
  | some start, some stop =>
    let arrow := arrowOf p start stop
    arrow :: (if p.edge.label = [] then []
      else [textIn arrow (numbered "text" (p.number + 1)) p.edge.label []])
  | _, _ => []

def render (d : Draft) : Rendering :=
  let (nodes, next) := placeNodes 0 (d.titles.length + 1) d.nodes
  let edges := placeEdges next d.edges
  let shapeNamed? (id : Text) : Option Element :=
    (nodes.find? fun p => p.node.id = id).map (shapeOf d edges)
  { elements := nodes.flatMap (nodeElements d edges) ++ edges.flatMap (edgeElements shapeNamed?)
    groupLabels := d.titles.mapIdx fun i (_, title) => (numbered "group" (i + 1), title) }

end Layout

end Drawbridge
