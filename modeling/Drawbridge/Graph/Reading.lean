import Drawbridge.Graph.Blocks
import Drawbridge.Markup.Tidy

/-!
Reading the graph of a scene. Texts give the labels, shapes become nodes in scene order, and an
arrow becomes an edge if both of its ends are bound to shapes. Deleted elements do not count.
-/

namespace Drawbridge

/-! ## Labels -/

/-- A text of the scene: its identifier, its content as a label, and the element that holds it. -/
structure TextItem where
  id : Text
  label : Text
  container : Option Text
  deriving DecidableEq, Repr

/-- Reads a text element. Its content has to be a text, and its container a possible key. -/
def readTextItem (e : Element) : Except Fault TextItem := do
  let content ←
    if e.text.isTruthy then
      match e.text with
      | .str s => .ok s
      | _ => .error .wrongKind
    else .ok []
  let container ←
    if e.containerId.isTruthy then
      if e.containerId.isScalar then .ok e.containerId.text? else .error .wrongKind
    else .ok none
  return { id := e.id, label := cleanLabel content, container }

/-- The label of the last text with an identifier. -/
def labelOf (texts : List TextItem) (id : Text) : Text :=
  ((texts.reverse.find? fun t => t.id = id).map (·.label)).getD []

/-- The first text held by an element. -/
def textIn? (texts : List TextItem) (id : Text) : Option Text :=
  (texts.find? fun t => t.container = some id).map (·.id)

/-- The label of a shape or arrow: that of its attached text, or of a text that it holds. -/
def labelFor (texts : List TextItem) (e : Element) : Text :=
  let attached : Option Text := e.boundTextId?.filter (· ≠ [])
  match attached.or (textIn? texts e.id) with
  | some (c :: id) => labelOf texts (c :: id)
  | _ => []

/-! ## Colours -/

/-- A colour, or its default if it is absent. It has to be a possible key. -/
def resolveColour (colour : Json) (default : Text) : Except Fault Json :=
  let colour := colour.orElse (.str default)
  if colour.isScalar then .ok colour else .error .wrongKind

/-- A shape of the scene with its colours settled. -/
structure ShapeItem where
  element : Element
  shape : Shape
  fill : Json
  stroke : Json

/-- Settles the colours of a shape; other elements are passed over. -/
def readShapeItem (e : Element) : Except Fault (Option ShapeItem) :=
  match e.shape? with
  | none => .ok none
  | some shape => do
    let fill ← resolveColour e.fill defaultFill
    let stroke ← resolveColour e.stroke defaultStroke
    return some { element := e, shape, fill, stroke }

/-- The style class of a pair of colours, in a table where it has been entered if need be. -/
def resolveStyle (styles : List StyleClass) (fill stroke : Json) : List StyleClass × StyleClass :=
  match styles.find? fun s => s.fill.sameKey fill && s.stroke.sameKey stroke with
  | some s => (styles, s)
  | none =>
    let s : StyleClass := ⟨styleName styles.length, fill, stroke⟩
    (styles ++ [s], s)

/-! ## Nodes -/

/-- The canonical name of a shape among the identifiers seen so far. -/
def nameAmong? (ids : List Text) (id : Text) : Option Text :=
  (ids.idxOf? id).map nodeName

/-- What has been read of the shapes. -/
structure ReadState where
  /-- The identifiers of shapes in the order in which they were first seen. -/
  ids : List Text := []
  styles : List StyleClass := []
  blocks : BlockTable := []
  nodes : List Node := []

/-- Enters a shape. Shapes with one identifier are nodes of one name. -/
def ReadState.addShape (labels : Dictionary Text) (texts : List TextItem) (st : ReadState)
    (item : ShapeItem) : ReadState :=
  let e := item.element
  let ids := if e.id ∈ st.ids then st.ids else st.ids ++ [e.id]
  let id := (nameAmong? ids e.id).getD []
  let (styles, style) := resolveStyle st.styles item.fill item.stroke
  let (blocks, groups) := BlockTable.addMember labels st.blocks e.groupIds id
  let node : Node :=
    { id, sourceId := e.id, shape := item.shape, label := labelFor texts e, fill := item.fill,
      stroke := item.stroke, styleClass := style.name, groups }
  { ids, styles, blocks, nodes := st.nodes ++ [node] }

/-! ## Edges -/

/-- The shape that one end of an arrow is bound to. An empty identifier binds to none. -/
def boundNode? (ids : List Text) (binding : Option Text) : Option Text :=
  (binding.filter (· ≠ [])).bind (nameAmong? ids)

/-- The edge of an arrow, if both of its ends are bound to shapes. -/
def readEdge? (ids : List Text) (texts : List TextItem) (e : Element) : Option Edge := do
  let source ← boundNode? ids e.startId
  let target ← boundNode? ids e.endId
  return { source, target, label := labelFor texts e }

/-- The graph of a scene. `groupLabels` gives groups their display labels. -/
def readGraph (scene : List Element) (groupLabels : Dictionary Text := []) :
    Except Fault Graph := do
  let live := scene.filter fun e => !e.isDeleted
  let texts ← (live.filter Element.isText).mapM readTextItem
  let shapes ← live.mapM readShapeItem
  let st := (shapes.filterMap id).foldl (ReadState.addShape groupLabels texts) {}
  let edges := (live.filter Element.isArrow).filterMap (readEdge? st.ids texts)
  return { nodes := st.nodes, edges, blocks := st.blocks, styles := st.styles }

end Drawbridge
