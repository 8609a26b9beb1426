import Drawbridge.Diagram.Colour
import Drawbridge.Diagram.Label
import Drawbridge.Diagram.Nesting
import Drawbridge.Graph.Reading
import Drawbridge.Markup.Header
import Drawbridge.Text.Upper

/-!
Writing a graph as diagram text: a flowchart with shapes, blocks and colours, or the bare class and
sequence diagrams of the same graph. The text depends on the order of nodes, edges, blocks and
styles and on nothing else, so a scene always gives the same text.
-/

namespace Drawbridge

inductive DiagramType where
  | flowchart
  | classDiagram
  | sequenceDiagram
  deriving DecidableEq, Repr

namespace DiagramType

def name : DiagramType → Text
  | flowchart => "flowchart".toList
  | classDiagram => "classDiagram".toList
  | sequenceDiagram => "sequenceDiagram".toList

def ofName? (s : Text) : Option DiagramType :=
  [flowchart, classDiagram, sequenceDiagram].find? fun t => t.name = s

def ofJson (j : Json) : Except Fault DiagramType :=
  match j.text?.bind ofName? with
  | some t => .ok t
  | none => .error (.unsupportedType j)

end DiagramType

/-- How a graph is to be written. Kind and direction are taken as given and checked on writing. -/
structure WriteOptions where
  diagramType : Json := .str DiagramType.flowchart.name
  direction : Json := .str "TD".toList
  includeColors : Bool := true

def indent : Text := "    ".toList

def indentBy (level : Nat) : Text :=
  (List.replicate level indent).flatten

/-! ## Flowcharts -/

def brackets : Shape → Text × Text
  | .box => (['['], [']'])
  | .ellipse => (['(', '('], [')', ')'])
  | .diamond => (['{'], ['}'])

/-- The declaration of a node. A node without label shows its name. -/
def nodeLine (colors : Bool) (n : Node) : Text :=
  let (opening, closing) := brackets n.shape
  n.id ++ opening ++ quoteLabel (if n.label = [] then n.id else n.label) ++ closing ++
    (if colors then ":::".toList ++ n.styleClass else [])

def edgeLine (e : Edge) : Text :=
  let label := if e.label = [] then [] else '|' :: (quoteLabel e.label ++ ['|'])
  indent ++ e.source ++ " -->".toList ++ label ++ [' '] ++ e.target

def styleLine (s : StyleClass) : Except Fault Text := do
  let fill ← colourOf s.fill
  let stroke ← colourOf s.stroke
  return indent ++ "classDef ".toList ++ s.name ++ " fill:".toList ++ fill ++ ",stroke:".toList ++
    stroke ++ ",stroke-width:2px;".toList

/-- The nodes that are declared directly in a block. -/
def membersOf (o : Outline) (nodes : List Node) (name : Text) : List Node :=
  nodes.filter fun n => o.place? n.id = some name

/-- The blocks that lie directly in a block, or in none. -/
def childrenOf (o : Outline) (parent : Option Text) : List Block :=
  o.blocks.filter fun b => o.parent? b.name = parent

/-- Whether a block holds a node, directly or in a block inside; the bound counts levels. -/
def occupied (o : Outline) (nodes : List Node) : Nat → Text → Bool
  | 0, name => !(membersOf o nodes name).isEmpty
  | fuel + 1, name =>
    !(membersOf o nodes name).isEmpty ||
      (childrenOf o (some name)).any fun b => occupied o nodes fuel b.name

/-- The opening line of a block. The label is left out where it is the name. -/
def blockHeader (b : Block) : Text :=
  "subgraph ".toList ++ b.name ++
    (if b.label = b.name then [] else '[' :: (quoteLabel b.label ++ [']']))

/--
The lines of a block: its header, the blocks inside, its nodes and its end. A block without nodes is
left out. The bound counts levels.
-/
def blockLines (colors : Bool) (o : Outline) (nodes : List Node) : Nat → Nat → Block → List Text
  | 0, _, _ => []
  | fuel + 1, level, b =>
    if occupied o nodes o.blocks.length b.name then
      (indentBy level ++ blockHeader b) ::
        (((childrenOf o (some b.name)).flatMap
            fun c => blockLines colors o nodes fuel (level + 1) c) ++
          (membersOf o nodes b.name).map
            (fun n => indentBy level ++ indent ++ nodeLine colors n) ++
          [indentBy level ++ "end".toList])
    else []

def allBlockLines (colors : Bool) (o : Outline) (nodes : List Node) : List Text :=
  (childrenOf o none).flatMap fun b => blockLines colors o nodes (o.blocks.length + 1) 1 b

def looseNodeLines (colors : Bool) (o : Outline) (nodes : List Node) : List Text :=
  (nodes.filter fun n => (o.place? n.id).isNone).map fun n => indent ++ nodeLine colors n

/-- The style classes, after an empty line. -/
def styleLines (styles : List StyleClass) : Except Fault (List Text) := do
  let ls ← styles.mapM styleLine
  return if ls = [] then [] else [] :: ls

def flowchartLines (g : Graph) (direction : Text) (colors : Bool) (blocks : List Block) :
    Except Fault (List Text) := do
  let styles ← if colors then styleLines g.styles else .ok []
  let o := Outline.of g.nodes blocks
  return ("flowchart ".toList ++ direction) ::
    (allBlockLines colors o g.nodes ++ looseNodeLines colors o g.nodes ++
      g.edges.map edgeLine ++ styles)

/-! ## Class and sequence diagrams -/

/-- The brackets that a class diagram has a meaning for. -/
def classBrackets : Text := "[]\x7b\x7d()".toList

/-- A label in a class diagram: without brackets, and with single quotes. -/
def classLabel (s : Text) : Text :=
  strip ((s.filter fun c => !classBrackets.contains c).map fun c => if c = '"' then '\'' else c)

def classLine (n : Node) : Text :=
  let label := classLabel n.label
  indent ++ "class ".toList ++ n.id ++
    (if label = [] then [] else "[\"".toList ++ label ++ "\"]".toList)

/-- The lines of a class diagram. Every arrow is an inheritance. -/
def classLines (g : Graph) : List Text :=
  DiagramType.classDiagram.name ::
    (g.nodes.map classLine ++
      g.edges.map fun e => indent ++ e.source ++ " <|-- ".toList ++ e.target)

/-- The lines of a sequence diagram: one message for each arrow. -/
def sequenceLines (g : Graph) : List Text :=
  DiagramType.sequenceDiagram.name ::
    g.edges.map fun e => indent ++ e.source ++ "->>".toList ++ e.target ++ ": ".toList ++ e.label

/-! ## Conversion -/

/-- The direction of a flowchart, in upper case. -/
def readDirection : Json → Except Fault Text
  | .str s =>
    let d := upper s
    if d ∈ directions then .ok d else .error (.unsupportedDirection d)
  | _ => .error .noSuchMember

/-- Writes a graph. Only flowcharts have a direction and show the blocks. -/
def writeGraph (g : Graph) (options : WriteOptions) (blocks : List Block) : Except Fault Text := do
  match ← DiagramType.ofJson options.diagramType with
  | .flowchart =>
    let direction ← readDirection options.direction
    return joinLines (← flowchartLines g direction options.includeColors blocks)
  | .classDiagram => return joinLines (classLines g)
  | .sequenceDiagram => return joinLines (sequenceLines g)

structure ConvertOptions extends WriteOptions where
  includeGroups : Bool := false
  groupLabels : Dictionary Text := []

def convertScene (scene : List Element) (options : ConvertOptions) : Except Fault Text := do
  let g ← readGraph scene options.groupLabels
  writeGraph g options.toWriteOptions (if options.includeGroups then g.blocks else [])

end Drawbridge
