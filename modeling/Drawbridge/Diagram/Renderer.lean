import Drawbridge.Diagram.ClassReader
import Drawbridge.Diagram.FlowchartReader
import Drawbridge.Diagram.Layout
import Drawbridge.Diagram.SequenceReader
import Drawbridge.Markup.Fence

/-!
Rendering diagram text as a scene. Blank lines and comments do not count; the first word of the
first line that is left tells the kind of diagram.
-/

namespace Drawbridge

/-- The lines of a diagram, trimmed, without blank lines and comments. -/
def diagramLines (s : Text) : List Text :=
  ((lines s).map strip).filter fun l => l ≠ [] && !"%%".toList.isPrefixOf l

def readDiagram (s : Text) : Except Rejection Draft :=
  match diagramLines (prepareForRendering s) with
  | [] => .error .empty
  | header :: ls =>
    let keyword := (words header).headD []
    if keyword = "flowchart".toList || keyword = "graph".toList then FlowchartReader.read ls
    else if keyword = "classDiagram".toList then ClassReader.read ls
    else if keyword = "sequenceDiagram".toList then SequenceReader.read ls
    else .error (.unsupported keyword header)

def renderDiagram (s : Text) : Except Rejection Rendering :=
  (readDiagram s).map Layout.render

end Drawbridge
