import Drawbridge.Diagram.Renderer
import Drawbridge.Diagram.Writer
import Drawbridge.Failure

/-!
The canvas: the editable scene behind one diagram. A new scene is taken over only after the
renderer has accepted its text; whatever fails, the canvas stays as it was.
-/

namespace Drawbridge

/-- The diagram text that was loaded last, and the scene as it is now. -/
structure Canvas where
  code : Text := []
  elements : List Element := []
  files : Dictionary Json := []
  groupLabels : Dictionary Text := []

/-- A renderer: lays out diagram text or fails. -/
abbrev Renderer := Text → Except Failure Rendering

def standardRenderer : Renderer := fun s =>
  (renderDiagram s).mapError .rejected

namespace Canvas

def clear (_ : Canvas) : Canvas := {}

def rejection (prepared : Text) : Failure → Rejection
  | .rejected r => r
  | e => .other (e.describe "Rendering failed".toList) prepared

/-- Loads a diagram. A text with nothing to render clears the canvas. -/
def load (renderer : Renderer) (c : Canvas) (code : Text) : Except Rejection Rendering × Canvas :=
  let prepared := prepareForRendering code
  if prepared = [] then (.ok {}, c.clear)
  else
    match renderer prepared with
    | .error e => (.error (rejection prepared e), c)
    | .ok r =>
      (.ok r, { code, elements := r.elements, files := r.files, groupLabels := r.groupLabels })

/-- An element as it is handed over: read already, or as the editor stores it. -/
inductive Handed where
  | element (e : Element)
  | stored (j : Json)

def Handed.read : Handed → Except Fault Element
  | element e => .ok e
  | stored j => Element.ofJson j

/-- Takes over elements that are handed over one by one, if all of them can be read. -/
def takeOver (c : Canvas) (elements : List Handed) : Except Fault Unit × Canvas :=
  match elements.mapM Handed.read with
  | .error f => (.error f, c)
  | .ok es => (.ok (), { c with elements := es })

/-- Takes over the scene after an edit. -/
def replaceElements (c : Canvas) (elements : Json) : Except Fault Unit × Canvas :=
  match Element.listOfJson elements with
  | .error f => (.error f, c)
  | .ok es => (.ok (), { c with elements := es })

/-- Writes the scene as diagram text, under the titles of the diagram that was loaded. -/
def toText (c : Canvas) (options : WriteOptions) (includeGroups : Bool) : Except Fault Text :=
  convertScene c.elements { options with includeGroups, groupLabels := c.groupLabels }

end Canvas

end Drawbridge
