import Drawbridge.Fault

/-!
Elements of a scene, as the editor stores them. `Element.ofJson` reads one: it is lenient, in that
missing fields have defaults and identifiers may be any value, and refuses only what has no reading.
`Element.toJson` writes one for the editor. Text, colours and container are kept as they were given.
-/

namespace Drawbridge

/-- A reference from a shape or arrow to what is attached to it. -/
structure BoundElement where
  id : Text
  type : Text
  deriving DecidableEq, Repr

structure Element where
  id : Text
  /-- `rectangle`, `ellipse`, `diamond`, `text`, `arrow`, or any other word. -/
  type : Text
  text : Json := .str []
  fill : Json := .null
  stroke : Json := .null
  /-- The groups of the element, innermost first. -/
  groupIds : List Text := []
  boundElements : List BoundElement := []
  containerId : Json := .null
  /-- The element an arrow starts on. -/
  startId : Option Text := none
  /-- The element an arrow ends on. -/
  endId : Option Text := none
  isDeleted : Bool := false
  x : Float := 0.0
  y : Float := 0.0
  width : Float := 0.0
  height : Float := 0.0
  points : List (List Json) := []

/-- The stroke of an element without one. -/
def defaultStroke : Text := "#1e1e1e".toList

/-- The fill of a shape without one, where a colour has to be named. -/
def defaultFill : Text := "white".toList

/-- The fill of an element without one, where the editor has to be told. -/
def transparent : Text := "transparent".toList

/-- The shapes that become nodes. -/
inductive Shape where
  | box
  | ellipse
  | diamond
  deriving DecidableEq, Repr

namespace Shape

def name : Shape → Text
  | box => "rectangle".toList
  | ellipse => "ellipse".toList
  | diamond => "diamond".toList

def ofName? (s : Text) : Option Shape :=
  [box, ellipse, diamond].find? fun k => k.name = s

end Shape

namespace Element

def shape? (e : Element) : Option Shape :=
  Shape.ofName? e.type

def isShape (e : Element) : Bool :=
  e.shape?.isSome

def isText (e : Element) : Bool :=
  e.type = "text".toList

def isArrow (e : Element) : Bool :=
  e.type = "arrow".toList

/-- The first text attached to an element. -/
def boundTextId? (e : Element) : Option Text :=
  (e.boundElements.find? fun b => b.type = "text".toList).map (·.id)

/-! ## Reading -/

/-- A field as text, whatever its kind; empty if it is missing. -/
def displayField (j : Json) (key : String) : Text :=
  match j.field? key.toList with
  | some v => v.display
  | none => []

/-- The attached element that an entry describes, if the entry is an object with an identifier. -/
def readBound (j : Json) : Option BoundElement :=
  let id := j.fieldOrNull "id".toList
  if id.isTruthy then some ⟨id.display, displayField j "type"⟩ else none

def readBinding (j : Json) : Option Text :=
  let target := j.fieldOrNull "elementId".toList
  if target.isTruthy then some target.display else none

/-- A coordinate: a number, or a text that reads as one; absent means zero. -/
def readCoordinate (j : Json) : Except Fault Float :=
  if j.isTruthy then
    match j with
    | .float x => .ok x
    | .bool _ => .ok 1.0
    | .int n =>
      match Binary64.ofInt? n with
      | some x => .ok x
      | none => .error .tooLarge
    | .str s => (readFloat s).mapError .badNumber
    | _ => .error .wrongKind
  else .ok 0.0

def ofJson (j : Json) : Except Fault Element := do
  if !j.isObject then .error .noSuchMember
  let get (key : String) : Json := j.fieldOrNull key.toList
  let bound ← (get "boundElements").optionalItems
  let groups ← (get "groupIds").optionalItems
  let x ← readCoordinate (get "x")
  let y ← readCoordinate (get "y")
  let width ← readCoordinate (get "width")
  let height ← readCoordinate (get "height")
  let points ← (get "points").optionalItems
  let points ← points.mapM Json.items
  return {
    id := displayField j "id"
    type := displayField j "type"
    text := (get "text").orElse (.str [])
    fill := get "backgroundColor"
    stroke := get "strokeColor"
    groupIds := groups.map Json.display
    boundElements := bound.filterMap readBound
    containerId := get "containerId"
    startId := readBinding (get "startBinding")
    endId := readBinding (get "endBinding")
    isDeleted := (get "isDeleted").isTruthy
    x, y, width, height, points }

def listOfJson (j : Json) : Except Fault (List Element) := do
  (← j.items).mapM ofJson

/-! ## Writing -/

def boundToJson (b : BoundElement) : Json :=
  .obj [("id".toList, .str b.id), ("type".toList, .str b.type)]

def bindingToJson : Option Text → Json
  | some (c :: id) => .obj [("elementId".toList, .str (c :: id))]
  | _ => .null

def commonFields (e : Element) : List (Text × Json) :=
  [("id".toList, .str e.id), ("type".toList, .str e.type), ("x".toList, .float e.x),
    ("y".toList, .float e.y), ("width".toList, .float e.width), ("height".toList, .float e.height),
    ("strokeColor".toList, e.stroke.orElse (.str defaultStroke)),
    ("backgroundColor".toList, e.fill.orElse (.str transparent)),
    ("groupIds".toList, .arr (e.groupIds.map .str)),
    ("boundElements".toList,
      if e.boundElements = [] then .null else .arr (e.boundElements.map boundToJson)),
    ("isDeleted".toList, .bool e.isDeleted)]

def textFields (e : Element) : List (Text × Json) :=
  [("text".toList, e.text), ("originalText".toList, e.text), ("containerId".toList, e.containerId)]

def arrowFields (e : Element) : List (Text × Json) :=
  [("points".toList, .arr (e.points.map .arr)), ("startBinding".toList, bindingToJson e.startId),
    ("endBinding".toList, bindingToJson e.endId)]

def toJson (e : Element) : Json :=
  .obj (e.commonFields ++ (if e.isText then e.textFields else []) ++
    (if e.isArrow then e.arrowFields else []))

end Element

end Drawbridge
