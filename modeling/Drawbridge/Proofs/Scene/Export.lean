import Drawbridge.Diagram.Writer
import Drawbridge.Proofs.Graph.Reading
import Drawbridge.Proofs.Json.Display

/-!
Storing a scene for the editor and reading it again. What is written of an element depends on its
kind, and fields that are absent are written with a default. An element comes back as
`Element.reread` (`Element.ofJson_toJson`), with the same texts, bindings and groups. A shape without
a fill comes back transparent, although its node was white.

* `graphRead_alike`: the graph is the same apart from fills and style classes;
* `Graph.Alike.writeGraph_eq`: so is every text that shows no colours;
* `stored_scene_restored`: colours are the same just if every shape has a fill;
* `stored_scene_recoloured`: a scene that comes back in another colour.
-/

namespace Drawbridge

namespace Element

/-- What holds of an element that has been read: what it refers to has an identifier. -/
structure Referring (e : Element) : Prop where
  bound : ∀ b ∈ e.boundElements, b.id ≠ []
  start : e.startId ≠ some []
  stop : e.endId ≠ some []

theorem readBound_id {j : Json} {b : BoundElement} (h : readBound j = some b) : b.id ≠ [] := by
  unfold readBound at h
  dsimp only at h
  split at h
  · rename_i present
    cases h
    exact Json.display_ne_nil present
  · cases h

theorem readBinding_ne (j : Json) : readBinding j ≠ some [] := by
  intro h
  unfold readBinding at h
  dsimp only at h
  split at h
  · rename_i present
    exact Json.display_ne_nil present (Option.some.inj h)
  · cases h

/-- What an element has of the fields it was read from. -/
structure TakenFrom (j : Json) (e : Element) : Prop where
  referring : e.Referring
  text : e.text = (j.fieldOrNull "text".toList).orElse (.str [])
  fill : e.fill = j.fieldOrNull "backgroundColor".toList
  stroke : e.stroke = j.fieldOrNull "strokeColor".toList
  container : e.containerId = j.fieldOrNull "containerId".toList

/-- An element that is read has the fields that it was given, apart from those that are lists or
numbers. -/
theorem exists_of_ofJson {j : Json} {e : Element} (h : ofJson j = .ok e) :
    ∃ (bound : List Json) (groups : List Text) (x y width height : Float)
      (points : List (List Json)), e =
      { id := displayField j "id"
        type := displayField j "type"
        text := (j.fieldOrNull "text".toList).orElse (.str [])
        fill := j.fieldOrNull "backgroundColor".toList
        stroke := j.fieldOrNull "strokeColor".toList
        groupIds := groups
        boundElements := bound.filterMap readBound
        containerId := j.fieldOrNull "containerId".toList
        startId := readBinding (j.fieldOrNull "startBinding".toList)
        endId := readBinding (j.fieldOrNull "endBinding".toList)
        isDeleted := (j.fieldOrNull "isDeleted".toList).isTruthy
        x, y, width, height, points } := by
  unfold ofJson at h
  split at h
  · cases h
  obtain ⟨bound, -, h⟩ := ok_of_bind h
  obtain ⟨groups, -, h⟩ := ok_of_bind h
  obtain ⟨x, -, h⟩ := ok_of_bind h
  obtain ⟨y, -, h⟩ := ok_of_bind h
  obtain ⟨width, -, h⟩ := ok_of_bind h
  obtain ⟨height, -, h⟩ := ok_of_bind h
  obtain ⟨points, -, h⟩ := ok_of_bind h
  obtain ⟨rows, -, h⟩ := ok_of_bind h
  cases h
  exact ⟨bound, groups.map Json.display, x, y, width, height, rows, rfl⟩

theorem takenFrom_of_ofJson {j : Json} {e : Element} (h : ofJson j = .ok e) : TakenFrom j e := by
  obtain ⟨bound, groups, x, y, width, height, points, rfl⟩ := exists_of_ofJson h
  refine ⟨⟨?_, readBinding_ne _, readBinding_ne _⟩, rfl, rfl, rfl, rfl⟩
  intro b hb
  obtain ⟨entry, -, read⟩ := List.mem_filterMap.mp hb
  exact readBound_id read

def coordinate (x : Float) : Float :=
  if (Json.float x).isTruthy then x else 0.0

def reread (e : Element) : Element where
  id := e.id
  type := e.type
  text := if e.isText then e.text.orElse (.str []) else .str []
  fill := e.fill.orElse (.str transparent)
  stroke := e.stroke.orElse (.str defaultStroke)
  groupIds := e.groupIds
  boundElements := e.boundElements
  containerId := if e.isText then e.containerId else .null
  startId := if e.isArrow then e.startId else none
  endId := if e.isArrow then e.endId else none
  isDeleted := e.isDeleted
  x := coordinate e.x
  y := coordinate e.y
  width := coordinate e.width
  height := coordinate e.height
  points := if e.isArrow then e.points else []

theorem readBinding_bindingToJson {id : Option Text} (h : id ≠ some []) :
    readBinding (bindingToJson id) = id := by
  match id, h with
  | none, _ => rfl
  | some [], h => exact (h rfl).elim
  | some (c :: id), _ => rfl

theorem readCoordinate_float (x : Float) : readCoordinate (.float x) = .ok (coordinate x) := by
  unfold readCoordinate coordinate
  split <;> rfl

theorem filterMap_readBound {bs : List BoundElement} (h : ∀ b ∈ bs, b.id ≠ []) :
    (bs.map boundToJson).filterMap readBound = bs := by
  have back : ∀ b ∈ bs, (readBound ∘ boundToJson) b = some b := by
    rintro ⟨id, type⟩ hb
    obtain ⟨c, id, rfl⟩ := List.exists_cons_of_ne_nil (h _ hb)
    rfl
  rw [List.filterMap_map, List.filterMap_congr back, List.filterMap_some]

theorem map_display_str (ss : List Text) : (ss.map Json.str).map Json.display = ss := by
  rw [List.map_map]
  exact List.map_id ss

/-- How an element is read whose first fields are those that every element has. -/
theorem ofJson_commonFields {e : Element} (bound : ∀ b ∈ e.boundElements, b.id ≠ [])
    (own : List (Text × Json)) :
    ofJson (.obj (e.commonFields ++ own)) = do
      let points ← ((Json.obj own).fieldOrNull "points".toList).optionalItems
      let points ← points.mapM Json.items
      return { e.reread with
        text := ((Json.obj own).fieldOrNull "text".toList).orElse (.str [])
        containerId := (Json.obj own).fieldOrNull "containerId".toList
        startId := readBinding ((Json.obj own).fieldOrNull "startBinding".toList)
        endId := readBinding ((Json.obj own).fieldOrNull "endBinding".toList)
        points } := by
  have boundItems : ((if e.boundElements = [] then Json.null
      else .arr (e.boundElements.map boundToJson)).optionalItems) =
      .ok (e.boundElements.map boundToJson) := by
    cases e.boundElements <;> rfl
  have groupItems : (Json.arr (e.groupIds.map .str)).optionalItems =
      .ok (e.groupIds.map .str) := by
    cases e.groupIds <;> rfl
  show ((if e.boundElements = [] then Json.null
    else .arr (e.boundElements.map boundToJson)).optionalItems >>= _) = _
  rw [boundItems]
  show ((Json.arr (e.groupIds.map .str)).optionalItems >>= _) = _
  rw [groupItems]
  show (readCoordinate (.float e.x) >>= fun x => readCoordinate (.float e.y) >>= fun y =>
    readCoordinate (.float e.width) >>= fun width => readCoordinate (.float e.height) >>= _) = _
  rw [readCoordinate_float, readCoordinate_float, readCoordinate_float, readCoordinate_float]
  rw [filterMap_readBound bound, map_display_str]
  rfl

theorem not_isArrow_of_isText {e : Element} (h : e.isText = true) : e.isArrow = false := by
  have text : e.type = "text".toList := of_decide_eq_true h
  rw [isArrow, text]
  decide

/-- **What is stored of an element is read again.** -/
theorem ofJson_toJson {e : Element} (h : e.Referring) : ofJson e.toJson = .ok e.reread := by
  -- Fields of another kind are not written, and read as absent.
  rw [toJson, List.append_assoc, ofJson_commonFields h.bound]
  by_cases text : e.isText = true
  · simp only [reread, text, not_isArrow_of_isText text, if_true, if_false, Bool.false_eq_true,
      List.append_nil]
    rfl
  · by_cases arrow : e.isArrow = true
    · have points : (Json.arr (e.points.map .arr)).optionalItems = .ok (e.points.map .arr) := by
        cases e.points <;> rfl
      have rows : (e.points.map Json.arr).mapM Json.items = .ok e.points := by
        have each : ∀ row ∈ e.points, (Json.items ∘ Json.arr) row = .ok row := fun _ _ => rfl
        rw [List.mapM_map, mapM_ok each, List.map_id']
      simp only [reread, text, arrow, if_true]
      show ((Json.arr (e.points.map .arr)).optionalItems >>= _) = _
      rw [points]
      show ((e.points.map Json.arr).mapM Json.items >>= _) = _
      rw [rows]
      show Except.ok (Element.mk _ _ _ _ _ _ _ _ (readBinding (bindingToJson e.startId))
        (readBinding (bindingToJson e.endId)) _ _ _ _ _ _) = _
      rw [readBinding_bindingToJson h.start, readBinding_bindingToJson h.stop]
      rfl
    · simp only [reread, text, arrow]
      rfl

/-- So is what is stored of a scene. -/
theorem mapM_ofJson_toJson {scene : List Element} (h : ∀ e ∈ scene, e.Referring) :
    (scene.map toJson).mapM ofJson = .ok (scene.map reread) := by
  rw [List.mapM_map]
  exact mapM_ok fun e he => ofJson_toJson (h e he)

end Element

/-! ## Texts and arrows -/

theorem liveElements_map_reread (scene : List Element) :
    liveElements (scene.map Element.reread) = (liveElements scene).map Element.reread :=
  List.filter_map

theorem textItem_reread {e : Element} (h : e.isText = true) : textItem e.reread = textItem e := by
  have text : (e.text.orElse (.str [])).text?.getD [] = e.text.text?.getD [] := by
    unfold Json.orElse
    split
    · rfl
    · rename_i absent
      rw [text?_of_not_truthy (Bool.eq_false_iff.mpr absent)]
      rfl
  simp only [textItem, Element.reread, h, if_true, text]

theorem sceneTexts_reread (scene : List Element) :
    sceneTexts (scene.map Element.reread) = sceneTexts scene := by
  have kept : Element.isText ∘ Element.reread = Element.isText := rfl
  rw [sceneTexts, liveElements_map_reread, List.filter_map, List.map_map, kept]
  apply List.map_congr_left
  intro e he
  exact textItem_reread (List.mem_filter.mp he).2

theorem labelFor_reread (texts : List TextItem) (e : Element) :
    labelFor texts e.reread = labelFor texts e := (rfl)

theorem readEdge?_reread (ids : List Text) (texts : List TextItem) {e : Element}
    (h : e.isArrow = true) : readEdge? ids texts e.reread = readEdge? ids texts e := by
  have start : e.reread.startId = e.startId := if_pos h
  have stop : e.reread.endId = e.endId := if_pos h
  simp only [readEdge?, labelFor_reread, start, stop]

/-! ## Shapes -/

theorem orElse_orElse (j : Json) {c : Char} {s : Text} (k : Json) :
    (j.orElse (.str (c :: s))).orElse k = j.orElse (.str (c :: s)) := by
  by_cases present : j.isTruthy = true
  · have first : j.orElse (.str (c :: s)) = j := if_pos present
    rw [first]
    exact if_pos present
  · have second : j.orElse (.str (c :: s)) = .str (c :: s) := if_neg present
    rw [second]
    rfl

/-- A shape as it is read again: a fill that is absent has become transparent. -/
def ShapeItem.reread (i : ShapeItem) : ShapeItem :=
  { i with element := i.element.reread, fill := i.element.fill.orElse (.str transparent) }

theorem shapeItem?_reread (e : Element) :
    shapeItem? e.reread = (shapeItem? e).map ShapeItem.reread := by
  have fill : e.reread.fill.orElse (.str defaultFill) = e.fill.orElse (.str transparent) :=
    orElse_orElse e.fill _
  have stroke : e.reread.stroke.orElse (.str defaultStroke) = e.stroke.orElse (.str defaultStroke) :=
    orElse_orElse e.stroke _
  have kind : e.reread.shape? = e.shape? := rfl
  rw [shapeItem?, shapeItem?, fill, stroke, kind, Option.map_map]
  rfl

theorem sceneShapes_reread (scene : List Element) :
    sceneShapes (scene.map Element.reread) = (sceneShapes scene).map ShapeItem.reread := by
  have each : shapeItem? ∘ Element.reread = Option.map ShapeItem.reread ∘ shapeItem? :=
    funext shapeItem?_reread
  rw [sceneShapes, sceneShapes, liveElements_map_reread, List.filterMap_map, each,
    List.map_filterMap]
  rfl

/-- A node apart from its fill and its style class. -/
def Node.unfilled (n : Node) : Node :=
  { n with fill := .null, styleClass := [] }

/-- Two readings that differ in fills and style classes only. -/
structure ReadState.Alike (st st' : ReadState) : Prop where
  ids : st'.ids = st.ids
  blocks : st'.blocks = st.blocks
  nodes : st'.nodes.map Node.unfilled = st.nodes.map Node.unfilled

section Shapes

variable (labels : Dictionary Text) (texts : List TextItem)

theorem ReadState.Alike.addShape {st st' : ReadState} (h : st.Alike st') (i : ShapeItem) :
    (st.addShape labels texts i).Alike (st'.addShape labels texts i.reread) := by
  unfold ReadState.addShape
  have id : i.reread.element.id = i.element.id := rfl
  have groups : i.reread.element.groupIds = i.element.groupIds := rfl
  dsimp only
  rw [h.ids, h.blocks, id, groups]
  refine ⟨rfl, rfl, ?_⟩
  rw [List.map_append, List.map_append, h.nodes]
  rfl

theorem ReadState.Alike.foldl_addShape {st st' : ReadState} (h : st.Alike st')
    (items : List ShapeItem) :
    (items.foldl (ReadState.addShape labels texts) st).Alike
      ((items.map ShapeItem.reread).foldl (ReadState.addShape labels texts) st') := by
  induction items generalizing st st' with
  | nil => exact h
  | cons i items ih => exact ih (h.addShape labels texts i)

/-- Nodes have the fills of their shapes. -/
theorem foldl_addShape_fills (items : List ShapeItem) (st : ReadState) :
    (items.foldl (ReadState.addShape labels texts) st).nodes.map (·.fill) =
      st.nodes.map (·.fill) ++ items.map (·.fill) := by
  induction items generalizing st with
  | nil => exact (List.append_nil _).symm
  | cons i items ih =>
    have first : (st.addShape labels texts i).nodes.map (·.fill) =
        st.nodes.map (·.fill) ++ [i.fill] := List.map_append
    rw [List.foldl_cons, ih, first, List.append_assoc]
    rfl

theorem addShape_reread {i : ShapeItem} (same : i.reread.fill = i.fill) (st : ReadState) :
    st.addShape labels texts i.reread = st.addShape labels texts i := by
  unfold ReadState.addShape
  dsimp only
  rw [same]
  rfl

end Shapes

/-! ## Scenes that can be read -/

theorem IsKey.orElse_str {j : Json} (h : IsKey j) (s : Text) : IsKey (j.orElse (.str s)) := by
  unfold Json.orElse
  split
  · exact h
  · exact (holdsText_str s).isKey

/-- The fields that an element keeps as they were given hold texts. -/
structure HasTextFields (j : Json) : Prop where
  text : HoldsText (j.fieldOrNull "text".toList)
  fill : HoldsText (j.fieldOrNull "backgroundColor".toList)
  stroke : HoldsText (j.fieldOrNull "strokeColor".toList)
  container : HoldsText (j.fieldOrNull "containerId".toList)

/-- A scene whose fields hold texts can be read. -/
theorem readable_of_textFields {js : List Json} {scene : List Element}
    (accepted : js.mapM Element.ofJson = .ok scene) (fields : ∀ j ∈ js, HasTextFields j) :
    Readable scene := by
  have taken : ∀ e ∈ liveElements scene, ∃ j, HasTextFields j ∧ Element.TakenFrom j e := by
    intro e he
    obtain ⟨j, hj, read⟩ := mem_of_mapM_ok accepted e (List.mem_filter.mp he).1
    exact ⟨j, fields j hj, Element.takenFrom_of_ofJson read⟩
  constructor
  · intro e he _
    obtain ⟨j, h, t⟩ := taken e he
    exact ⟨t.text ▸ h.text.orElse (holdsText_str []), t.container ▸ h.container.isKey⟩
  · intro e he _
    obtain ⟨j, h, t⟩ := taken e he
    exact ⟨t.fill ▸ h.fill.isKey, t.stroke ▸ h.stroke.isKey⟩

theorem Readable.reread {scene : List Element} (h : Readable scene) :
    Readable (scene.map Element.reread) := by
  constructor
  · intro e' he' text
    rw [liveElements_map_reread] at he'
    obtain ⟨e, he, rfl⟩ := List.mem_map.mp he'
    have same : e.isText = true := text
    obtain ⟨content, container⟩ := h.texts e he same
    constructor
    · rw [show e.reread.text = e.text.orElse (.str []) from if_pos same]
      exact HoldsText.orElse content (holdsText_str [])
    · rw [show e.reread.containerId = e.containerId from if_pos same]
      exact container
  · intro e' he' shape
    rw [liveElements_map_reread] at he'
    obtain ⟨e, he, rfl⟩ := List.mem_map.mp he'
    obtain ⟨fill, stroke⟩ := h.colours e he shape
    exact ⟨fill.orElse_str transparent, stroke.orElse_str defaultStroke⟩

/-! ## Graphs -/

/-- Two graphs that differ in fills and style classes only. -/
structure Graph.Alike (g g' : Graph) : Prop where
  nodes : g'.nodes.map Node.unfilled = g.nodes.map Node.unfilled
  edges : g'.edges = g.edges
  blocks : g'.blocks = g.blocks

def Filled (scene : List Element) : Prop :=
  ∀ e ∈ liveElements scene, e.isShape = true → e.fill.isTruthy = true

instance (scene : List Element) : Decidable (Filled scene) :=
  inferInstanceAs (Decidable (∀ e ∈ liveElements scene, e.isShape = true → e.fill.isTruthy = true))

/-- The fills of the shapes of a scene, where one without a fill has the default. -/
def fillsOf (default : Text) (scene : List Element) : List Json :=
  ((liveElements scene).filter Element.isShape).map fun e => e.fill.orElse (.str default)

section Stored

variable (labels : Dictionary Text) (scene : List Element)

theorem shapesRead_alike :
    (shapesRead labels scene).Alike (shapesRead labels (scene.map Element.reread)) := by
  have start : ReadState.Alike {} {} := ⟨rfl, rfl, rfl⟩
  rw [shapesRead, shapesRead, sceneShapes_reread, sceneTexts_reread]
  exact start.foldl_addShape labels (sceneTexts scene) (sceneShapes scene)

theorem graphRead_alike :
    (graphRead labels scene).Alike (graphRead labels (scene.map Element.reread)) := by
  obtain ⟨ids, blocks, nodes⟩ := shapesRead_alike labels scene
  have kept : Element.isArrow ∘ Element.reread = Element.isArrow := rfl
  refine ⟨nodes, ?_, blocks⟩
  show List.filterMap _ _ = List.filterMap _ _
  rw [ids, sceneTexts_reread, liveElements_map_reread, List.filter_map, kept, List.filterMap_map]
  apply List.filterMap_congr
  intro e he
  exact readEdge?_reread _ _ (List.mem_filter.mp he).2

theorem graphRead_fills :
    (graphRead labels scene).nodes.map (·.fill) = fillsOf defaultFill scene := by
  have fills : (sceneShapes scene).map (·.fill) = fillsOf defaultFill scene := by
    rw [fillsOf, ← filterMap_shapeItem?]
    exact List.map_congr_left fun i hi => (mem_sceneShapes hi).2.2.1
  rw [← fills]
  exact foldl_addShape_fills labels (sceneTexts scene) (sceneShapes scene) {}

theorem graphRead_reread_fills :
    (graphRead labels (scene.map Element.reread)).nodes.map (·.fill) = fillsOf transparent scene := by
  have kept : Element.isShape ∘ Element.reread = Element.isShape := rfl
  rw [graphRead_fills, fillsOf, liveElements_map_reread, List.filter_map, List.map_map, kept]
  exact List.map_congr_left fun e _ => orElse_orElse e.fill _

/-- Where every shape has a fill, nothing has changed. -/
theorem graphRead_reread_of_filled (filled : Filled scene) :
    graphRead labels (scene.map Element.reread) = graphRead labels scene := by
  -- Style classes go by the fills in order, so the shapes have to be read in step.
  have shapes : shapesRead labels (scene.map Element.reread) = shapesRead labels scene := by
    rw [shapesRead, shapesRead, sceneShapes_reread, sceneTexts_reread, List.foldl_map]
    apply List.foldl_ext
    intro st i hi
    obtain ⟨live, shape, fill, -⟩ := mem_sceneShapes hi
    have present := filled i.element live shape
    apply addShape_reread
    show i.element.fill.orElse (.str transparent) = i.fill
    rw [fill, Json.orElse, Json.orElse, if_pos present, if_pos present]
  obtain ⟨-, edges, -⟩ := graphRead_alike labels scene
  calc graphRead labels (scene.map Element.reread)
    _ = { nodes := (shapesRead labels (scene.map Element.reread)).nodes
          edges := (graphRead labels (scene.map Element.reread)).edges
          blocks := (shapesRead labels (scene.map Element.reread)).blocks
          styles := (shapesRead labels (scene.map Element.reread)).styles } := rfl
    _ = graphRead labels scene := by
      rw [edges, shapes]
      rfl

/-- A shape without a fill is white before and transparent after. -/
theorem filled_of_fillsOf_eq (same : fillsOf transparent scene = fillsOf defaultFill scene) :
    Filled scene := by
  intro e live shape
  have each := List.map_inj_left.mp same e (List.mem_filter.mpr ⟨live, shape⟩)
  by_contra absent
  rw [Json.orElse, Json.orElse, if_neg absent, if_neg absent] at each
  exact absurd (Json.str.inj each) (by decide)

theorem graphRead_reread_eq_iff :
    graphRead labels (scene.map Element.reread) = graphRead labels scene ↔ Filled scene := by
  constructor
  · intro same
    apply filled_of_fillsOf_eq
    rw [← graphRead_reread_fills labels, ← graphRead_fills labels, same]
  · exact graphRead_reread_of_filled labels scene

end Stored

/-! ## Texts without colours -/

theorem outline_map_unfilled (nodes : List Node) (blocks : List Block) :
    Outline.of (nodes.map Node.unfilled) blocks = Outline.of nodes blocks := by
  have ids : (nodes.map Node.unfilled).map (·.id) = nodes.map (·.id) := List.map_map
  rw [Outline.of, ids]
  rfl

section Uncoloured

variable (o : Outline) (nodes : List Node)

theorem membersOf_map_unfilled (name : Text) :
    membersOf o (nodes.map Node.unfilled) name = (membersOf o nodes name).map Node.unfilled :=
  List.filter_map

theorem occupied_map_unfilled (fuel : Nat) (name : Text) :
    occupied o (nodes.map Node.unfilled) fuel name = occupied o nodes fuel name := by
  induction fuel generalizing name with
  | zero => rw [occupied, occupied, membersOf_map_unfilled, List.isEmpty_map]
  | succ fuel ih =>
    simp only [occupied, membersOf_map_unfilled, List.isEmpty_map, ih]

theorem blockLines_map_unfilled (fuel level : Nat) (b : Block) :
    blockLines false o (nodes.map Node.unfilled) fuel level b =
      blockLines false o nodes fuel level b := by
  induction fuel generalizing level b with
  | zero => rfl
  | succ fuel ih =>
    simp only [blockLines, occupied_map_unfilled, membersOf_map_unfilled, ih, List.map_map]
    rfl

theorem allBlockLines_map_unfilled :
    allBlockLines false o (nodes.map Node.unfilled) = allBlockLines false o nodes := by
  simp only [allBlockLines, blockLines_map_unfilled]

theorem looseNodeLines_map_unfilled :
    looseNodeLines false o (nodes.map Node.unfilled) = looseNodeLines false o nodes := by
  rw [looseNodeLines, List.filter_map, List.map_map]
  rfl

end Uncoloured

/-- Lines without colours go by what nodes have apart from fills and style classes. -/
theorem flowchartLines_unfilled (g : Graph) (direction : Text) (blocks : List Block) :
    flowchartLines g direction false blocks =
      flowchartLines { nodes := g.nodes.map Node.unfilled, edges := g.edges } direction false
        blocks := by
  show _ = Except.ok (_ :: (allBlockLines false (Outline.of (g.nodes.map Node.unfilled) blocks)
    (g.nodes.map Node.unfilled) ++ looseNodeLines false _ (g.nodes.map Node.unfilled) ++
      g.edges.map edgeLine ++ []))
  rw [outline_map_unfilled, allBlockLines_map_unfilled, looseNodeLines_map_unfilled]
  rfl

/-- What is written shows colours: a flowchart that was not asked to leave them out. -/
def WriteOptions.ShowsColours (options : WriteOptions) : Prop :=
  options.includeColors = true ∧ DiagramType.ofJson options.diagramType = .ok .flowchart

theorem classLines_unfilled (g : Graph) :
    classLines g = classLines { nodes := g.nodes.map Node.unfilled, edges := g.edges } := by
  have declared : (g.nodes.map Node.unfilled).map classLine = g.nodes.map classLine := by
    rw [List.map_map]
    exact List.map_congr_left fun n _ => rfl
  rw [classLines, classLines, declared]

/-- **Where no colours are shown, graphs that differ in colours only are written alike.** -/
theorem Graph.Alike.writeGraph_eq {g g' : Graph} (h : g.Alike g') {options : WriteOptions}
    (uncoloured : ¬ options.ShowsColours) (blocks : List Block) :
    writeGraph g' options blocks = writeGraph g options blocks := by
  unfold writeGraph
  cases kind : DiagramType.ofJson options.diagramType with
  | error e =>
    show Except.error e = Except.error e
    rfl
  | ok kind' =>
    cases kind' with
    | flowchart =>
      have colors : options.includeColors = false :=
        Bool.eq_false_iff.mpr fun colors => uncoloured ⟨colors, kind⟩
      cases readDirection options.direction with
      | error e =>
        show Except.error e = Except.error e
        rfl
      | ok direction =>
        show (flowchartLines g' direction options.includeColors blocks >>= _) =
          (flowchartLines g direction options.includeColors blocks >>= _)
        rw [colors, flowchartLines_unfilled g', flowchartLines_unfilled g, h.nodes, h.edges]
    | classDiagram =>
      show Except.ok (joinLines (classLines g')) = Except.ok (joinLines (classLines g))
      rw [classLines_unfilled g', classLines_unfilled g, h.nodes, h.edges]
    | sequenceDiagram =>
      show Except.ok (joinLines (sequenceLines g')) = Except.ok (joinLines (sequenceLines g))
      rw [sequenceLines, sequenceLines, h.edges]

/-! ## Storing a scene and reading it again -/

/-- What comes of a scene when it is stored and read again. -/
structure Restored (scene again : List Element) (labels : Dictionary Text) : Prop where
  /-- Both scenes have a graph. -/
  graphs : ∃ g g', readGraph scene labels = .ok g ∧ readGraph again labels = .ok g' ∧
    g.Alike g' ∧
    g.nodes.map (·.fill) = fillsOf defaultFill scene ∧
    g'.nodes.map (·.fill) = fillsOf transparent scene ∧
    (g' = g ↔ Filled scene)
  /-- They are written alike unless a colour that is shown has changed. -/
  texts : ∀ options : ConvertOptions, options.groupLabels = labels →
    (options.ShowsColours → Filled scene) →
      convertScene again options = convertScene scene options

/--
**A stored scene shows the diagram it showed before.** Nodes, edges and groups are the same, and so
is every text that shows no colours. Colours are the same just if every shape has a fill: the
default fill of a shape that is read is white, that of one that is stored is transparent.
-/
theorem stored_scene_restored {js : List Json} {scene : List Element}
    (accepted : js.mapM Element.ofJson = .ok scene) (fields : ∀ j ∈ js, HasTextFields j) :
    ∃ again, (scene.map Element.toJson).mapM Element.ofJson = .ok again ∧
      ∀ labels, Restored scene again labels := by
  have referring : ∀ e ∈ scene, e.Referring := by
    intro e he
    obtain ⟨j, -, read⟩ := mem_of_mapM_ok accepted e he
    exact (Element.takenFrom_of_ofJson read).referring
  have readable := readable_of_textFields accepted fields
  refine ⟨scene.map Element.reread, Element.mapM_ofJson_toJson referring, ?_⟩
  intro labels
  have before := readGraph_readable readable labels
  have after := readGraph_readable readable.reread labels
  have alike := graphRead_alike labels scene
  constructor
  · exact ⟨_, _, before, after, alike, graphRead_fills labels scene,
      graphRead_reread_fills labels scene, graphRead_reread_eq_iff labels scene⟩
  · rintro options rfl colours
    unfold convertScene
    rw [before, after]
    show writeGraph _ _ _ = writeGraph _ _ _
    rw [alike.blocks]
    by_cases shown : options.ShowsColours
    · rw [graphRead_reread_of_filled _ scene (colours shown)]
    · exact alike.writeGraph_eq shown _

/-- A labelled box in a group with an arrow to itself, as the editor may hand it over. -/
def loopElements : List Json :=
  [.obj [("id".toList, .str "s".toList), ("type".toList, .str "rectangle".toList),
      ("backgroundColor".toList, .str "#ffc9c9".toList),
      ("groupIds".toList, .arr [.str "g".toList]),
      ("boundElements".toList, .arr [.obj [("id".toList, .str "t".toList),
        ("type".toList, .str "text".toList)]])],
    .obj [("id".toList, .str "t".toList), ("type".toList, .str "text".toList),
      ("text".toList, .str " once\nmore ".toList), ("containerId".toList, .str "s".toList)],
    .obj [("id".toList, .str "e".toList), ("type".toList, .str "arrow".toList),
      ("startBinding".toList, .obj [("elementId".toList, .str "s".toList)]),
      ("endBinding".toList, .obj [("elementId".toList, .str "s".toList)])]]

def loopScene : List Element :=
  [{ id := "s".toList, type := "rectangle".toList, fill := .str "#ffc9c9".toList,
     groupIds := ["g".toList], boundElements := [⟨"t".toList, "text".toList⟩] },
    { id := "t".toList, type := "text".toList, text := .str " once\nmore ".toList,
      containerId := .str "s".toList },
    { id := "e".toList, type := "arrow".toList, startId := some "s".toList,
      endId := some "s".toList }]

/-- The box has a fill, so that the scene is written in the same colours again. -/
theorem stored_scene_restored_loopScene :
    loopElements.mapM Element.ofJson = .ok loopScene ∧
    ∃ again, (loopScene.map Element.toJson).mapM Element.ofJson = .ok again ∧
      convertScene again {} = convertScene loopScene {} ∧
      convertScene loopScene {} = .ok ("flowchart TD\n    A[once more]:::C1\n    A --> A\n\n" ++
        "    classDef C1 fill:#ffc9c9,stroke:#1e1e1e,stroke-width:2px;").toList := by
  have accepted : loopElements.mapM Element.ofJson = .ok loopScene := rfl
  have fields : ∀ j ∈ loopElements, HasTextFields j :=
    List.forall_mem_cons.mpr
      ⟨⟨holdsText_null, holdsText_str _, holdsText_null, holdsText_null⟩,
        List.forall_mem_cons.mpr
          ⟨⟨holdsText_str _, holdsText_null, holdsText_null, holdsText_str _⟩,
            List.forall_mem_singleton.mpr
              ⟨holdsText_null, holdsText_null, holdsText_null, holdsText_null⟩⟩⟩
  have filled : Filled loopScene := by decide
  obtain ⟨again, read, restored⟩ := stored_scene_restored accepted fields
  refine ⟨accepted, again, read, (restored []).texts {} rfl fun _ => filled, ?_⟩
  apply eq_ok_of_toOption
  decide +kernel

/-- A box without a fill, as the editor may hand it over. -/
def bareElement : Json :=
  .obj [("id".toList, .str "a".toList), ("type".toList, .str "rectangle".toList)]

def bareScene : List Element :=
  [{ id := "a".toList, type := "rectangle".toList }]

/-- **A scene that comes back in another colour.** The box is white before it is stored, and
transparent afterwards. -/
theorem stored_scene_recoloured :
    HasTextFields bareElement ∧ [bareElement].mapM Element.ofJson = .ok bareScene ∧
    ∃ again, (bareScene.map Element.toJson).mapM Element.ofJson = .ok again ∧
      readGraph again ≠ readGraph bareScene ∧
      convertScene bareScene {} = .ok ("flowchart TD\n    A[A]:::C1\n\n" ++
        "    classDef C1 fill:white,stroke:#1e1e1e,stroke-width:2px;").toList ∧
      convertScene again {} = .ok ("flowchart TD\n    A[A]:::C1\n\n" ++
        "    classDef C1 fill:transparent,stroke:#1e1e1e,stroke-width:2px;").toList := by
  have fields : HasTextFields bareElement :=
    ⟨holdsText_null, holdsText_null, holdsText_null, holdsText_null⟩
  have accepted : [bareElement].mapM Element.ofJson = .ok bareScene := rfl
  have readable : Readable bareScene :=
    readable_of_textFields accepted (List.forall_mem_singleton.mpr fields)
  have referring : ∀ e ∈ bareScene, e.Referring :=
    List.forall_mem_singleton.mpr ⟨nofun, nofun, nofun⟩
  have recoloured : readGraph (bareScene.map Element.reread) ≠ readGraph bareScene := by
    intro same
    rw [readGraph_readable readable, readGraph_readable readable.reread] at same
    have filled := (graphRead_reread_eq_iff [] bareScene).mp (Except.ok.inj same)
    exact absurd filled (by decide)
  refine ⟨fields, accepted, _, Element.mapM_ofJson_toJson referring, recoloured, ?_, ?_⟩
  · apply eq_ok_of_toOption
    decide +kernel
  · apply eq_ok_of_toOption
    decide +kernel

end Drawbridge
