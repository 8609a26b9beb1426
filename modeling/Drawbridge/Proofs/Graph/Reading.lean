import Drawbridge.Proofs.Graph.Styles
import Drawbridge.Proofs.Text.Words

/-!
Reading the graph of a scene. A scene has a graph just where every text and every colour is of a
kind that can be read (`Readable`, `readGraph_eq_ok_iff`), and the graph is a function of the texts,
shapes and arrows: `readGraph_eq` gives its nodes, style classes and edges. Labels come out tidy
(`labelFor_isTidy`), and the ends of edges are nodes (`boundNode?_eq_some`).
-/

namespace Drawbridge

theorem ok_of_bind {ε α β : Type} {x : Except ε α} {f : α → Except ε β} {b : β}
    (h : (x >>= f) = .ok b) : ∃ a, x = .ok a ∧ f a = .ok b := by
  cases x with
  | error e => cases h
  | ok a => exact ⟨a, rfl, h⟩

theorem eq_ok_of_toOption {ε α : Type} {x : Except ε α} {a : α} (h : x.toOption = some a) :
    x = .ok a := by
  cases x with
  | error e => cases h
  | ok b => rw [Option.some.inj h]

theorem mapM_ok {ε α β : Type} {f : α → Except ε β} {g : α → β} {l : List α}
    (h : ∀ a ∈ l, f a = .ok (g a)) : l.mapM f = .ok (l.map g) := by
  induction l with
  | nil => rfl
  | cons a l ih =>
    rw [List.mapM_cons, h a List.mem_cons_self, ih fun b hb => h b (List.mem_cons_of_mem a hb)]
    rfl

theorem exists_of_mapM_ok {ε α β : Type} {f : α → Except ε β} {l : List α} {bs : List β}
    (h : l.mapM f = .ok bs) : ∀ a ∈ l, ∃ b, f a = .ok b := by
  induction l generalizing bs with
  | nil => nofun
  | cons a l ih =>
    rw [List.mapM_cons] at h
    cases ha : f a with
    | error e =>
      rw [ha] at h
      cases h
    | ok b =>
      cases hl : l.mapM f with
      | error e =>
        rw [ha, hl] at h
        cases h
      | ok cs => exact List.forall_mem_cons.mpr ⟨⟨b, ha⟩, ih hl⟩

theorem mem_of_mapM_ok {ε α β : Type} {f : α → Except ε β} {l : List α} {bs : List β}
    (h : l.mapM f = .ok bs) : ∀ b ∈ bs, ∃ a ∈ l, f a = .ok b := by
  induction l generalizing bs with
  | nil =>
    cases h
    nofun
  | cons a l ih =>
    rw [List.mapM_cons] at h
    obtain ⟨b, ha, h⟩ := ok_of_bind h
    obtain ⟨cs, hl, h⟩ := ok_of_bind h
    cases h
    intro c hc
    rcases List.mem_cons.mp hc with rfl | hc
    · exact ⟨a, List.mem_cons_self, ha⟩
    · obtain ⟨a', ha', hf⟩ := ih hl c hc
      exact ⟨a', List.mem_cons_of_mem a ha', hf⟩

/-! ## Elements -/

/-- The elements that count. -/
def liveElements (scene : List Element) : List Element :=
  scene.filter fun e => !e.isDeleted

/-- A text element as it is read if it can be. -/
def textItem (e : Element) : TextItem where
  id := e.id
  label := cleanLabel (e.text.text?.getD [])
  container := if e.containerId.isTruthy then e.containerId.text? else none

/-- A shape as it is read if its colours can be; none for other elements. -/
def shapeItem? (e : Element) : Option ShapeItem :=
  e.shape?.map fun shape =>
    { element := e, shape, fill := e.fill.orElse (.str defaultFill),
      stroke := e.stroke.orElse (.str defaultStroke) }

def sceneTexts (scene : List Element) : List TextItem :=
  ((liveElements scene).filter Element.isText).map textItem

def sceneShapes (scene : List Element) : List ShapeItem :=
  (liveElements scene).filterMap shapeItem?

/-- The content of a text is a text, and its container can be a key. -/
structure Element.HasText (e : Element) : Prop where
  text : e.text.isTruthy = true → ∃ s, e.text = .str s
  container : e.containerId.isTruthy = true → e.containerId.isScalar = true

/-- A colour that is absent or can be a key. -/
def IsKey (j : Json) : Prop :=
  j.isTruthy = true → j.isScalar = true

/-- A field is a text if it has anything to it. -/
def HoldsText (j : Json) : Prop :=
  j.isTruthy = true → ∃ s, j = .str s

theorem HoldsText.isKey {j : Json} (h : HoldsText j) : IsKey j := by
  intro present
  obtain ⟨s, rfl⟩ := h present
  rfl

theorem HoldsText.orElse {j k : Json} (hj : HoldsText j) (hk : HoldsText k) :
    HoldsText (j.orElse k) := by
  unfold Json.orElse
  split
  · exact hj
  · exact hk

theorem holdsText_str (s : Text) : HoldsText (.str s) :=
  fun _ => ⟨s, rfl⟩

theorem holdsText_null : HoldsText .null :=
  nofun

/-- What counts in a scene can be read. -/
structure Readable (scene : List Element) : Prop where
  texts : ∀ e ∈ liveElements scene, e.isText = true → e.HasText
  colours : ∀ e ∈ liveElements scene, e.isShape = true → IsKey e.fill ∧ IsKey e.stroke

theorem text?_of_not_truthy {j : Json} (h : j.isTruthy = false) : j.text?.getD [] = [] := by
  cases j with
  | str s =>
    cases s with
    | nil => rfl
    | cons c s => cases h
  | _ => rfl

theorem readTextItem_eq {e : Element} (h : e.HasText) : readTextItem e = .ok (textItem e) := by
  unfold readTextItem textItem
  cases ht : e.text.isTruthy with
  | true =>
    obtain ⟨s, hs⟩ := h.text ht
    cases hc : e.containerId.isTruthy with
    | true =>
      simp only [hs, h.container hc, if_true]
      rfl
    | false =>
      simp only [hs, Bool.false_eq_true, if_true, if_false]
      rfl
  | false =>
    rw [text?_of_not_truthy ht]
    cases hc : e.containerId.isTruthy with
    | true =>
      simp only [h.container hc, Bool.false_eq_true, if_true, if_false]
      rfl
    | false =>
      simp only [Bool.false_eq_true, if_false]
      rfl

/-- **What a text element has to have in order to be read.** -/
theorem readTextItem_isOk_iff {e : Element} : (∃ t, readTextItem e = .ok t) ↔ e.HasText := by
  refine ⟨?_, fun h => ⟨textItem e, readTextItem_eq h⟩⟩
  rintro ⟨t, h⟩
  unfold readTextItem at h
  have text : e.text.isTruthy = true → ∃ s, e.text = .str s := by
    intro present
    rw [if_pos present] at h
    cases hj : e.text with
    | str s => exact ⟨s, rfl⟩
    | _ =>
      rw [hj] at h
      cases h
  refine ⟨text, ?_⟩
  intro present
  by_contra other
  by_cases content : e.text.isTruthy = true
  · obtain ⟨s, hs⟩ := text content
    rw [if_pos content, hs] at h
    simp only [present, other, if_true] at h
    cases h
  · simp only [content, present, other, if_true, if_false] at h
    cases h

theorem resolveColour_eq {j : Json} (h : IsKey j) (default : Text) :
    resolveColour j default = .ok (j.orElse (.str default)) := by
  unfold resolveColour Json.orElse
  by_cases ht : j.isTruthy = true
  · simp [ht, h ht]
  · simp [ht, Json.isScalar]

theorem isKey_of_resolveColour {j k : Json} {default : Text}
    (h : resolveColour j default = .ok k) : IsKey j := by
  intro present
  unfold resolveColour Json.orElse at h
  rw [if_pos present] at h
  by_contra other
  rw [if_neg other] at h
  cases h

theorem readShapeItem_eq {e : Element} (h : e.isShape = true → IsKey e.fill ∧ IsKey e.stroke) :
    readShapeItem e = .ok (shapeItem? e) := by
  unfold readShapeItem shapeItem?
  cases hs : e.shape? with
  | none => rfl
  | some shape =>
    obtain ⟨fill, stroke⟩ := h (by rw [Element.isShape, hs]; rfl)
    simp only [resolveColour_eq fill, resolveColour_eq stroke]
    rfl

/-- A shape that can be read has colours that can. -/
theorem isKey_of_readShapeItem {e : Element} {i : Option ShapeItem}
    (h : readShapeItem e = .ok i) : e.isShape = true → IsKey e.fill ∧ IsKey e.stroke := by
  intro kind
  obtain ⟨shape, hs⟩ := Option.isSome_iff_exists.mp kind
  unfold readShapeItem at h
  rw [hs] at h
  cases hf : resolveColour e.fill defaultFill with
  | error fault =>
    simp only [hf] at h
    cases h
  | ok fill =>
    cases hk : resolveColour e.stroke defaultStroke with
    | error fault =>
      simp only [hf, hk] at h
      cases h
    | ok stroke => exact ⟨isKey_of_resolveColour hf, isKey_of_resolveColour hk⟩

/-! ## Labels -/

theorem labelFor_isTidy (scene : List Element) (e : Element) :
    IsTidy (labelFor (sceneTexts scene) e) := by
  have empty : IsTidy [] := rfl
  have labels : ∀ id, IsTidy (labelOf (sceneTexts scene) id) := by
    intro id
    unfold labelOf
    cases h : (sceneTexts scene).reverse.find? fun t => t.id = id with
    | none => exact empty
    | some t =>
      have ht := List.mem_reverse.mp (List.mem_of_find?_eq_some h)
      obtain ⟨u, -, rfl⟩ := List.mem_map.mp ht
      exact cleanLabel_isTidy _
  unfold labelFor
  dsimp only
  split
  · exact labels _
  · exact empty

theorem mem_sceneShapes {scene : List Element} {i : ShapeItem} (h : i ∈ sceneShapes scene) :
    i.element ∈ liveElements scene ∧ i.element.isShape = true ∧
      i.fill = i.element.fill.orElse (.str defaultFill) ∧
      i.stroke = i.element.stroke.orElse (.str defaultStroke) := by
  obtain ⟨e, he, hi⟩ := List.mem_filterMap.mp h
  obtain ⟨shape, hs, rfl⟩ := Option.map_eq_some_iff.mp hi
  exact ⟨he, by rw [Element.isShape, hs]; rfl, rfl, rfl⟩

/-- Shapes are read from the elements that are shapes, in their order. -/
theorem filterMap_shapeItem? {β : Type} (f : Element → β) (es : List Element) :
    (es.filterMap shapeItem?).map (fun i => f i.element) = (es.filter Element.isShape).map f := by
  rw [List.map_filterMap, ← List.filterMap_eq_map, List.filterMap_filter]
  apply List.filterMap_congr
  intro e _
  unfold shapeItem? Element.isShape
  cases e.shape? <;> rfl

theorem sceneShapes_map_id (scene : List Element) :
    (sceneShapes scene).map (·.element.id) =
      ((liveElements scene).filter Element.isShape).map (·.id) :=
  filterMap_shapeItem? (·.id) (liveElements scene)

/-! ## Nodes -/

/-- A node apart from the shape it was read from and the groups of that shape. -/
def Node.plain (n : Node) : Node :=
  { n with sourceId := [], groups := [] }

/-- How a shape of a scene looks. -/
def lookOf (texts : List TextItem) (i : ShapeItem) : Look where
  shape := i.shape
  label := labelFor texts i.element
  fill := i.fill
  stroke := i.stroke

theorem addShape_eq (labels : Dictionary Text) (texts : List TextItem) {st : ReadState}
    {i : ShapeItem} (new : i.element.id ∉ st.ids) :
    st.addShape labels texts i =
      { ids := st.ids ++ [i.element.id]
        styles := (resolveStyle st.styles i.fill i.stroke).1
        blocks := (BlockTable.addMember labels st.blocks i.element.groupIds
          (nodeName st.ids.length)).1
        nodes := st.nodes ++
          [{ id := nodeName st.ids.length, sourceId := i.element.id, shape := i.shape,
             label := labelFor texts i.element, fill := i.fill, stroke := i.stroke,
             styleClass := (resolveStyle st.styles i.fill i.stroke).2.name,
             groups := (BlockTable.addMember labels st.blocks i.element.groupIds
               (nodeName st.ids.length)).2 }] } := by
  have place : (st.ids ++ [i.element.id]).idxOf? i.element.id = some st.ids.length := by
    rw [List.idxOf?_eq_some_iff]
    refine ⟨by simp, List.getElem_concat_length rfl _, ?_⟩
    intro j hj heq
    rw [List.getElem_append_left hj] at heq
    exact new (heq ▸ List.getElem_mem hj)
  have named : (nameAmong? (st.ids ++ [i.element.id]) i.element.id).getD [] =
      nodeName st.ids.length := by
    rw [nameAmong?, place]
    rfl
  unfold ReadState.addShape
  dsimp only
  rw [if_neg new, named]

theorem addShape_new (labels : Dictionary Text) (texts : List TextItem) {st : ReadState}
    {i : ShapeItem} (new : i.element.id ∉ st.ids) :
    (st.addShape labels texts i).ids = st.ids ++ [i.element.id] ∧
      (st.addShape labels texts i).styles = (resolveStyle st.styles i.fill i.stroke).1 ∧
      (st.addShape labels texts i).nodes.map Node.plain =
        st.nodes.map Node.plain ++ nodesOf st.ids.length st.styles [lookOf texts i] := by
  rw [addShape_eq labels texts new]
  refine ⟨rfl, rfl, ?_⟩
  rw [List.map_append]
  rfl

theorem foldl_addShape (labels : Dictionary Text) (texts : List TextItem) {items : List ShapeItem}
    (st : ReadState) (distinct : (st.ids ++ items.map (·.element.id)).Nodup) :
    (items.foldl (ReadState.addShape labels texts) st).ids = st.ids ++ items.map (·.element.id) ∧
      (items.foldl (ReadState.addShape labels texts) st).styles =
        stylesOf st.styles (items.map (lookOf texts)) ∧
      (items.foldl (ReadState.addShape labels texts) st).nodes.map Node.plain =
        st.nodes.map Node.plain ++
          nodesOf st.ids.length st.styles (items.map (lookOf texts)) := by
  induction items generalizing st with
  | nil => simp [stylesOf, nodesOf]
  | cons i items ih =>
    rw [List.map_cons] at distinct
    have new : i.element.id ∉ st.ids := by
      intro hm
      exact (List.nodup_append.mp distinct).2.2 _ hm _ List.mem_cons_self rfl
    obtain ⟨ids, styles, nodes⟩ := addShape_new labels texts new
    have rest := ih (st.addShape labels texts i) (by rw [ids]; simpa using distinct)
    rw [ids, styles, nodes, List.length_append, List.length_singleton] at rest
    simpa [nodesOf, stylesOf, lookOf] using rest

/-! ## Edges -/

theorem boundNode?_some (ids : List Text) {id : Text} (h : id ≠ []) :
    boundNode? ids (some id) = nameAmong? ids id := by
  simp [boundNode?, Option.filter, h]

/-- The end of an edge is the name of a shape. -/
theorem boundNode?_eq_some {ids : List Text} {binding : Option Text} {name : Text}
    (h : boundNode? ids binding = some name) : ∃ k < ids.length, name = nodeName k := by
  obtain ⟨id, -, hid⟩ := Option.bind_eq_some_iff.mp h
  obtain ⟨k, hk, rfl⟩ := Option.map_eq_some_iff.mp hid
  obtain ⟨bound, -⟩ := List.idxOf?_eq_some_iff.mp hk
  exact ⟨k, bound, rfl⟩

def sceneEdges (scene : List Element) : List Edge :=
  ((liveElements scene).filter Element.isArrow).filterMap
    (readEdge? ((sceneShapes scene).map (·.element.id)) (sceneTexts scene))

def shapesRead (labels : Dictionary Text) (scene : List Element) : ReadState :=
  (sceneShapes scene).foldl (ReadState.addShape labels (sceneTexts scene)) {}

def graphRead (labels : Dictionary Text) (scene : List Element) : Graph where
  nodes := (shapesRead labels scene).nodes
  edges := ((liveElements scene).filter Element.isArrow).filterMap
    (readEdge? (shapesRead labels scene).ids (sceneTexts scene))
  blocks := (shapesRead labels scene).blocks
  styles := (shapesRead labels scene).styles

theorem readGraph_readable {scene : List Element} (h : Readable scene) (labels : Dictionary Text) :
    readGraph scene labels = .ok (graphRead labels scene) := by
  have texts : ((liveElements scene).filter Element.isText).mapM readTextItem =
      .ok (sceneTexts scene) := by
    apply mapM_ok
    intro e he
    obtain ⟨live, text⟩ := List.mem_filter.mp he
    exact readTextItem_eq (h.texts e live text)
  have shapes : (liveElements scene).mapM readShapeItem =
      .ok ((liveElements scene).map shapeItem?) :=
    mapM_ok fun e he => readShapeItem_eq (h.colours e he)
  have items : ((liveElements scene).map shapeItem?).filterMap id = sceneShapes scene := by
    rw [List.filterMap_map]
    rfl
  unfold readGraph
  show (List.mapM readTextItem ((liveElements scene).filter Element.isText) >>= _) = _
  rw [texts]
  show (List.mapM readShapeItem (liveElements scene) >>= _) = _
  rw [shapes]
  show Except.ok _ = Except.ok _
  simp only [items]
  rfl

/-- A scene with a graph can be read. -/
theorem readable_of_readGraph {scene : List Element} {labels : Dictionary Text} {g : Graph}
    (read : readGraph scene labels = .ok g) : Readable scene := by
  unfold readGraph at read
  change (List.mapM readTextItem ((liveElements scene).filter Element.isText) >>= _) = _ at read
  cases texts : List.mapM readTextItem ((liveElements scene).filter Element.isText) with
  | error e =>
    rw [texts] at read
    cases read
  | ok items =>
    rw [texts] at read
    change (List.mapM readShapeItem (liveElements scene) >>= _) = _ at read
    cases shapes : List.mapM readShapeItem (liveElements scene) with
    | error e =>
      rw [shapes] at read
      cases read
    | ok shapeItems =>
      constructor
      · intro e live text
        exact readTextItem_isOk_iff.mp
          (exists_of_mapM_ok texts e (List.mem_filter.mpr ⟨live, text⟩))
      · intro e live
        obtain ⟨i, hi⟩ := exists_of_mapM_ok shapes e live
        exact isKey_of_readShapeItem hi

/-- **A scene has a graph just where it can be read.** -/
theorem readGraph_eq_ok_iff {scene : List Element} {labels : Dictionary Text} {g : Graph} :
    readGraph scene labels = .ok g ↔ Readable scene ∧ g = graphRead labels scene := by
  constructor
  · intro read
    have h := readable_of_readGraph read
    rw [readGraph_readable h] at read
    exact ⟨h, (Except.ok.inj read).symm⟩
  · rintro ⟨h, rfl⟩
    exact readGraph_readable h labels

theorem readGraph_ok {scene : List Element} (h : Readable scene)
    (distinct : ((sceneShapes scene).map (·.element.id)).Nodup) (labels : Dictionary Text) :
    readGraph scene labels = .ok
      { nodes := (shapesRead labels scene).nodes, edges := sceneEdges scene,
        blocks := (shapesRead labels scene).blocks
        styles := (shapesRead labels scene).styles } := by
  have ids : (shapesRead labels scene).ids = (sceneShapes scene).map (·.element.id) :=
    (foldl_addShape labels (sceneTexts scene) {} (by simpa using distinct)).1
  rw [readGraph_readable h, graphRead, ids]
  rfl

/-- **The graph of a scene that can be read.** -/
theorem readGraph_eq {scene : List Element} (h : Readable scene)
    (distinct : ((sceneShapes scene).map (·.element.id)).Nodup) (labels : Dictionary Text) :
    ∃ g, readGraph scene labels = .ok g ∧
      g.nodes.map Node.plain = nodesOf 0 [] ((sceneShapes scene).map (lookOf (sceneTexts scene))) ∧
      g.styles = stylesOf [] ((sceneShapes scene).map (lookOf (sceneTexts scene))) ∧
      g.edges = sceneEdges scene := by
  obtain ⟨-, styles, nodes⟩ :=
    foldl_addShape labels (sceneTexts scene) {} (by simpa using distinct)
  exact ⟨_, readGraph_ok h distinct labels, nodes, styles, rfl⟩

end Drawbridge
