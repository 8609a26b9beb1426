import Drawbridge.Proofs.Diagram.FlowchartReader
import Drawbridge.Proofs.Diagram.Layout

/-!
From a scene to a flowchart and back. A scene that can be drawn (`Drawable`) has shapes with
identifiers of their own, colours that are absent or plain, and labels without fences, line-break
tags and entities; apart from that its labels may hold brackets, quotes, pipes, arrows and
semicolons.

* `ReadFrom.writable`: the graph of such a scene can be written;
* `ReadFrom.sameDrawing`: the diagram of the graph, laid out and read, is the same drawing;
* `SameDrawing.writtenLines_eq`: the same drawing is written in the same lines;
* `flowchart_roundTrip`: so the flowchart of a scene, rendered and written again, is the same text.
-/

namespace Drawbridge

/-! ## Scenes -/

def IsPlainOrAbsent (j : Json) : Prop :=
  j.isTruthy = true → ∃ s, j = .str s ∧ ∀ c ∈ s, isColourChar c = true

/--
A scene whose flowchart can be read back. That texts hold texts is asked of all of them: by
`readTextItem_isOk_iff`, one that does not leaves the scene without a graph.
-/
structure Drawable (scene : List Element) : Prop where
  distinct : (((liveElements scene).filter Element.isShape).map (·.id)).Nodup
  texts : ∀ e ∈ liveElements scene, e.isText = true → e.HasText
  colours : ∀ e ∈ liveElements scene, e.isShape = true →
    IsPlainOrAbsent e.fill ∧ IsPlainOrAbsent e.stroke
  labels : ∀ e ∈ liveElements scene, e.isShape = true ∨ e.isArrow = true →
    IsWritable (labelFor (sceneTexts scene) e)

theorem isKey_of_plain {j : Json} (h : IsPlainOrAbsent j) : IsKey j := by
  intro ht
  obtain ⟨s, rfl, -⟩ := h ht
  rfl

theorem isColour_orElse {j : Json} (h : IsPlainOrAbsent j) {default : Text} (hne : default ≠ [])
    (hd : ∀ c ∈ default, isColourChar c = true) : IsColour (j.orElse (.str default)) := by
  unfold Json.orElse
  split
  · rename_i ht
    obtain ⟨s, rfl, plain⟩ := h ht
    refine ⟨s, rfl, ?_, plain⟩
    rintro rfl
    cases ht
  · exact ⟨default, rfl, hne, hd⟩

namespace Drawable

variable {scene : List Element}

theorem readable (h : Drawable scene) : Readable scene where
  texts := h.texts
  colours := fun e he hs =>
    ⟨isKey_of_plain (h.colours e he hs).1, isKey_of_plain (h.colours e he hs).2⟩

theorem looks (h : Drawable scene) :
    ∀ l ∈ (sceneShapes scene).map (lookOf (sceneTexts scene)), l.IsPlain ∧ IsLabel l.label := by
  intro l hl
  obtain ⟨i, hi, rfl⟩ := List.mem_map.mp hl
  obtain ⟨live, kind, fill, stroke⟩ := mem_sceneShapes hi
  obtain ⟨hf, hs⟩ := h.colours i.element live kind
  refine ⟨⟨?_, ?_⟩, h.labels i.element live (.inl kind), labelFor_isTidy scene i.element⟩
  · show IsColour i.fill
    rw [fill]
    exact isColour_orElse hf (by decide) (by decide)
  · show IsColour i.stroke
    rw [stroke]
    exact isColour_orElse hs (by decide) (by decide)

end Drawable

/-! ## Graphs -/

/-- The nodes of a graph have the names of their places. -/
def Graph.IsNumbered (g : Graph) : Prop :=
  g.nodes.map (·.id) = (List.range' 0 g.nodes.length).map nodeName

theorem Graph.IsNumbered.nodup {g : Graph} (h : g.IsNumbered) : (g.nodes.map (·.id)).Nodup := by
  rw [h]
  exact List.Nodup.map (fun _ _ => nodeName_injective) List.nodup_range'

theorem Graph.IsNumbered.getElem {g : Graph} (h : g.IsNumbered) {k : Nat}
    (hk : k < g.nodes.length) : g.nodes[k].id = nodeName k := by
  have here : (g.nodes.map (·.id))[k]? = ((List.range' 0 g.nodes.length).map nodeName)[k]? := by
    rw [h]
  simpa [hk] using here

/-- The nodes and style classes of a graph are those of some shapes, apart from groups. -/
structure Graph.Shows (g : Graph) (ls : List Look) : Prop where
  nodes : g.nodes.map Node.plain = nodesOf 0 [] ls
  styles : g.styles = stylesOf [] ls

/-- The style class of every node has the colours of the node. -/
def Graph.Styled (g : Graph) : Prop :=
  ∀ n ∈ g.nodes, ∃ s ∈ g.styles, s.name = n.styleClass ∧ s.fill = n.fill ∧ s.stroke = n.stroke

namespace Graph.Shows

variable {g : Graph} {ls : List Look}

theorem looks (h : g.Shows ls) : g.nodes.map Node.look = ls := by
  rw [← nodesOf_looks 0 [] ls, ← h.nodes, List.map_map]
  rfl

theorem length (h : g.Shows ls) : g.nodes.length = ls.length := by
  rw [← h.looks, List.length_map]

theorem numbered (h : g.Shows ls) : g.IsNumbered := by
  have ids := congrArg (List.map (·.id)) h.nodes
  rw [nodesOf_ids, List.map_map, ← h.length] at ids
  exact ids

theorem styled (h : g.Shows ls) (plain : ∀ l ∈ ls, l.IsPlain) : g.Styled := by
  intro n hn
  have none_plain : ArePlain [] := by simp [ArePlain]
  have read : n.plain ∈ nodesOf 0 [] ls := h.nodes ▸ List.mem_map_of_mem hn
  obtain ⟨s, hmem, same⟩ := exists_style_of_mem_nodesOf none_plain plain read
  exact ⟨s, h.styles ▸ hmem, same⟩

/-- **The graph of shapes with plain colours and sound labels can be written.** -/
theorem writable (h : g.Shows ls) (sound : ∀ l ∈ ls, l.IsPlain ∧ IsLabel l.label)
    (ends : ∀ e ∈ g.edges, e.source ∈ g.nodes.map (·.id) ∧ e.target ∈ g.nodes.map (·.id))
    (edgeLabels : ∀ e ∈ g.edges, IsLabel e.label) : g.Writable := by
  have numbered : Drawbridge.IsNumbered g.styles := by
    rw [h.styles]
    exact stylesOf_numbered (show Drawbridge.IsNumbered [] from rfl) _
  have plain : ArePlain g.styles := by
    rw [h.styles]
    exact (stylesOf_plain (by simp [ArePlain]) fun l hl => (sound l hl).1).1
  have names : ∀ n ∈ g.nodes, IsName n.id := by
    intro n hn
    have id := List.mem_map_of_mem hn (f := (·.id))
    rw [h.numbered] at id
    obtain ⟨k, -, hk⟩ := List.mem_map.mp id
    rw [← hk]
    exact nodeName_isName k
  refine ⟨?_, h.numbered.nodup, ?_, ends, edgeLabels, ?_, numbered.nodup⟩
  · intro n hn
    obtain ⟨s, hmem, hname, -⟩ := h.styled (fun l hl => (sound l hl).1) n hn
    exact ⟨names n hn, hname ▸ numbered.isName hmem⟩
  · intro n hn
    have look : n.look ∈ ls := h.looks ▸ List.mem_map_of_mem hn
    exact (sound _ look).2
  · exact fun s hmem => ⟨numbered.isName hmem, plain s hmem⟩

end Graph.Shows

/-- What a graph that has been read owes to the scene: its nodes are those of the shapes. -/
structure ReadFrom (scene : List Element) (g : Graph) : Prop where
  nodes : g.nodes.map Node.plain =
    nodesOf 0 [] ((sceneShapes scene).map (lookOf (sceneTexts scene)))
  styles : g.styles = stylesOf [] ((sceneShapes scene).map (lookOf (sceneTexts scene)))
  edges : g.edges = sceneEdges scene

namespace ReadFrom

variable {scene : List Element} {g : Graph}

theorem shows (h : ReadFrom scene g) :
    g.Shows ((sceneShapes scene).map (lookOf (sceneTexts scene))) :=
  ⟨h.nodes, h.styles⟩

theorem numbered (h : ReadFrom scene g) : g.IsNumbered :=
  h.shows.numbered

theorem styled (h : ReadFrom scene g) (hs : Drawable scene) : g.Styled :=
  h.shows.styled fun l hl => (hs.looks l hl).1

theorem end_mem (h : ReadFrom scene g) {binding : Option Text} {name : Text}
    (hb : boundNode? ((sceneShapes scene).map (·.element.id)) binding = some name) :
    name ∈ g.nodes.map (·.id) := by
  obtain ⟨k, hk, rfl⟩ := boundNode?_eq_some hb
  rw [List.length_map] at hk
  rw [h.numbered, h.shows.length, List.length_map]
  exact List.mem_map_of_mem (List.mem_range'_1.mpr ⟨Nat.zero_le k, by omega⟩)

theorem mem_edges (h : ReadFrom scene g) {e : Edge} (he : e ∈ g.edges) :
    e.source ∈ g.nodes.map (·.id) ∧ e.target ∈ g.nodes.map (·.id) ∧
      ∃ a ∈ liveElements scene, a.isArrow = true ∧ e.label = labelFor (sceneTexts scene) a := by
  rw [h.edges] at he
  obtain ⟨a, ha, hread⟩ := List.mem_filterMap.mp he
  obtain ⟨live, arrow⟩ := List.mem_filter.mp ha
  obtain ⟨source, hs, hread⟩ := Option.bind_eq_some_iff.mp hread
  obtain ⟨target, ht, hread⟩ := Option.bind_eq_some_iff.mp hread
  cases hread
  exact ⟨h.end_mem hs, h.end_mem ht, a, live, arrow, rfl⟩

/-- **The graph of a scene that can be drawn can be written.** -/
theorem writable (h : ReadFrom scene g) (hs : Drawable scene) : g.Writable := by
  refine h.shows.writable hs.looks ?_ ?_
  · exact fun e he => ⟨(h.mem_edges he).1, (h.mem_edges he).2.1⟩
  · intro e he
    obtain ⟨-, -, a, live, arrow, hl⟩ := h.mem_edges he
    rw [hl]
    exact ⟨hs.labels a live (.inr arrow), labelFor_isTidy scene a⟩

end ReadFrom

/-- **A scene that can be drawn can be read.** -/
theorem Drawable.read {scene : List Element} (h : Drawable scene) (labels : Dictionary Text) :
    ∃ g, readGraph scene labels = .ok g ∧ ReadFrom scene g := by
  have distinct : ((sceneShapes scene).map (·.element.id)).Nodup := by
    rw [sceneShapes_map_id]
    exact h.distinct
  obtain ⟨g, read, nodes, styles, edges⟩ := readGraph_eq h.readable distinct labels
  exact ⟨g, read, nodes, styles, edges⟩

/-! ## Drawing a graph -/

/-- A graph that has been written and read back: the same nodes and edges, where an empty label has
become the name of its node, and with colours the same colours and style classes. -/
structure SameDrawing (colors : Bool) (g g' : Graph) : Prop where
  nodes : g'.nodes.map (fun n => (n.id, n.shape, n.label)) =
    g.nodes.map fun n => (n.id, n.shape, n.shownLabel)
  edges : g'.edges = g.edges
  colours : colors = true → g'.nodes.map (fun n => (n.fill, n.stroke, n.styleClass)) =
    g.nodes.map fun n => (n.fill, n.stroke, n.styleClass)
  styles : colors = true → g'.styles = g.styles

theorem getElem_of_map_eq {α β γ : Type} {l : List α} {l' : List β} {f : α → γ} {f' : β → γ}
    (h : l'.map f' = l.map f) {k : Nat} (hk' : k < l'.length) (hk : k < l.length) :
    f' l'[k] = f l[k] := by
  have here : (l'.map f')[k]? = (l.map f)[k]? := by rw [h]
  simpa [hk, hk'] using here

namespace SameDrawing

variable {colors : Bool} {g g' : Graph}

theorem nodeLines_eq (h : SameDrawing colors g g') :
    g'.nodes.map (nodeLine colors) = g.nodes.map (nodeLine colors) := by
  have length : g'.nodes.length = g.nodes.length := by simpa using congrArg List.length h.nodes
  apply List.ext_getElem (by simp [length])
  intro k bound' bound
  have hk' : k < g'.nodes.length := by simpa using bound'
  have hk : k < g.nodes.length := by simpa using bound
  rw [List.getElem_map, List.getElem_map, nodeLine_eq, nodeLine_eq]
  have shown := getElem_of_map_eq h.nodes hk' hk
  obtain ⟨id, rest⟩ := Prod.mk.inj shown
  obtain ⟨shape, label⟩ := Prod.mk.inj rest
  have same : g'.nodes[k].shownLabel = g.nodes[k].shownLabel := by
    unfold Node.shownLabel at label ⊢
    rw [label, id]
    split <;> simp_all
  have mark : styleMark colors g'.nodes[k] = styleMark colors g.nodes[k] := by
    cases colors with
    | false => rfl
    | true =>
      have colour := getElem_of_map_eq (h.colours rfl) hk' hk
      obtain ⟨-, rest⟩ := Prod.mk.inj colour
      obtain ⟨-, style⟩ := Prod.mk.inj rest
      rw [styleMark, styleMark, style]
  rw [id, shape, same, mark]

theorem styleTexts_eq (h : SameDrawing colors g g') :
    styleTexts colors g' = styleTexts colors g := by
  cases colors with
  | false => rfl
  | true => rw [styleTexts, styleTexts, h.styles rfl]

/-- The same drawing is written in the same lines. -/
theorem writtenLines_eq (h : SameDrawing colors g g') (direction : Text) :
    writtenLines direction colors g' = writtenLines direction colors g := by
  rw [writtenLines, writtenLines, h.nodeLines_eq, h.styleTexts_eq, h.edges]

end SameDrawing

theorem Dictionary.get?_map_of_mem {α β : Type} {key : β → Text} {value : β → α} {l : List β}
    (distinct : (l.map key).Nodup) {b : β} (hb : b ∈ l) :
    Dictionary.get? (l.map fun b => (key b, value b)) (key b) = some (value b) := by
  induction l with
  | nil => cases hb
  | cons a l ih =>
    rw [List.map_cons, List.nodup_cons] at distinct
    rw [List.map_cons, Dictionary.get?]
    rcases List.mem_cons.mp hb with rfl | hb
    · rw [if_pos rfl]
    · have other : key a ≠ key b := by
        intro heq
        exact distinct.1 (heq ▸ List.mem_map_of_mem hb)
      rw [if_neg other]
      exact ih distinct.2 hb

theorem draftOf_ids (colors : Bool) (g : Graph) :
    (draftOf colors g).nodes.map (·.id) = g.nodes.map (·.id) := by
  rw [draftOf, List.map_map]
  rfl

theorem orElse_colourName {j : Json} (h : IsColour j) (k : Json) :
    (Json.str (colourName j)).orElse k = j := by
  obtain ⟨s, rfl, hne, -⟩ := h
  have present : (Json.str s).isTruthy = true := by
    show (!s.isEmpty) = true
    simpa using hne
  exact if_pos present

/-- How a node is shown: under its label or its name, and with colours in its own. -/
def Node.shownLook (colors : Bool) (n : Node) : Look where
  shape := n.shape
  label := n.shownLabel
  fill := if colors then n.fill else .str transparent
  stroke := if colors then n.stroke else .str defaultStroke

/-- **A node is drawn as it is shown.** -/
theorem Graph.Writable.drawnLook {g : Graph} (h : g.Writable) (styled : g.Styled) (colors : Bool)
    {n : Node} (hn : n ∈ g.nodes) :
    Layout.drawnLook (draftOf colors g) (draftNode colors n) = n.shownLook colors := by
  have label : cleanLabel n.shownLabel = n.shownLabel := (h.shownLabel hn).tidy
  cases colors with
  | false =>
    show Look.mk n.shape (cleanLabel n.shownLabel) _ _ = Look.mk n.shape n.shownLabel _ _
    rw [label]
    rfl
  | true =>
    obtain ⟨s, hs, name, sameFill, sameStroke⟩ := styled n hn
    obtain ⟨-, fill, stroke⟩ := h.styles s hs
    have defined : (draftOf true g).classDefs.get? (draftNode true n).styleClass =
        some (FlowchartReader.styleProperties s) := by
      show Dictionary.get? _ n.styleClass = _
      rw [← name]
      exact Dictionary.get?_map_of_mem h.distinctStyles hs
    have drawnFill : Layout.drawnFill (draftOf true g) (draftNode true n) = n.fill := by
      rw [Layout.drawnFill, defined, ← sameFill]
      exact orElse_colourName fill _
    have drawnStroke : Layout.drawnStroke (draftOf true g) (draftNode true n) = n.stroke := by
      rw [Layout.drawnStroke, defined, ← sameStroke]
      exact orElse_colourName stroke _
    show Look.mk n.shape (cleanLabel n.shownLabel) _ _ = Look.mk n.shape n.shownLabel _ _
    rw [label, drawnFill, drawnStroke]
    rfl

theorem nameAmong?_getElem {ids : List Text} (distinct : ids.Nodup) {k : Nat}
    (hk : k < ids.length) : nameAmong? ids ids[k] = some (nodeName k) := by
  have place : ids.idxOf? ids[k] = some k := by
    rw [List.idxOf?_eq_some_iff]
    refine ⟨hk, rfl, ?_⟩
    intro j hj heq
    exact absurd ((distinct.getElem_inj_iff).mp heq) (by omega)
  rw [nameAmong?, place]
  rfl

theorem Graph.IsNumbered.nameAmong? {g : Graph} (h : g.IsNumbered) {id : Text}
    (hid : id ∈ g.nodes.map (·.id)) : nameAmong? (g.nodes.map (·.id)) id = some id := by
  obtain ⟨k, hk, rfl⟩ := List.getElem_of_mem hid
  have name : (g.nodes.map (·.id))[k] = nodeName k := by
    rw [List.getElem_map]
    exact h.getElem (by simpa using hk)
  rw [nameAmong?_getElem h.nodup hk, name]

theorem Graph.IsNumbered.nodesOf_shownLook {g : Graph} (h : g.IsNumbered) (colors : Bool) :
    (nodesOf 0 [] (g.nodes.map (Node.shownLook colors))).map
        (fun n => (n.id, n.shape, n.label)) =
      g.nodes.map fun n => (n.id, n.shape, n.shownLabel) := by
  rw [nodesOf_shown]
  apply List.ext_getElem (by simp)
  intro k bound' bound
  have hk : k < g.nodes.length := by simpa using bound
  rw [List.getElem_mapIdx, List.getElem_map, List.getElem_map, h.getElem hk]
  rfl

/-- **What is shown for a graph is read as the same drawing.** -/
theorem Graph.Shows.sameDrawing {g g' : Graph} {ls : List Look} {colors : Bool} (h : g.Shows ls)
    (shows : g'.Shows (g.nodes.map (Node.shownLook colors))) (edges : g'.edges = g.edges) :
    SameDrawing colors g g' := by
  -- with colours, those of the nodes are shown again
  have colours (hc : colors = true) : (g.nodes.map (Node.shownLook colors)).map
      (fun l => (l.fill, l.stroke)) = ls.map fun l => (l.fill, l.stroke) := by
    rw [← h.looks, List.map_map, List.map_map, hc]
    rfl
  refine ⟨?_, edges, ?_, ?_⟩
  · have shown := congrArg (List.map fun n => (n.id, n.shape, n.label)) shows.nodes
    rw [List.map_map, h.numbered.nodesOf_shownLook] at shown
    exact shown
  · intro hc
    have drawn := congrArg (List.map fun n => (n.fill, n.stroke, n.styleClass)) shows.nodes
    have read := congrArg (List.map fun n => (n.fill, n.stroke, n.styleClass)) h.nodes
    rw [(nodesOf_colours 0 [] (colours hc)).1, ← read, List.map_map, List.map_map] at drawn
    exact drawn
  · intro hc
    rw [shows.styles, h.styles]
    exact (nodesOf_colours 0 [] (colours hc)).2

namespace ReadFrom

variable {scene : List Element} {g : Graph}

theorem drawnEdge_eq (h : ReadFrom scene g) (hs : Drawable scene) (colors : Bool) {e : Edge}
    (he : e ∈ g.edges) : Layout.drawnEdge (draftOf colors g) e = e := by
  have writable := h.writable hs
  obtain ⟨source, target⟩ := writable.ends e he
  have tidy : cleanLabel e.label = e.label := (writable.edgeLabels e he).tidy
  rw [Layout.drawnEdge, draftOf_ids, h.numbered.nameAmong? source, h.numbered.nameAmong? target,
    tidy]
  rfl

/-- **What is drawn for a graph is read as the same drawing.** -/
theorem sameDrawing (h : ReadFrom scene g) (hs : Drawable scene) (colors : Bool) {g' : Graph}
    (shows : g'.Shows ((draftOf colors g).nodes.map (Layout.drawnLook (draftOf colors g))))
    (edges : g'.edges = (draftOf colors g).edges.map (Layout.drawnEdge (draftOf colors g))) :
    SameDrawing colors g g' := by
  have looks : (draftOf colors g).nodes.map (Layout.drawnLook (draftOf colors g)) =
      g.nodes.map (Node.shownLook colors) := by
    rw [draftOf, List.map_map]
    exact List.map_congr_left fun n hn => (h.writable hs).drawnLook (h.styled hs) colors hn
  rw [looks] at shows
  apply h.shows.sameDrawing shows
  rw [edges]
  exact map_eq_self fun e he => h.drawnEdge_eq hs colors he

end ReadFrom

/-! ## The round trip -/

theorem writeGraph_flowchart {g : Graph} {options : WriteOptions} {direction : Text}
    (plain : options.includeColors = true → ∀ s ∈ g.styles, IsColour s.fill ∧ IsColour s.stroke)
    (kind : DiagramType.ofJson options.diagramType = .ok .flowchart)
    (dir : readDirection options.direction = .ok direction) :
    writeGraph g options [] =
      .ok (joinLines (writtenLines direction options.includeColors g)) := by
  have written := flowchartLines_eq plain direction
  unfold writeGraph
  rw [kind]
  show (readDirection options.direction >>= _) = _
  rw [dir]
  show (flowchartLines g direction options.includeColors [] >>= _) = _
  rw [written]
  rfl

/--
**Flowchart round trip.** A scene that can be drawn has a flowchart in every direction, with colours
or without. The flowchart is rendered, the rendered scene is read as the same drawing, and it is
written as the same text. The titles of groups play no part in it.
-/
theorem flowchart_roundTrip {scene : List Element} (h : Drawable scene) {options : ConvertOptions}
    (kind : DiagramType.ofJson options.diagramType = .ok .flowchart) {direction : Text}
    (dir : readDirection options.direction = .ok direction)
    (ungrouped : options.includeGroups = false) :
    ∃ g code r, readGraph scene options.groupLabels = .ok g ∧
      convertScene scene options = .ok code ∧ renderDiagram code = .ok r ∧
      ∀ labels, ∃ g', readGraph r.elements labels = .ok g' ∧
        SameDrawing options.includeColors g g' ∧
        convertScene r.elements { options with groupLabels := labels } = .ok code := by
  obtain ⟨g, read, from_scene⟩ := h.read options.groupLabels
  have writable := from_scene.writable h
  let code := joinLines (writtenLines direction options.includeColors g)
  let draft := draftOf options.includeColors g
  have plain : ∀ s ∈ g.styles, IsColour s.fill ∧ IsColour s.stroke :=
    fun s hs => (writable.styles s hs).2
  have written : convertScene scene options = .ok code := by
    have text := writeGraph_flowchart (fun _ => plain) kind dir
    unfold convertScene
    rw [read, ungrouped]
    exact text
  have rendered : renderDiagram code = .ok (Layout.render draft) := by
    have drafted := readDiagram_written writable (mem_directions_of_readDirection dir)
      options.includeColors
    unfold renderDiagram
    rw [drafted]
    rfl
  refine ⟨g, code, Layout.render draft, read, written, rendered, ?_⟩
  intro labels
  have ends : Layout.EndsKnown draft := by
    intro e he
    show e.source ∈ (draftOf _ g).nodes.map _ ∧ e.target ∈ (draftOf _ g).nodes.map _
    rw [draftOf_ids]
    exact writable.ends e he
  obtain ⟨g', read', nodes, styles, edges⟩ := Layout.readGraph_render ends labels
  have same := from_scene.sameDrawing h options.includeColors ⟨nodes, styles⟩ edges
  refine ⟨g', read', same, ?_⟩
  have text : writeGraph g' options.toWriteOptions [] =
      .ok (joinLines (writtenLines direction options.includeColors g')) := by
    refine writeGraph_flowchart ?_ kind dir
    intro hc
    rw [same.styles hc]
    exact plain
  rw [same.writtenLines_eq] at text
  unfold convertScene
  rw [read', ungrouped]
  exact text

/-- A shape and an arrow with labels that have to be quoted, and a shape without label. -/
def sampleScene : List Element :=
  [{ id := "a".toList, type := "rectangle".toList, fill := .str "#ffec99".toList },
    { id := "s".toList, type := "text".toList, text := .str "load --> [\"save\"]; then|".toList,
      containerId := .str "a".toList },
    { id := "b".toList, type := "diamond".toList },
    { id := "e".toList, type := "arrow".toList, startId := some "a".toList,
      endId := some "b".toList },
    { id := "t".toList, type := "text".toList, text := .str "x -- y".toList,
      containerId := .str "e".toList }]

theorem drawable_sampleScene : Drawable sampleScene where
  distinct := by decide
  texts := by
    intro e he htext
    change e ∈ sampleScene at he
    simp only [sampleScene, List.mem_cons, List.not_mem_nil, or_false] at he
    rcases he with rfl | rfl | rfl | rfl | rfl
    · exact absurd htext (by decide)
    · exact ⟨fun _ => ⟨_, rfl⟩, fun _ => rfl⟩
    · exact absurd htext (by decide)
    · exact absurd htext (by decide)
    · exact ⟨fun _ => ⟨_, rfl⟩, fun _ => rfl⟩
  colours := by
    intro e he _
    change e ∈ sampleScene at he
    simp only [sampleScene, List.mem_cons, List.not_mem_nil, or_false] at he
    have absent : IsPlainOrAbsent .null := fun h => absurd h (by decide)
    have yellow : IsPlainOrAbsent (.str "#ffec99".toList) := fun _ => ⟨_, rfl, by decide⟩
    rcases he with rfl | rfl | rfl | rfl | rfl
    · exact ⟨yellow, absent⟩
    all_goals exact ⟨absent, absent⟩
  labels := by
    intro e he _
    change e ∈ sampleScene at he
    simp only [sampleScene, List.mem_cons, List.not_mem_nil, or_false] at he
    rcases he with rfl | rfl | rfl | rfl | rfl <;>
      exact isWritable_of_not_mem (by decide) (by decide) (by decide)

/-- The sample scene comes back from its flowchart. -/
theorem flowchart_roundTrip_sampleScene :
    Drawable sampleScene ∧ ∃ g code r, readGraph sampleScene [] = .ok g ∧
      convertScene sampleScene {} = .ok code ∧ renderDiagram code = .ok r ∧
      ∀ labels, ∃ g', readGraph r.elements labels = .ok g' ∧ SameDrawing true g g' ∧
        convertScene r.elements { groupLabels := labels } = .ok code :=
  ⟨drawable_sampleScene,
    @flowchart_roundTrip sampleScene drawable_sampleScene {} rfl "TD".toList rfl rfl⟩

end Drawbridge
