import Drawbridge.Proofs.Diagram.Drafting
import Drawbridge.Proofs.Diagram.Layout

/-!
The scene of a diagram holds together. In a layout no identifier is used twice, arrows and texts are
bound to elements that list them, and groups have labels (`Rendering.Sound`, `Layout.render_sound`).
Reading the scene leaves nothing out: the graph has the nodes of the diagram in the order in which
they were first mentioned, and all its edges (`Graph.Mirrors`, `Layout.render_mirrored`). This holds
of whatever is rendered (`renderDiagram_sound`).
-/

namespace Drawbridge

/-! ## Scenes without loose ends -/

def Element.attachedTexts (e : Element) : List BoundElement :=
  e.boundElements.filter fun b => b.type = "text".toList

/-- A scene in which all that is referred to is there, and refers back. -/
structure Rendering.Sound (r : Rendering) : Prop where
  /-- No identifier is used twice. -/
  ids : (r.elements.map (·.id)).Nodup
  /-- Arrows are bound to shapes that list them. -/
  arrows : ∀ a ∈ r.elements, a.isArrow = true → ∃ start ∈ r.elements, ∃ stop ∈ r.elements,
    start.isShape = true ∧ stop.isShape = true ∧
    a.startId = some start.id ∧ a.endId = some stop.id ∧
    ⟨a.id, "arrow".toList⟩ ∈ start.boundElements ∧ ⟨a.id, "arrow".toList⟩ ∈ stop.boundElements
  /-- Texts lie in shapes and arrows that list no other. -/
  texts : ∀ t ∈ r.elements, t.isText = true → ∃ c ∈ r.elements,
    (c.isShape = true ∨ c.isArrow = true) ∧ t.containerId = .str c.id ∧
    c.attachedTexts = [⟨t.id, "text".toList⟩]
  /-- Groups have labels. -/
  groups : ∀ e ∈ r.elements, ∀ g ∈ e.groupIds, g ∈ r.groupLabels.map Prod.fst

/-- A graph has the nodes of a draft in their order and the edges between them; labels are tidy. -/
structure Graph.Mirrors (g : Graph) (d : Draft) : Prop where
  nodes : g.nodes.map (fun n => (n.id, n.shape, n.label)) =
    d.nodes.mapIdx fun k n => (nodeName k, n.shape, cleanLabel n.label)
  edges : g.edges = d.edges.map fun e =>
    { source := nodeName ((d.nodes.map (·.id)).idxOf e.source)
      target := nodeName ((d.nodes.map (·.id)).idxOf e.target)
      label := cleanLabel e.label }

theorem Dictionary.mem_of_get? {α : Type} {d : Dictionary α} {key : Text} {value : α}
    (h : d.get? key = some value) : (key, value) ∈ d := by
  induction d with
  | nil => cases h
  | cons p d ih =>
    rw [get?] at h
    split at h
    · rename_i here
      cases h
      exact here ▸ List.mem_cons_self
    · exact List.mem_cons_of_mem p (ih h)

namespace Layout

/-! ## Identifiers -/

def Carrier.ids (c : Carrier) : List Text :=
  c.owner :: if c.label = [] then [] else [numbered "text" (c.number + 1)]

theorem numbered_shape_ne_text (m n : Nat) : numbered "shape" m ≠ numbered "text" n :=
  fun h => absurd (List.cons.inj h).1 (by decide)

theorem numbered_arrow_ne_text (m n : Nat) : numbered "arrow" m ≠ numbered "text" n :=
  fun h => absurd (List.cons.inj h).1 (by decide)

namespace AreCarriers

variable {cs : List Carrier}

theorem owner_ne_text (h : AreCarriers cs) {c : Carrier} (hc : c ∈ cs) (n : Nat) :
    c.owner ≠ numbered "text" n := by
  rcases h.owners c hc with shape | arrow
  · rw [shape]
    exact numbered_shape_ne_text _ n
  · rw [arrow]
    exact numbered_arrow_ne_text _ n

theorem mem_ids {c : Carrier} {id : Text} (h : id ∈ c.ids) :
    id = c.owner ∨ id = numbered "text" (c.number + 1) := by
  rcases List.mem_cons.mp h with h | h
  · exact .inl h
  · split at h
    · cases h
    · exact .inr (List.mem_singleton.mp h)

/-- An identifier tells whose it is. -/
theorem eq_of_mem_ids (h : AreCarriers cs) {c c' : Carrier} (hc : c ∈ cs) (hc' : c' ∈ cs)
    {id : Text} (hid : id ∈ c.ids) (hid' : id ∈ c'.ids) : c = c' := by
  rcases mem_ids hid with owner | text <;> rcases mem_ids hid' with owner' | text'
  · exact h.eq_of_owner hc hc' (owner.symm.trans owner')
  · exact (h.owner_ne_text hc _ (owner.symm.trans text')).elim
  · exact (h.owner_ne_text hc' _ (owner'.symm.trans text)).elim
  · have numbers := numbered_injective rfl (text.symm.trans text')
    exact h.eq_of_number hc hc' (Nat.succ.inj numbers)

/-- **No identifier of a carrier or text is used twice.** -/
theorem ids_nodup (h : AreCarriers cs) : (cs.flatMap Carrier.ids).Nodup := by
  refine List.nodup_flatMap.mpr ⟨?_, ?_⟩
  · intro c hc
    unfold Carrier.ids
    split
    · exact List.nodup_singleton _
    · simpa using h.owner_ne_text hc _
  -- Two carriers in different places differ, since their numbers do.
  · have distinct : cs.Nodup := List.Nodup.of_map _ h.distinct
    refine distinct.imp_of_mem ?_
    intro c c' hc hc' other id hid hid'
    exact other (h.eq_of_mem_ids hc hc' hid hid')

end AreCarriers

variable {d : Draft}

theorem edgeElements_eq {shapeNamed? : Text → Option Element} {q : PlacedEdge}
    {start stop : Element} (hs : shapeNamed? q.edge.source = some start)
    (ht : shapeNamed? q.edge.target = some stop) :
    edgeElements shapeNamed? q = arrowOf q start stop :: if q.edge.label = [] then []
      else [textIn (arrowOf q start stop) (numbered "text" (q.number + 1)) q.edge.label []] := by
  rw [edgeElements, hs, ht]

theorem nodeElements_ids (d : Draft) (edges : List PlacedEdge) (p : PlacedNode) :
    (nodeElements d edges p).map (·.id) = (nodeCarrier p).ids := by
  unfold nodeElements Carrier.ids nodeCarrier
  dsimp only
  split <;> rfl

theorem edgeElements_ids (h : EndsKnown d) {q : PlacedEdge} (hq : q ∈ placedEdges d) :
    (edgeElements (shapeNamed? d) q).map (·.id) = (edgeCarrier q).ids := by
  obtain ⟨p, -, start⟩ := exists_placed (ends_placed h hq).1
  obtain ⟨r, -, stop⟩ := exists_placed (ends_placed h hq).2
  rw [edgeElements_eq start stop]
  unfold Carrier.ids edgeCarrier
  dsimp only
  split <;> rfl

theorem render_ids (h : EndsKnown d) :
    (render d).elements.map (·.id) = (carriers d).flatMap Carrier.ids := by
  have nodes : ∀ p ∈ placedNodes d,
      (nodeElements d (placedEdges d) p).map (·.id) = (nodeCarrier p).ids :=
    fun p _ => nodeElements_ids d (placedEdges d) p
  have edges : ∀ q ∈ placedEdges d,
      (edgeElements (shapeNamed? d) q).map (·.id) = (edgeCarrier q).ids :=
    fun q hq => edgeElements_ids h hq
  rw [render_elements, List.map_append, List.map_flatMap, List.map_flatMap,
    List.flatMap_congr nodes, List.flatMap_congr edges, carriers, List.flatMap_append,
    List.flatMap_map, List.flatMap_map]

/-! ## References -/

/-- The placed node with a name, and its shape. -/
theorem exists_shapeNamed {id : Text} (h : id ∈ d.nodes.map (·.id)) :
    ∃ p ∈ placedNodes d, p.node.id = id ∧
      shapeNamed? d id = some (shapeOf d (placedEdges d) p) := by
  obtain ⟨p, found, shape⟩ := exists_placed h
  have same := List.find?_some found
  exact ⟨p, List.mem_of_find?_eq_some found, of_decide_eq_true same, shape⟩

theorem mem_carrier_text {carrier text e : Element} {label : Text}
    (he : e ∈ carrier :: if label = [] then [] else [text]) :
    e = carrier ∨ label ≠ [] ∧ e = text := by
  rcases List.mem_cons.mp he with rfl | he
  · exact .inl rfl
  · split at he
    · cases he
    · rename_i labelled
      exact .inr ⟨labelled, List.mem_singleton.mp he⟩

/-- What is drawn is the shape of a node, the arrow of an edge between two shapes, or the text of
one of them. -/
theorem mem_render_cases (h : EndsKnown d) {e : Element} (he : e ∈ (render d).elements) :
    (∃ p ∈ placedNodes d, e = shapeOf d (placedEdges d) p ∨ p.node.label ≠ [] ∧
      e = textIn (shapeOf d (placedEdges d) p) (numbered "text" (p.number + 1)) p.node.label
        (shapeOf d (placedEdges d) p).groupIds) ∨
    ∃ q ∈ placedEdges d, ∃ start ∈ placedNodes d, ∃ stop ∈ placedNodes d,
      start.node.id = q.edge.source ∧ stop.node.id = q.edge.target ∧
      ∃ arrow, arrow = arrowOf q (shapeOf d (placedEdges d) start)
          (shapeOf d (placedEdges d) stop) ∧
        arrow ∈ (render d).elements ∧ (e = arrow ∨ q.edge.label ≠ [] ∧
          e = textIn arrow (numbered "text" (q.number + 1)) q.edge.label []) := by
  rw [render_elements] at he
  rcases List.mem_append.mp he with he | he
  · obtain ⟨p, hp, he⟩ := List.mem_flatMap.mp he
    exact .inl ⟨p, hp, mem_carrier_text he⟩
  · obtain ⟨q, hq, he⟩ := List.mem_flatMap.mp he
    obtain ⟨p, hp, source, start⟩ := exists_shapeNamed (ends_placed h hq).1
    obtain ⟨r, hr, target, stop⟩ := exists_shapeNamed (ends_placed h hq).2
    have elements := edgeElements_eq start stop
    refine .inr ⟨q, hq, p, hp, r, hr, source, target, _, rfl, ?_, ?_⟩
    · rw [render_elements]
      refine List.mem_append_right _ (List.mem_flatMap.mpr ⟨q, hq, ?_⟩)
      rw [elements]
      exact List.mem_cons_self
    · rw [elements] at he
      exact mem_carrier_text he

theorem shapeOf_mem {p : PlacedNode} (hp : p ∈ placedNodes d) :
    shapeOf d (placedEdges d) p ∈ (render d).elements := by
  rw [render_elements]
  exact List.mem_append_left _ (List.mem_flatMap.mpr ⟨p, hp, List.mem_cons_self⟩)

theorem shapeOf_isShape (d : Draft) (edges : List PlacedEdge) (p : PlacedNode) :
    (shapeOf d edges p).isShape = true := by
  have named : (shapeOf d edges p).shape? = some p.node.shape := (shape_name p.node.shape).1
  rw [Element.isShape, named]
  rfl

theorem mem_arrowsAt {edges : List PlacedEdge} {q : PlacedEdge} (hq : q ∈ edges) {id : Text}
    (h : id = q.edge.source ∨ id = q.edge.target) :
    ⟨numbered "arrow" q.number, "arrow".toList⟩ ∈ arrowsAt edges id := by
  refine List.mem_flatMap.mpr ⟨q, hq, ?_⟩
  rcases h with rfl | rfl <;> simp

theorem arrow_listed {q : PlacedEdge} (hq : q ∈ placedEdges d) {p : PlacedNode}
    (h : p.node.id = q.edge.source ∨ p.node.id = q.edge.target) :
    ⟨numbered "arrow" q.number, "arrow".toList⟩ ∈
      (shapeOf d (placedEdges d) p).boundElements :=
  List.mem_append_right _ (mem_arrowsAt hq h)

theorem filter_textEntry {label : Text} (labelled : label ≠ []) (n : Nat) {bs : List BoundElement}
    (h : bs.find? (fun b => b.type = "text".toList) = none) :
    (textEntry label n ++ bs).filter (fun b => b.type = "text".toList) =
      [⟨numbered "text" n, "text".toList⟩] := by
  have others : bs.filter (fun b => b.type = "text".toList) = [] :=
    List.filter_eq_nil_iff.mpr (List.find?_eq_none.mp h)
  rw [List.filter_append, others, List.append_nil, textEntry, if_neg labelled]
  rfl

theorem shapeOf_attachedTexts {p : PlacedNode} (labelled : p.node.label ≠ []) :
    (shapeOf d (placedEdges d) p).attachedTexts =
      [⟨numbered "text" (p.number + 1), "text".toList⟩] :=
  filter_textEntry labelled (p.number + 1) (find?_arrowsAt (placedEdges d) p.node.id)

theorem arrowOf_attachedTexts {q : PlacedEdge} (labelled : q.edge.label ≠ [])
    (start stop : Element) :
    (arrowOf q start stop).attachedTexts = [⟨numbered "text" (q.number + 1), "text".toList⟩] := by
  have alone := filter_textEntry labelled (q.number + 1) (show List.find? _ [] = none from rfl)
  rw [List.append_nil] at alone
  exact alone

theorem groupsOf_labelled {n : DraftNode} {g : Text} (h : g ∈ groupsOf (groupIds d.titles) n) :
    g ∈ (render d).groupLabels.map Prod.fst := by
  have keys : (render d).groupLabels.map Prod.fst = (groupIds d.titles).map Prod.snd := by
    apply List.ext_getElem?
    intro i
    simp [render, groupIds, Function.comp_def]
  obtain ⟨name, -, here⟩ := List.mem_filterMap.mp h
  rw [keys]
  exact List.mem_map_of_mem (Dictionary.mem_of_get? here)

/-- **A layout holds together.** -/
theorem render_sound (h : EndsKnown d) : (render d).Sound where
  ids := by
    rw [render_ids h]
    exact (areCarriers d).ids_nodup
  arrows := by
    intro a ha kind
    rcases mem_render_cases h ha with ⟨p, -, rfl | ⟨-, rfl⟩⟩ |
      ⟨q, hq, p, hp, r, hr, source, target, arrow, rfl, -, rfl | ⟨-, rfl⟩⟩
    · rw [(shapeOf_kind d (placedEdges d) p).2] at kind
      cases kind
    · cases kind
    · exact ⟨_, shapeOf_mem hp, _, shapeOf_mem hr, shapeOf_isShape _ _ p, shapeOf_isShape _ _ r,
        rfl, rfl, arrow_listed hq (.inl source), arrow_listed hq (.inr target)⟩
    · cases kind
  texts := by
    intro t ht kind
    rcases mem_render_cases h ht with ⟨p, hp, rfl | ⟨labelled, rfl⟩⟩ |
      ⟨q, hq, p, hp, r, hr, source, target, arrow, rfl, drawn, rfl | ⟨labelled, rfl⟩⟩
    · rw [(shapeOf_kind d (placedEdges d) p).1] at kind
      cases kind
    · exact ⟨_, shapeOf_mem hp, .inl (shapeOf_isShape _ _ p), rfl, shapeOf_attachedTexts labelled⟩
    · cases kind
    · exact ⟨_, drawn, .inr rfl, rfl, arrowOf_attachedTexts labelled _ _⟩
  groups := by
    intro e he g hg
    rcases mem_render_cases h he with ⟨p, hp, rfl | ⟨-, rfl⟩⟩ |
      ⟨q, hq, p, hp, r, hr, source, target, arrow, rfl, -, rfl | ⟨-, rfl⟩⟩
    · exact groupsOf_labelled hg
    · exact groupsOf_labelled hg
    · cases hg
    · cases hg

/-! ## Reading -/

theorem nameAmong?_idxOf {ids : List Text} {id : Text} (h : id ∈ ids) :
    nameAmong? ids id = some (nodeName (ids.idxOf id)) := by
  have place : ids.idxOf? id = some (ids.idxOf id) :=
    List.findIdx?_eq_some_iff_findIdx_eq.mpr ⟨List.idxOf_lt_length_iff.mpr h, rfl⟩
  rw [nameAmong?, place]
  rfl

/-- **The scene is read as the diagram that was laid out.** -/
theorem render_mirrored (h : EndsKnown d) (labels : Dictionary Text) :
    ∃ g, readGraph (render d).elements labels = .ok g ∧ g.Mirrors d := by
  obtain ⟨g, read, nodes, -, edges⟩ := readGraph_render h labels
  refine ⟨g, read, shown_of_looks nodes, ?_⟩
  rw [edges]
  apply List.map_congr_left
  intro e he
  obtain ⟨source, target⟩ := h e he
  rw [drawnEdge, nameAmong?_idxOf source, nameAmong?_idxOf target]
  rfl

end Layout

/--
**The scene of a diagram that is rendered holds together and shows the diagram.** Its nodes are those
that the text mentions, in the order of their first mention, and its edges are those of the text.
-/
theorem renderDiagram_sound {s : Text} {r : Rendering} (rendered : renderDiagram s = .ok r) :
    r.Sound ∧
    ∃ d, readDiagram s = .ok d ∧
      d.nodes.map (·.id) = (diagramScript s).mentions.eraseDups ∧
      d.edges = (diagramScript s).edges ∧
      (∀ e ∈ d.edges, e.source ∈ d.nodes.map (·.id) ∧ e.target ∈ d.nodes.map (·.id)) ∧
      ∀ labels, ∃ g, readGraph r.elements labels = .ok g ∧ g.Mirrors d := by
  unfold renderDiagram at rendered
  cases read : readDiagram s with
  | error e =>
    rw [read] at rendered
    cases rendered
  | ok d =>
    rw [read] at rendered
    cases rendered
    obtain ⟨ms, mentions, recorded⟩ := readDiagram_records read
    have known : Layout.EndsKnown d := fun e he => recorded.known_ends he
    refine ⟨Layout.render_sound known, d, rfl, ?_, recorded.edges, known,
      Layout.render_mirrored known⟩
    rw [recorded.nodes, mentions]

/-- A flowchart with a chain, an edge from a node to itself, a style for a node before it is declared,
a subgraph that is opened twice, and a node that is declared anew. -/
def busyText : Text :=
  ("flowchart TD\nsubgraph one[First]\nA[Start] --> B{Again?} --> C\nB -->|two   words| B\nend\n" ++
    "class D,A hot\nsubgraph one[Second]\nA((Round)) --> D\nend\nclassDef hot fill:#f00").toList

def busyDraft : Draft where
  nodes :=
    [⟨['A'], "Round".toList, .ellipse, "hot".toList, ["one".toList]⟩,
      ⟨['B'], "Again?".toList, .diamond, [], ["one".toList]⟩,
      ⟨['C'], ['C'], .box, [], ["one".toList]⟩,
      ⟨['D'], ['D'], .box, "hot".toList, ["one".toList]⟩]
  edges := [⟨['A'], ['B'], []⟩, ⟨['B'], ['C'], []⟩, ⟨['B'], ['B'], "two   words".toList⟩,
    ⟨['A'], ['D'], []⟩]
  classDefs := [("hot".toList, [("fill".toList, "#f00".toList)])]
  titles := [("one".toList, "Second".toList)]

/-- None of its nodes and edges is left out. -/
theorem renderDiagram_sound_busyText :
    ∃ r, renderDiagram busyText = .ok r ∧ r.Sound ∧
      ∃ g, readGraph r.elements r.groupLabels = .ok g ∧
        g.nodes.map (fun n => (n.id, n.shape, n.label)) =
          [(['A'], .ellipse, "Round".toList), (['B'], .diamond, "Again?".toList),
            (['C'], .box, ['C']), (['D'], .box, ['D'])] ∧
        g.edges = [⟨['A'], ['B'], []⟩, ⟨['B'], ['C'], []⟩, ⟨['B'], ['B'], "two words".toList⟩,
          ⟨['A'], ['D'], []⟩] := by
  have read : readDiagram busyText = .ok busyDraft := by
    apply eq_ok_of_toOption
    decide +kernel
  have rendered : renderDiagram busyText = .ok (Layout.render busyDraft) := by
    rw [renderDiagram, read]
    rfl
  obtain ⟨sound, d, same, -, -, -, shown⟩ := renderDiagram_sound rendered
  obtain rfl := Except.ok.inj (read.symm.trans same)
  obtain ⟨g, graph, nodes, edges⟩ := shown (Layout.render busyDraft).groupLabels
  refine ⟨_, rendered, sound, g, graph, nodes.trans ?_, edges.trans ?_⟩ <;> decide +kernel

end Drawbridge
