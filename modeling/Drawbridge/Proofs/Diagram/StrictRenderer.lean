import Drawbridge.Canvas
import Drawbridge.Proofs.Diagram.Integrity
import Drawbridge.Proofs.Diagram.StrictReaders
import Drawbridge.Proofs.Diagram.Subgraphs

/-!
Strict rendering. The layout looks up the groups of a node, the shapes at both ends of an edge and
the group of a title; nothing is left out, and a look-up in vain would be a failure of the program.
Edges lie between nodes that were mentioned and subgraphs are kept by their identifiers, so all that
is looked up is there.

* `readDiagram_keyed`: in a diagram that was read, nodes and subgraphs have names of their own;
* `layout_eq`: such a diagram is laid out;
* `render_or_reject`: a text is rendered or rejected, and nothing else can happen.
-/

namespace Drawbridge

/-! ## Diagrams with names -/

/-- No name of a node or subgraph is used twice, and edges lie between nodes. -/
structure Draft.Keyed (d : Draft) : Prop where
  nodes : (d.nodes.map (·.id)).Nodup
  titles : (d.titles.map Prod.fst).Nodup
  ends : Layout.EndsKnown d

/-- A class diagram has no subgraphs. -/
theorem ClassReader.titles_of_read {ls : List Text} {d : Draft} (run : read ls = .ok d) :
    d.titles = [] := by
  unfold read at run
  obtain ⟨st, lines, run⟩ := ok_of_bind run
  cases run
  apply keeps_of_takeIn (P := fun st : State => st.draft.titles = []) ?_ lines rfl
  intro st k l st' added none
  unfold State.addLine at added
  split at added
  · cases added
    exact none
  split at added
  · rename_i s _
    cases added
    cases s with
    | declare id label opensBody =>
      cases label with
      | none => exact (FlowchartReader.touch_titles st.draft id []).trans none
      | some l => exact (FlowchartReader.touch_titles st.draft id []).trans none
    | relate source target label =>
      exact (FlowchartReader.touch_titles _ target []).trans
        ((FlowchartReader.touch_titles st.draft source []).trans none)
    | skip => exact none
  · cases added

/-- Neither has a sequence diagram. -/
theorem SequenceReader.titles_of_read {ls : List Text} {d : Draft} (run : read ls = .ok d) :
    d.titles = [] := by
  apply keeps_of_takeIn (P := fun d : Draft => d.titles = []) ?_ run rfl
  intro d k l d' added none
  unfold addLine at added
  split at added
  · rename_i s _
    cases added
    cases s with
    | participant id label =>
      cases label with
      | none => exact (FlowchartReader.touch_titles d id []).trans none
      | some l => exact (FlowchartReader.touch_titles d id []).trans none
    | message source target label =>
      exact (FlowchartReader.touch_titles _ target []).trans
        ((FlowchartReader.touch_titles d source []).trans none)
    | skip => exact none
  · cases added

theorem titles_nodup {s : Text} {d : Draft} (read : readDiagram s = .ok d) :
    (d.titles.map Prod.fst).Nodup := by
  have untitled : d.titles = [] → (d.titles.map Prod.fst).Nodup := by
    intro none
    rw [none]
    exact List.nodup_nil
  unfold readDiagram at read
  split at read
  · cases read
  dsimp only at read
  split at read
  · obtain ⟨st, rfl, tracks⟩ := FlowchartReader.tracks_of_read read
    rw [tracks.keys]
    exact nodup_eraseDups _
  split at read
  · exact untitled (ClassReader.titles_of_read read)
  split at read
  · exact untitled (SequenceReader.titles_of_read read)
  · cases read

/-- **A diagram that was read goes by names.** -/
theorem readDiagram_keyed {s : Text} {d : Draft} (read : readDiagram s = .ok d) : d.Keyed := by
  obtain ⟨ms, -, recorded⟩ := readDiagram_records read
  refine ⟨?_, titles_nodup read, fun _ => recorded.known_ends⟩
  rw [recorded.nodes]
  exact nodup_eraseDups _

namespace Strict

/-! ## Layout -/

def groupsOf (ids : Dictionary Text) (n : DraftNode) : Except Failure (List Text) :=
  (n.groups.reverse.filter fun g => (ids.get? g).isSome).mapM (entry ids)

theorem groupsOf_eq (ids : Dictionary Text) (n : DraftNode) :
    groupsOf ids n = .ok (Layout.groupsOf ids n) := by
  apply mapM_filter_ok
  · intro g _ unknown
    exact Option.isNone_iff_eq_none.mp (Option.isSome_eq_false_iff.mp unknown)
  · intro g _ known
    obtain ⟨group, found⟩ := Option.isSome_iff_exists.mp known
    exact ⟨group, entry_ok found, found⟩

def nodeElements (d : Draft) (p : Layout.PlacedNode) : Except Failure (List Element) := do
  let groups ← groupsOf (Layout.groupIds d.titles) p.node
  let shape := { Layout.shapeOf d (Layout.placedEdges d) p with groupIds := groups }
  return shape :: (if p.node.label = [] then []
    else [Layout.textIn shape (Layout.numbered "text" (p.number + 1)) p.node.label groups])

theorem nodeElements_eq (d : Draft) (p : Layout.PlacedNode) :
    nodeElements d p = .ok (Layout.nodeElements d (Layout.placedEdges d) p) := by
  rw [nodeElements, groupsOf_eq]
  rfl

def shapes (d : Draft) : Dictionary Element :=
  Dictionary.ofList ((Layout.placedNodes d).map fun p =>
    (p.node.id, Layout.shapeOf d (Layout.placedEdges d) p))

def edgeElements (shapes : Dictionary Element) (p : Layout.PlacedEdge) :
    Except Failure (List Element) := do
  let start ← entry shapes p.edge.source
  let stop ← entry shapes p.edge.target
  let arrow := Layout.arrowOf p start stop
  return arrow :: (if p.edge.label = [] then []
    else [Layout.textIn arrow (Layout.numbered "text" (p.number + 1)) p.edge.label []])

def groupLabel (ids : Dictionary Text) : Text × Text → Except Failure (Text × Text)
  | (id, title) => do
    let group ← entry ids id
    return (group, title)

def layout (d : Draft) : Except Failure Rendering := do
  let ofNodes ← (Layout.placedNodes d).mapM (nodeElements d)
  let ofEdges ← (Layout.placedEdges d).mapM (edgeElements (shapes d))
  let groupLabels ← d.titles.mapM (groupLabel (Layout.groupIds d.titles))
  return { elements := ofNodes.flatten ++ ofEdges.flatten, groupLabels }

variable {d : Draft}

theorem entry_shapes (h : d.Keyed) {id : Text} (known : id ∈ d.nodes.map (·.id)) :
    ∃ shape, entry (shapes d) id = .ok shape ∧ Layout.shapeNamed? d id = some shape := by
  obtain ⟨p, found, named⟩ := Layout.exists_placed known
  have nodes : (Layout.placedNodes d).map (·.node) = d.nodes := Layout.placeNodes_map 0 _ d.nodes
  have distinct : (((Layout.placedNodes d).map fun p =>
      (p.node.id, Layout.shapeOf d (Layout.placedEdges d) p)).map Prod.fst).Nodup := by
    have ids := h.nodes
    rw [← nodes, List.map_map] at ids
    rw [List.map_map]
    exact ids
  have same : p.node.id = id := by simpa using List.find?_some found
  refine ⟨_, entry_ok ?_, named⟩
  apply Dictionary.get?_ofList_of_mem distinct
  exact List.mem_map.mpr ⟨p, List.mem_of_find?_eq_some found, by rw [same]⟩

theorem edgeElements_eq (h : d.Keyed) {q : Layout.PlacedEdge} (hq : q ∈ Layout.placedEdges d) :
    edgeElements (shapes d) q = .ok (Layout.edgeElements (Layout.shapeNamed? d) q) := by
  obtain ⟨source, target⟩ := Layout.ends_placed h.ends hq
  obtain ⟨start, hs, start_named⟩ := entry_shapes h source
  obtain ⟨stop, ht, stop_named⟩ := entry_shapes h target
  rw [edgeElements, hs, Layout.edgeElements_eq start_named stop_named]
  show (entry (shapes d) q.edge.target >>= _) = _
  rw [ht]
  rfl

theorem groupLabels_eq {titles : Dictionary Text} (h : (titles.map Prod.fst).Nodup) :
    titles.mapM (groupLabel (Layout.groupIds titles)) =
      .ok (titles.mapIdx fun i (_, title) => (Layout.numbered "group" (i + 1), title)) := by
  have each : ∀ t ∈ titles, groupLabel (Layout.groupIds titles) t =
      .ok (Layout.titleId titles t.1, t.2) := by
    rintro ⟨id, title⟩ ht
    rw [groupLabel, entry_ok (Layout.get?_groupIds (List.mem_map_of_mem ht))]
    rfl
  rw [mapM_ok each]
  congr 1
  apply List.ext_getElem (by simp)
  intro i hi hi'
  have inside : i < (titles.map Prod.fst).length := by simpa using hi
  have place := h.idxOf_getElem i inside
  rw [List.getElem_map] at place
  rw [List.getElem_map, List.getElem_mapIdx, Layout.titleId, place]

/-- **A diagram with names is laid out.** -/
theorem layout_eq (h : d.Keyed) : layout d = .ok (Layout.render d) := by
  rw [layout, mapM_ok fun p _ => nodeElements_eq d p, mapM_ok fun q hq => edgeElements_eq h hq,
    groupLabels_eq h.titles]
  rfl

/-! ## Rendering -/

def render : Renderer := fun s => do
  let d ← readDiagram s
  layout d

/--
**A text is rendered or rejected.** No item, key or piece is ever missing on the way, and what comes
out is what reading and laying out the text gives.
-/
theorem render_or_reject (s : Text) :
    (∃ r, render s = .ok r ∧ renderDiagram s = .ok r) ∨
      ∃ r, render s = .error (.rejected r) ∧ renderDiagram s = .error r := by
  unfold render renderDiagram
  rw [readDiagram_eq]
  cases read : Drawbridge.readDiagram s with
  | error r => exact .inr ⟨r, rfl, rfl⟩
  | ok d => exact .inl ⟨Layout.render d, layout_eq (readDiagram_keyed read), rfl⟩

end Strict

end Drawbridge
