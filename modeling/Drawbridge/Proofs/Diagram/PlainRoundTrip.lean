import Drawbridge.Proofs.Diagram.ClassReader
import Drawbridge.Proofs.Diagram.RoundTrip
import Drawbridge.Proofs.Diagram.SequenceReader

/-!
From a scene to a class diagram or a sequence diagram and back. Neither keeps all of a graph: a
class diagram leaves out the labels of arrows and some characters of the labels of nodes
(`ClassCopy`), a sequence diagram knows no nodes but the ends of its arrows, and these are numbered
as they come (`SequenceCopy`). What the diagrams do keep comes back.

* `classDraft_eq`, `sequenceDraft_eq`: what is read of a written class or sequence diagram;
* `plain_roundTrip`: how the graph of a scene comes back from either.
-/

namespace Drawbridge

/-! ## Copies of a graph -/

theorem IsWritable.isUnmarked {s : Text} (h : IsWritable s) : IsUnmarked s :=
  ⟨h.fence, h.tag⟩

/-- The label that a node has after a class diagram: what is left of its own, or else its name. -/
def Node.classShown (n : Node) : Text :=
  if classLabel n.label = [] then n.id else cleanLabel (classLabel n.label)

/-- What comes back of a graph from a class diagram: all nodes and edges, without the labels of
edges. -/
structure ClassCopy (g g' : Graph) : Prop where
  nodes : g'.nodes.map (fun n => (n.id, n.label)) = g.nodes.map fun n => (n.id, n.classShown)
  edges : g'.edges = g.edges.map fun e => { e with label := [] }

def endsOf (es : List Edge) : List Text :=
  es.flatMap fun e => [e.source, e.target]

/-- The participants of a sequence diagram, in the order in which they first appear. -/
def participants (g : Graph) : List Text :=
  (endsOf g.edges).eraseDups

/-- The name that a participant has after a sequence diagram. -/
def participantName (g : Graph) (id : Text) : Text :=
  nodeName ((participants g).idxOf id)

/--
What comes back of a graph from a sequence diagram: its participants under new names, labelled with
the old ones, and all edges between them.
-/
structure SequenceCopy (g g' : Graph) : Prop where
  injective : ∀ p ∈ participants g, ∀ q ∈ participants g,
    participantName g p = participantName g q → p = q
  nodes : g'.nodes.map (fun n => (n.id, n.label)) =
    (participants g).map fun p => (participantName g p, p)
  edges : g'.edges = g.edges.map fun e =>
    { e with source := participantName g e.source, target := participantName g e.target }

/-- The diagram of a scene is rendered, and what can be read of it is as described. -/
def ComesBack (scene : List Element) (options : ConvertOptions) (P : Graph → Prop) : Prop :=
  ∃ code r, convertScene scene options = .ok code ∧ renderDiagram code = .ok r ∧
    ∀ labels, ∃ g', readGraph r.elements labels = .ok g' ∧ P g'

/-- What is read of the text of a graph decides what comes back. -/
theorem comesBack_of_draft {scene : List Element} {options : ConvertOptions} {P : Graph → Prop}
    {g : Graph} {code : Text} {d : Draft} (read : readGraph scene options.groupLabels = .ok g)
    (written : ∀ blocks, writeGraph g options.toWriteOptions blocks = .ok code)
    (drafted : readDiagram code = .ok d) (ends : Layout.EndsKnown d)
    (copy : ∀ g' : Graph,
      g'.nodes.map (fun n => (n.id, n.label)) =
        d.nodes.mapIdx (fun i n => (nodeName i, cleanLabel n.label)) →
      g'.edges = d.edges.map (Layout.drawnEdge d) → P g') :
    ComesBack scene options P := by
  have converted : convertScene scene options = .ok code := by
    unfold convertScene
    rw [read]
    exact written _
  have rendered : renderDiagram code = .ok (Layout.render d) := by
    rw [renderDiagram, drafted]
    rfl
  refine ⟨code, Layout.render d, converted, rendered, fun labels => ?_⟩
  obtain ⟨g', read', nodes, -, edges⟩ := Layout.readGraph_render ends labels
  refine ⟨g', read', copy g' ?_ edges⟩
  have labels := congrArg (List.map fun (id, _, label) => (id, label)) (Layout.shown_of_looks nodes)
  simpa [List.mapIdx_eq_zipIdx_map, Function.comp_def] using labels

/-! ## Class diagrams -/

def classNode (n : Node) : DraftNode where
  id := n.id
  label := if classLabel n.label = [] then n.id else classLabel n.label

theorem classNode_ids (ns : List Node) : (ns.map classNode).map (·.id) = ns.map (·.id) := by
  rw [List.map_map]
  rfl

namespace ClassReader

theorem add_declare {d : Draft} {n : Node} (new : n.id ∉ d.nodes.map (·.id))
    (whole : IsUnmarked (classLabel n.label)) :
    State.add ⟨d, false⟩ (declare n) = ⟨{ d with nodes := d.nodes ++ [classNode n] }, false⟩ := by
  have touched := Draft.touch_new new []
  unfold declare declaredLabel? classNode
  by_cases empty : classLabel n.label = []
  · rw [if_pos empty, if_pos empty, Option.map_none, State.add, touched]
  · have trimmed : strip (classLabel n.label) = classLabel n.label := strip_strip _
    have changed : (d.nodes ++ [({ id := n.id, label := n.id } : DraftNode)]).map (fun m =>
        if m.id = n.id then { m with label := classLabel n.label } else m) =
          d.nodes ++ [{ id := n.id, label := classLabel n.label }] := by
      rw [List.map_append, Draft.map_update_of_not_mem new]
      simp
    rw [if_neg empty, if_neg empty, Option.map_some, whole.unmarked_eq, State.add, touched]
    simp only [Draft.update, trimmed, empty, if_false, changed]

theorem foldl_declare {ns : List Node} (labels : ∀ n ∈ ns, IsUnmarked (classLabel n.label))
    (d : Draft) (distinct : (d.nodes.map (·.id) ++ ns.map (·.id)).Nodup) :
    (ns.map declare).foldl State.add ⟨d, false⟩ =
      ⟨{ d with nodes := d.nodes ++ ns.map classNode }, false⟩ := by
  induction ns generalizing d with
  | nil =>
    have none_added : d.nodes ++ [].map classNode = d.nodes := List.append_nil _
    rw [none_added]
    rfl
  | cons n ns ih =>
    have new : n.id ∉ d.nodes.map (·.id) := by
      intro hm
      exact (List.nodup_append.mp distinct).2.2 _ hm _ List.mem_cons_self rfl
    have rest := ih (fun m hm => labels m (List.mem_cons_of_mem n hm))
      { d with nodes := d.nodes ++ [classNode n] } (by simpa [classNode] using distinct)
    rw [List.append_assoc] at rest
    rw [List.map_cons, List.foldl_cons, add_declare new (labels n List.mem_cons_self), rest]
    rfl

theorem foldl_inherit {es : List Edge} (d : Draft)
    (known : ∀ e ∈ es, e.source ∈ d.nodes.map (·.id) ∧ e.target ∈ d.nodes.map (·.id)) :
    (es.map inherit).foldl State.add ⟨d, false⟩ =
      ⟨{ d with edges := d.edges ++ es.map fun e => { e with label := [] } }, false⟩ := by
  induction es generalizing d with
  | nil =>
    have none_added : d.edges ++ ([] : List Edge).map (fun e => { e with label := [] }) = d.edges :=
      List.append_nil _
    rw [none_added]
    rfl
  | cons e es ih =>
    obtain ⟨source, target⟩ := known e List.mem_cons_self
    have first : State.add ⟨d, false⟩ (inherit e) =
        ⟨{ d with edges := d.edges ++ [{ e with label := [] }] }, false⟩ := by
      rw [inherit, State.add, Draft.touch_known source, Draft.touch_known target]
      rfl
    have rest := ih { d with edges := d.edges ++ [{ e with label := [] }] }
      (fun a ha => known a (List.mem_cons_of_mem e ha))
    rw [List.append_assoc] at rest
    rw [List.map_cons, List.foldl_cons, first, rest]
    rfl

end ClassReader

/-- **A class diagram is read as its classes and inheritances.** -/
theorem classDraft_eq {g : Graph} (distinct : (g.nodes.map (·.id)).Nodup)
    (ends : ∀ e ∈ g.edges, e.source ∈ g.nodes.map (·.id) ∧ e.target ∈ g.nodes.map (·.id))
    (labels : ∀ n ∈ g.nodes, IsUnmarked (classLabel n.label)) :
    classDraft g =
      { nodes := g.nodes.map classNode, edges := g.edges.map fun e => { e with label := [] } } := by
  have nodes := ClassReader.foldl_declare labels {} (by simpa using distinct)
  have edges := ClassReader.foldl_inherit { nodes := g.nodes.map classNode }
    (by rwa [classNode_ids])
  rw [List.nil_append] at nodes
  rw [classDraft, List.foldl_append, nodes, edges]
  rfl

/-! ## Sequence diagrams -/

def participantNode (id : Text) : DraftNode := { id, label := id }

theorem participantNode_ids (ids : List Text) : (ids.map participantNode).map (·.id) = ids := by
  rw [List.map_map]
  exact List.map_id ids

namespace SequenceReader

theorem touch_participant (ids : List Text) (es : List Edge) (id : Text) :
    Draft.touch { nodes := ids.eraseDups.map participantNode, edges := es } id [] =
      { nodes := (ids ++ [id]).eraseDups.map participantNode, edges := es } := by
  by_cases old : id ∈ ids
  · rw [eraseDups_concat, if_pos old]
    apply Draft.touch_known
    rwa [participantNode_ids, List.mem_eraseDups]
  · rw [eraseDups_concat, if_neg old, List.map_append]
    apply Draft.touch_new
    rwa [participantNode_ids, List.mem_eraseDups]

theorem foldl_addMessage {es : List Edge} (labels : ∀ e ∈ es, strip (unmarked e.label) = e.label)
    (ids : List Text) (before : List Edge) :
    es.foldl (fun d e => addMessage d e (strip (unmarked e.label)))
        { nodes := ids.eraseDups.map participantNode, edges := before } =
      { nodes := (ids ++ endsOf es).eraseDups.map participantNode, edges := before ++ es } := by
  induction es generalizing ids before with
  | nil =>
    rw [endsOf, List.flatMap_nil, List.append_nil, List.append_nil]
    rfl
  | cons e es ih =>
    have ends : ids ++ endsOf (e :: es) = ids ++ [e.source] ++ [e.target] ++ endsOf es := by
      simp [endsOf]
    have first : addMessage { nodes := ids.eraseDups.map participantNode, edges := before } e
        (strip (unmarked e.label)) =
          { nodes := (ids ++ [e.source] ++ [e.target]).eraseDups.map participantNode,
            edges := before ++ [e] } := by
      rw [addMessage, touch_participant, touch_participant, labels e List.mem_cons_self]
      rfl
    rw [List.foldl_cons, first, ih (fun a ha => labels a (List.mem_cons_of_mem e ha)), ends,
      List.append_assoc before]
    rfl

end SequenceReader

/-- **A sequence diagram is read as its participants and messages.** -/
theorem sequenceDraft_eq {g : Graph} (h : g.Sound) (labels : ∀ e ∈ g.edges, IsUnmarked e.label) :
    sequenceDraft g = { nodes := (participants g).map participantNode, edges := g.edges } := by
  have trimmed : ∀ e ∈ g.edges, strip (unmarked e.label) = e.label := by
    intro e he
    rw [(labels e he).unmarked_eq, (h.edges e he).2.2.strip_eq]
  exact SequenceReader.foldl_addMessage trimmed [] []

/-! ## The round trips -/

theorem writeGraph_class {g : Graph} {options : WriteOptions}
    (kind : DiagramType.ofJson options.diagramType = .ok .classDiagram) (blocks : List Block) :
    writeGraph g options blocks = .ok (joinLines (classLines g)) := by
  unfold writeGraph
  rw [kind]
  rfl

theorem writeGraph_sequence {g : Graph} {options : WriteOptions}
    (kind : DiagramType.ofJson options.diagramType = .ok .sequenceDiagram) (blocks : List Block) :
    writeGraph g options blocks = .ok (joinLines (sequenceLines g)) := by
  unfold writeGraph
  rw [kind]
  rfl

namespace ReadFrom

variable {scene : List Element} {g g' : Graph}

/-- **What is drawn of a class diagram is read as a copy of its graph.** -/
theorem classCopy (h : ReadFrom scene g) (sound : g.Sound) {d : Draft}
    (drafted : d =
      { nodes := g.nodes.map classNode, edges := g.edges.map fun e => { e with label := [] } })
    (nodes : g'.nodes.map (fun n => (n.id, n.label)) =
      d.nodes.mapIdx fun i n => (nodeName i, cleanLabel n.label))
    (edges : g'.edges = d.edges.map (Layout.drawnEdge d)) : ClassCopy g g' := by
  subst drafted
  constructor
  · rw [nodes]
    apply List.ext_getElem (by simp)
    intro k bound' bound
    have hk : k < g.nodes.length := by simpa using bound
    have label : cleanLabel (classNode g.nodes[k]).label = g.nodes[k].classShown := by
      unfold classNode Node.classShown
      split
      · exact (sound.nodes _ (List.getElem_mem hk)).1.isLabel.tidy
      · rfl
    simp only [List.getElem_mapIdx, List.getElem_map, label, h.numbered.getElem hk]
  · rw [edges, List.map_map]
    apply List.map_congr_left
    intro e he
    obtain ⟨source, target, -⟩ := h.mem_edges he
    show Layout.drawnEdge _ { e with label := [] } = _
    rw [Layout.drawnEdge, classNode_ids, h.numbered.nameAmong? source, h.numbered.nameAmong? target]
    rfl

end ReadFrom

theorem participants_nodup (g : Graph) : (participants g).Nodup :=
  nodup_eraseDups _

theorem nameAmong?_participants {g : Graph} {id : Text} (h : id ∈ participants g) :
    nameAmong? (participants g) id = some (participantName g id) := by
  have bound := List.idxOf_lt_length_iff.mpr h
  have name := nameAmong?_getElem (participants_nodup g) bound
  rwa [List.getElem_idxOf] at name

theorem mem_participants {g : Graph} {e : Edge} (he : e ∈ g.edges) :
    e.source ∈ participants g ∧ e.target ∈ participants g := by
  have ends : ∀ id ∈ [e.source, e.target], id ∈ participants g := fun id hid =>
    List.mem_eraseDups.mpr (List.mem_flatMap.mpr ⟨e, he, hid⟩)
  exact ⟨ends _ List.mem_cons_self, ends _ (List.mem_cons_of_mem _ List.mem_cons_self)⟩

theorem participants_isName {g : Graph} (h : g.Sound) {id : Text} (hid : id ∈ participants g) :
    IsName id := by
  obtain ⟨e, he, hid⟩ := List.mem_flatMap.mp (List.mem_eraseDups.mp hid)
  obtain ⟨source, target, -⟩ := h.edges e he
  simp only [List.mem_cons, List.not_mem_nil, or_false] at hid
  rcases hid with rfl | rfl
  · exact source
  · exact target

/-- **What is drawn of a sequence diagram is read as a copy of its graph.** -/
theorem sequenceCopy {g g' : Graph} (h : g.Sound) {d : Draft}
    (drafted : d = { nodes := (participants g).map participantNode, edges := g.edges })
    (nodes : g'.nodes.map (fun n => (n.id, n.label)) =
      d.nodes.mapIdx fun i n => (nodeName i, cleanLabel n.label))
    (edges : g'.edges = d.edges.map (Layout.drawnEdge d)) : SequenceCopy g g' := by
  subst drafted
  refine ⟨?_, ?_, ?_⟩
  · intro p hp q hq same
    exact (List.idxOf_inj hp).mp (nodeName_injective same)
  · rw [nodes]
    apply List.ext_getElem (by simp)
    intro k bound' bound
    have hk : k < (participants g).length := by simpa using bound
    have label : cleanLabel (participants g)[k] = (participants g)[k] :=
      (participants_isName h (List.getElem_mem hk)).isLabel.tidy
    simp [participantNode, participantName, label, (participants_nodup g).idxOf_getElem]
  · rw [edges]
    apply List.map_congr_left
    intro e he
    obtain ⟨source, target⟩ := mem_participants he
    have label : cleanLabel e.label = e.label := (h.edges e he).2.2
    rw [Layout.drawnEdge, participantNode_ids, nameAmong?_participants source,
      nameAmong?_participants target, label]
    rfl

/--
**Round trips of class diagrams and sequence diagrams.** A scene that can be read (by
`readGraph_eq_ok_iff`, one that has a graph) and whose shapes have identifiers of their own has a
diagram of either kind, which is rendered and read as a copy of its graph. Only fences and
line-break tags are kept out: of what a class diagram leaves of the labels of nodes, and of the
labels of edges in a sequence diagram.
-/
theorem plain_roundTrip {scene : List Element} (readable : Readable scene)
    (distinct : (((liveElements scene).filter Element.isShape).map (·.id)).Nodup)
    (options : ConvertOptions) :
    ∃ g, readGraph scene options.groupLabels = .ok g ∧
      (DiagramType.ofJson options.diagramType = .ok .classDiagram →
        (∀ n ∈ g.nodes, IsUnmarked (classLabel n.label)) →
          ComesBack scene options (ClassCopy g)) ∧
      (DiagramType.ofJson options.diagramType = .ok .sequenceDiagram →
        (∀ e ∈ g.edges, IsUnmarked e.label) → ComesBack scene options (SequenceCopy g)) := by
  have distinctShapes : ((sceneShapes scene).map (·.element.id)).Nodup := by
    rwa [sceneShapes_map_id]
  obtain ⟨g, read, nodes, styles, edges⟩ :=
    readGraph_eq readable distinctShapes options.groupLabels
  have sound := readGraph_sound read
  have from_scene : ReadFrom scene g := ⟨nodes, styles, edges⟩
  have ends : ∀ e ∈ g.edges,
      e.source ∈ g.nodes.map (·.id) ∧ e.target ∈ g.nodes.map (·.id) :=
    fun e he => ⟨(from_scene.mem_edges he).1, (from_scene.mem_edges he).2.1⟩
  refine ⟨g, read, ?_, ?_⟩
  · intro kind labels
    have draft := classDraft_eq from_scene.numbered.nodup ends labels
    have known : Layout.EndsKnown (classDraft g) := by
      rw [draft]
      intro a ha
      obtain ⟨e, he, rfl⟩ := List.mem_map.mp ha
      rw [classNode_ids]
      exact ends e he
    exact comesBack_of_draft read (writeGraph_class kind) (readDiagram_classLines sound) known
      fun g' => from_scene.classCopy sound draft
  · intro kind labels
    have draft := sequenceDraft_eq sound labels
    have known : Layout.EndsKnown (sequenceDraft g) := by
      rw [draft]
      intro e he
      rw [participantNode_ids]
      exact mem_participants he
    exact comesBack_of_draft read (writeGraph_sequence kind) (readDiagram_sequenceLines sound)
      known fun g' => sequenceCopy sound draft

/-- Labels with quotes, brackets, arrows and colons, one of them with nothing else, an arrow from a
shape to itself, and a shape without arrows. -/
def plainScene : List Element :=
  [{ id := "a".toList, type := "rectangle".toList },
    { id := "s".toList, type := "text".toList, text := .str "say \"hi\" [to] --> (all)".toList,
      containerId := .str "a".toList },
    { id := "b".toList, type := "diamond".toList },
    { id := "t".toList, type := "text".toList, text := .str "[] ()".toList,
      containerId := .str "b".toList },
    { id := "c".toList, type := "ellipse".toList },
    { id := "e".toList, type := "arrow".toList, startId := some "c".toList,
      endId := some "a".toList },
    { id := "u".toList, type := "text".toList, text := .str "x: y ->> z; [1]".toList,
      containerId := .str "e".toList },
    { id := "f".toList, type := "arrow".toList, startId := some "a".toList,
      endId := some "a".toList }]

theorem readable_plainScene : Readable plainScene := by
  have some_graph : (readGraph plainScene []).toOption.isSome = true := by decide +kernel
  cases read : readGraph plainScene [] with
  | error e =>
    rw [read] at some_graph
    cases some_graph
  | ok g => exact readable_of_readGraph read

def classOptions : ConvertOptions where
  diagramType := .str DiagramType.classDiagram.name

def sequenceOptions : ConvertOptions where
  diagramType := .str DiagramType.sequenceDiagram.name

/-- The plain scene comes back from both diagrams. -/
theorem plain_roundTrip_plainScene :
    Readable plainScene ∧
    (((liveElements plainScene).filter Element.isShape).map (·.id)).Nodup ∧
    (∃ g, readGraph plainScene [] = .ok g ∧ ComesBack plainScene classOptions (ClassCopy g)) ∧
    ∃ g, readGraph plainScene [] = .ok g ∧
      ComesBack plainScene sequenceOptions (SequenceCopy g) := by
  have distinct : (((liveElements plainScene).filter Element.isShape).map (·.id)).Nodup := by decide
  refine ⟨readable_plainScene, distinct, ?_, ?_⟩
  · obtain ⟨g, read, comes_back, -⟩ := plain_roundTrip readable_plainScene distinct classOptions
    refine ⟨g, read, comes_back rfl ?_⟩
    obtain ⟨-, rfl⟩ := readGraph_eq_ok_iff.mp read
    have plain : ∀ n ∈ (graphRead [] plainScene).nodes, '\x60' ∉ classLabel n.label ∧
        '<' ∉ classLabel n.label ∧ '#' ∉ classLabel n.label := by
      decide +kernel
    intro n hn
    obtain ⟨fence, tag, entity⟩ := plain n hn
    exact (isWritable_of_not_mem fence tag entity).isUnmarked
  · obtain ⟨g, read, -, comes_back⟩ := plain_roundTrip readable_plainScene distinct sequenceOptions
    refine ⟨g, read, comes_back rfl ?_⟩
    obtain ⟨-, rfl⟩ := readGraph_eq_ok_iff.mp read
    have plain : ∀ e ∈ (graphRead [] plainScene).edges,
        '\x60' ∉ e.label ∧ '<' ∉ e.label ∧ '#' ∉ e.label := by
      decide +kernel
    intro e he
    obtain ⟨fence, tag, entity⟩ := plain e he
    exact (isWritable_of_not_mem fence tag entity).isUnmarked

end Drawbridge
