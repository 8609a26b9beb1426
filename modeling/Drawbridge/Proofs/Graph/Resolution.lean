import Drawbridge.Proofs.Scene.Export
import Mathlib.Data.List.Forall2
import Mathlib.Data.List.Nodup

/-!
Shapes become nodes and arrows become edges. Where the shapes of a scene have different identifiers,
its graph has a node for every shape, named in scene order, and an edge for every arrow with both of
its ends on shapes (`Resolved`, `readGraph_resolves`), wherever the arrow stands. What is deleted,
missing or no shape has no node, and an arrow to it gives no edge.
-/

namespace Drawbridge

def liveShapes (scene : List Element) : List Element :=
  (liveElements scene).filter Element.isShape

def liveArrows (scene : List Element) : List Element :=
  (liveElements scene).filter Element.isArrow

/-- An end of an arrow is on a shape that counts. An end without an identifier is on none. -/
def IsOnShape (scene : List Element) (binding : Option Text) : Prop :=
  ∃ s ∈ liveShapes scene, binding = some s.id ∧ s.id ≠ []

instance (scene : List Element) (binding : Option Text) : Decidable (IsOnShape scene binding) :=
  inferInstanceAs (Decidable (∃ s ∈ liveShapes scene, binding = some s.id ∧ s.id ≠ []))

def joiningArrows (scene : List Element) : List Element :=
  (liveArrows scene).filter fun a => IsOnShape scene a.startId ∧ IsOnShape scene a.endId

/-- An edge joins the nodes of the shapes that an arrow is on, and has the arrow's label. -/
structure Graph.Draws (g : Graph) (texts : List TextItem) (a : Element) (e : Edge) : Prop where
  source : ∃ n ∈ g.nodes, a.startId = some n.sourceId ∧ e.source = n.id
  target : ∃ n ∈ g.nodes, a.endId = some n.sourceId ∧ e.target = n.id
  label : e.label = labelFor texts a

/-- A graph has the nodes and the edges of a scene. -/
structure Resolved (scene : List Element) (g : Graph) : Prop where
  /-- There is a node for every shape, and they are named in scene order. -/
  nodes : g.nodes.map (fun n => (n.id, n.sourceId, some n.shape)) =
    (liveShapes scene).mapIdx fun k s => (nodeName k, s.id, s.shape?)
  /-- The nodes have names of their own. -/
  named : (g.nodes.map (·.id)).Nodup
  /-- There is an edge for every arrow between shapes, in scene order, and there are no others. -/
  edges : List.Forall₂ (g.Draws (sceneTexts scene)) (joiningArrows scene) g.edges
  /-- The ends of an edge name one node each. -/
  ends : ∀ e ∈ g.edges, (∃! n, n ∈ g.nodes ∧ n.id = e.source) ∧ ∃! n, n ∈ g.nodes ∧ n.id = e.target

/-! ## Nodes -/

theorem foldl_addShape_nodes (labels : Dictionary Text) (texts : List TextItem)
    {items : List ShapeItem} (st : ReadState)
    (distinct : (st.ids ++ items.map (·.element.id)).Nodup) :
    (items.foldl (ReadState.addShape labels texts) st).nodes.map
        (fun n => (n.id, n.sourceId, some n.shape)) =
      st.nodes.map (fun n => (n.id, n.sourceId, some n.shape)) ++
        (items.map fun i => (i.element.id, some i.shape)).mapIdx
          fun k shown => (nodeName (k + st.ids.length), shown) := by
  induction items generalizing st with
  | nil => simp
  | cons i items ih =>
    rw [List.map_cons] at distinct
    have new : i.element.id ∉ st.ids :=
      fun old => List.disjoint_of_nodup_append distinct old List.mem_cons_self
    rw [List.foldl_cons, addShape_eq labels texts new, ih _ (by simpa using distinct),
      List.map_cons, List.mapIdx_cons, Nat.zero_add, List.map_append, List.append_assoc]
    simp only [List.length_append, List.length_singleton, Nat.add_assoc, Nat.add_comm 1]
    rfl

/-- What is shown of the shapes of a scene. -/
theorem sceneShapes_shown (scene : List Element) :
    (sceneShapes scene).map (fun i => (i.element.id, some i.shape)) =
      (liveShapes scene).map fun s => (s.id, s.shape?) := by
  refine Eq.trans ?_ (filterMap_shapeItem? (fun s => (s.id, s.shape?)) (liveElements scene))
  apply List.map_congr_left
  intro i hi
  obtain ⟨s, -, read⟩ := List.mem_filterMap.mp hi
  obtain ⟨shape, known, rfl⟩ := Option.map_eq_some_iff.mp read
  rw [known]

section Scene

variable {scene : List Element}

theorem graphRead_nodes (distinct : ((liveShapes scene).map (·.id)).Nodup)
    (labels : Dictionary Text) :
    (graphRead labels scene).nodes.map (fun n => (n.id, n.sourceId, some n.shape)) =
      (liveShapes scene).mapIdx fun k s => (nodeName k, s.id, s.shape?) := by
  rw [liveShapes, ← sceneShapes_map_id] at distinct
  have nodes := foldl_addShape_nodes labels (sceneTexts scene) {} (by simpa using distinct)
  rw [sceneShapes_shown] at nodes
  refine nodes.trans (List.ext_getElem? fun k => ?_)
  simp [Function.comp_def]

theorem graphRead_named (distinct : ((liveShapes scene).map (·.id)).Nodup)
    (labels : Dictionary Text) :
    ((graphRead labels scene).nodes.map (·.id)).Nodup := by
  rw [liveShapes, ← sceneShapes_map_id] at distinct
  have nodes := (foldl_addShape labels (sceneTexts scene) {} (by simpa using distinct)).2.2
  have names := congrArg (List.map (·.id)) nodes
  rw [List.map_map, List.map_nil, List.nil_append, nodesOf_ids] at names
  exact (congrArg List.Nodup names).mpr
    (List.Nodup.map (fun _ _ => nodeName_injective) List.nodup_range')

/-! ## Edges -/

theorem exists_node {g : Graph}
    (nodes : g.nodes.map (fun n => (n.id, n.sourceId, some n.shape)) =
      (liveShapes scene).mapIdx fun k s => (nodeName k, s.id, s.shape?))
    {k : Nat} (bound : k < (liveShapes scene).length) :
    ∃ n ∈ g.nodes, n.id = nodeName k ∧ n.sourceId = ((liveShapes scene)[k]).id := by
  have listed : (nodeName k, ((liveShapes scene)[k]).id, ((liveShapes scene)[k]).shape?) ∈
      (liveShapes scene).mapIdx fun k s => (nodeName k, s.id, s.shape?) :=
    List.mem_mapIdx.mpr ⟨k, bound, rfl⟩
  rw [← nodes] at listed
  obtain ⟨n, hn, shown⟩ := List.mem_map.mp listed
  obtain ⟨name, rest⟩ := Prod.mk.inj shown
  exact ⟨n, hn, name, (Prod.mk.inj rest).1⟩

/-- **An end of an arrow names the node of the shape that it is on, and none if it is on none.** -/
theorem boundNode?_cases {g : Graph}
    (nodes : g.nodes.map (fun n => (n.id, n.sourceId, some n.shape)) =
      (liveShapes scene).mapIdx fun k s => (nodeName k, s.id, s.shape?)) (binding : Option Text) :
    (IsOnShape scene binding ∧ ∃ n ∈ g.nodes, binding = some n.sourceId ∧
      boundNode? ((liveShapes scene).map (·.id)) binding = some n.id) ∨
    ¬ IsOnShape scene binding ∧ boundNode? ((liveShapes scene).map (·.id)) binding = none := by
  by_cases on : IsOnShape scene binding
  · refine .inl ⟨on, ?_⟩
    obtain ⟨s, hs, rfl, full⟩ := on
    have known : s.id ∈ (liveShapes scene).map (·.id) := List.mem_map_of_mem hs
    obtain ⟨k, place⟩ := Option.isSome_iff_exists.mp (List.isSome_idxOf?.mpr known)
    obtain ⟨bound, same, -⟩ := List.idxOf?_eq_some_iff.mp place
    rw [List.getElem_map] at same
    -- the first shape with the identifier need not be `s`, but its node has the same source
    obtain ⟨n, hn, name, source⟩ := exists_node nodes (by simpa using bound)
    refine ⟨n, hn, congrArg some (source.trans same).symm, ?_⟩
    rw [boundNode?_some _ full, nameAmong?, place, name]
    rfl
  · refine .inr ⟨on, Option.eq_none_iff_forall_ne_some.mpr fun name found => on ?_⟩
    obtain ⟨id, named, known⟩ := Option.bind_eq_some_iff.mp found
    obtain ⟨rfl, full⟩ := Option.filter_eq_some_iff.mp named
    obtain ⟨k, place, -⟩ := Option.map_eq_some_iff.mp known
    obtain ⟨bound, same, -⟩ := List.idxOf?_eq_some_iff.mp place
    rw [List.getElem_map] at same
    subst same
    exact ⟨_, List.getElem_mem _, rfl, of_decide_eq_true full⟩

/-- An arrow gives its edge if both of its ends are on shapes, and nothing otherwise. -/
theorem readEdge?_cases {g : Graph}
    (nodes : g.nodes.map (fun n => (n.id, n.sourceId, some n.shape)) =
      (liveShapes scene).mapIdx fun k s => (nodeName k, s.id, s.shape?))
    (texts : List TextItem) (a : Element) :
    ((IsOnShape scene a.startId ∧ IsOnShape scene a.endId) ∧
      ∃ e, readEdge? ((liveShapes scene).map (·.id)) texts a = some e ∧ g.Draws texts a e) ∨
    ¬ (IsOnShape scene a.startId ∧ IsOnShape scene a.endId) ∧
      readEdge? ((liveShapes scene).map (·.id)) texts a = none := by
  unfold readEdge?
  rcases boundNode?_cases nodes a.startId with ⟨on, n, hn, start, source⟩ | ⟨off, source⟩
  · rcases boundNode?_cases nodes a.endId with ⟨on', m, hm, stop, target⟩ | ⟨off, target⟩
    · rw [source, target]
      exact .inl ⟨⟨on, on'⟩, _, rfl, ⟨n, hn, start, rfl⟩, ⟨m, hm, stop, rfl⟩, rfl⟩
    · rw [source, target]
      exact .inr ⟨fun both => off both.2, rfl⟩
  · rw [source]
    exact .inr ⟨fun both => off both.1, rfl⟩

end Scene

/-- What a filter keeps is what a function is defined on, element by element. -/
theorem forall₂_filter_filterMap {α β : Type} {p : α → Bool} {f : α → Option β}
    {R : α → β → Prop} {l : List α}
    (h : ∀ a ∈ l, (p a = true ∧ ∃ b, f a = some b ∧ R a b) ∨ p a = false ∧ f a = none) :
    List.Forall₂ R (l.filter p) (l.filterMap f) := by
  induction l with
  | nil => exact .nil
  | cons a l ih =>
    have rest := ih fun b hb => h b (List.mem_cons_of_mem a hb)
    rcases h a List.mem_cons_self with ⟨keep, b, hb, hR⟩ | ⟨skip, hb⟩
    · rw [List.filter_cons_of_pos keep, List.filterMap_cons_some hb]
      exact .cons hR rest
    · rw [List.filter_cons_of_neg (by simp [skip]), List.filterMap_cons_none hb]
      exact rest

/-- **The graph of a scene has its nodes and its edges.** -/
theorem graphRead_resolved {scene : List Element} {labels : Dictionary Text}
    (distinct : ((liveShapes scene).map (·.id)).Nodup) :
    Resolved scene (graphRead labels scene) := by
  have nodes := graphRead_nodes distinct labels
  have named := graphRead_named distinct labels
  have distinct' : ((sceneShapes scene).map (·.element.id)).Nodup := by
    rw [sceneShapes_map_id]
    exact distinct
  have ids : (shapesRead labels scene).ids = (liveShapes scene).map (·.id) :=
    (foldl_addShape labels (sceneTexts scene) {} (by simpa using distinct')).1.trans
      (sceneShapes_map_id scene)
  have edges : (graphRead labels scene).edges = (liveArrows scene).filterMap
      (readEdge? ((liveShapes scene).map (·.id)) (sceneTexts scene)) := by
    rw [← ids]
    rfl
  have drawn (a : Element) := readEdge?_cases nodes (sceneTexts scene) a
  have once : ∀ n ∈ (graphRead labels scene).nodes,
      ∃! m, m ∈ (graphRead labels scene).nodes ∧ m.id = n.id :=
    fun n hn => ⟨n, ⟨hn, rfl⟩, fun m hm => List.inj_on_of_nodup_map named hm.1 hn hm.2⟩
  refine ⟨nodes, named, ?_, ?_⟩
  · rw [edges]
    apply forall₂_filter_filterMap
    intro a _
    rw [decide_eq_true_eq, decide_eq_false_iff_not]
    exact drawn a
  · intro e he
    rw [edges] at he
    obtain ⟨a, -, read⟩ := List.mem_filterMap.mp he
    rcases drawn a with ⟨-, e', read', ⟨n, hn, -, source⟩, ⟨m, hm, -, target⟩, -⟩ | ⟨-, none_read⟩
    · rw [read] at read'
      obtain rfl := Option.some.inj read'
      rw [source, target]
      exact ⟨once n hn, once m hm⟩
    · rw [read] at none_read
      cases none_read

/-- An element that was read is bound to something with an identifier, or to nothing. -/
theorem referring_of_listOfJson {j : Json} {scene : List Element}
    (read : Element.listOfJson j = .ok scene) {a : Element} (ha : a ∈ scene) : a.Referring := by
  obtain ⟨items, -, elements⟩ := ok_of_bind read
  obtain ⟨item, -, element⟩ := mem_of_mapM_ok elements a ha
  exact (Element.takenFrom_of_ofJson element).referring

/--
**Shapes are the nodes of a scene, and arrows between shapes its edges.** A scene has a graph just
if it can be read. Where shapes have different identifiers, the graph has a node for every shape and
an edge for every arrow with both ends on shapes, in scene order, and an edge joins the nodes of the
shapes that its arrow is on. In a scene as it is handed over, an end is on a shape just if it has
the shape's identifier.
-/
theorem readGraph_resolves {scene : List Element}
    (distinct : ((liveShapes scene).map (·.id)).Nodup) (labels : Dictionary Text) :
    ((∃ g, readGraph scene labels = .ok g) ↔ Readable scene) ∧
    (∀ g, readGraph scene labels = .ok g → Resolved scene g) ∧
    ∀ j, Element.listOfJson j = .ok scene → ∀ a ∈ scene, ∀ binding ∈ [a.startId, a.endId],
      (IsOnShape scene binding ↔ ∃ s ∈ liveShapes scene, binding = some s.id) := by
  refine ⟨⟨?_, fun h => ⟨_, readGraph_readable h labels⟩⟩, ?_, ?_⟩
  · rintro ⟨g, read⟩
    exact readable_of_readGraph read
  · intro g read
    rw [(readGraph_eq_ok_iff.mp read).2]
    exact graphRead_resolved distinct
  · intro j read a ha binding listed
    have full : binding ≠ some [] := by
      rcases List.mem_pair.mp listed with rfl | rfl
      · exact (referring_of_listOfJson read ha).start
      · exact (referring_of_listOfJson read ha).stop
    constructor
    · rintro ⟨s, hs, known, -⟩
      exact ⟨s, hs, known⟩
    · rintro ⟨s, hs, rfl⟩
      exact ⟨s, hs, rfl, fun empty => full (congrArg some empty)⟩

/-- Arrows before, between and behind their shapes: some have ends on nothing that counts. -/
def crossedScene : List Element :=
  [{ id := "1".toList, type := "arrow".toList, startId := some "y".toList,
     endId := some "x".toList },
    { id := "x".toList, type := "ellipse".toList },
    { id := "2".toList, type := "arrow".toList, startId := some "x".toList,
      endId := some "gone".toList },
    { id := "gone".toList, type := "rectangle".toList, isDeleted := true },
    { id := "3".toList, type := "arrow".toList, startId := some "x".toList,
      endId := some "t".toList },
    { id := "t".toList, type := "text".toList, text := .str "no shape".toList },
    { id := "y".toList, type := "diamond".toList },
    { id := "4".toList, type := "arrow".toList, endId := some "y".toList },
    { id := "5".toList, type := "arrow".toList, startId := some "y".toList,
      endId := some "y".toList }]

/-- Two of the arrows are edges: the one to the shape before, and the one from a shape to itself. -/
theorem readGraph_resolves_crossedScene :
    ((liveShapes crossedScene).map (·.id)).Nodup ∧
    ∃ g, readGraph crossedScene = .ok g ∧ Resolved crossedScene g ∧
      g.edges = [{ source := "B".toList, target := "A".toList },
        { source := "B".toList, target := "B".toList }] := by
  have distinct : ((liveShapes crossedScene).map (·.id)).Nodup := by decide +kernel
  have edges : (readGraph crossedScene).toOption.map (·.edges) =
      some [{ source := "B".toList, target := "A".toList },
        { source := "B".toList, target := "B".toList }] := by decide +kernel
  obtain ⟨g, read, edges⟩ := Option.map_eq_some_iff.mp edges
  have read := eq_ok_of_toOption read
  exact ⟨distinct, g, read, (readGraph_resolves distinct []).2.1 g read, edges⟩

end Drawbridge
