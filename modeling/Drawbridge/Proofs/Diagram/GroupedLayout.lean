import Drawbridge.Proofs.Diagram.GroupedReader
import Drawbridge.Proofs.Diagram.RoundTrip

/-!
Reading a layout with groups. The subgraphs of a diagram are laid out as groups with identifiers of
their own (`titleId_inj`), and a shape is in the groups of the blocks around its node, innermost
first (`sceneMembers_grouped`). So the graph that is read has the nodes of the one that was written
in the order in which they were written, under the names of their new places, and for every block
that was written a block of the same title (`Regrouped`, `Graph.Titled.regrouped`).
-/

namespace Drawbridge

/-! ## Groups -/

namespace Layout

/-- The identifier of the group that is laid out for a subgraph. -/
def titleId (titles : Dictionary Text) (name : Text) : Text :=
  numbered "group" ((titles.map Prod.fst).idxOf name + 1)

section Titles

variable {titles : Dictionary Text} {name : Text}

theorem titleId_inj {a b : Text} (ha : a ∈ titles.map Prod.fst)
    (same : titleId titles a = titleId titles b) : a = b :=
  (List.idxOf_inj ha).mp (Nat.succ.inj (numbered_injective rfl same))

/-- The value that depends on the place of a key. -/
theorem get?_mapIdx_key {α : Type} (f : Nat → α) (h : name ∈ titles.map Prod.fst) :
    Dictionary.get? (titles.mapIdx fun i p => (p.1, f i)) name =
      some (f ((titles.map Prod.fst).idxOf name)) := by
  induction titles generalizing f with
  | nil => cases h
  | cons p titles ih =>
    rw [List.mapIdx_cons, List.map_cons, Dictionary.get?]
    by_cases here : p.1 = name
    · rw [if_pos here, here, List.idxOf_cons_self]
    · rw [if_neg here, List.idxOf_cons_ne _ here]
      exact ih (fun i => f (i + 1)) (List.mem_of_ne_of_mem (Ne.symm here) h)

/-- The value at a key that was replaced by its place. -/
theorem get?_mapIdx_place {f : Nat → Text} (inj : ∀ i j, f i = f j → i = j)
    (h : name ∈ titles.map Prod.fst) :
    Dictionary.get? (titles.mapIdx fun i p => (f i, p.2)) (f ((titles.map Prod.fst).idxOf name)) =
      titles.get? name := by
  induction titles generalizing f with
  | nil => cases h
  | cons p titles ih =>
    rw [List.mapIdx_cons, List.map_cons, Dictionary.get?, Dictionary.get?]
    by_cases here : p.1 = name
    · rw [if_pos here, here, List.idxOf_cons_self, if_pos rfl]
    · have first (i : Nat) : f 0 ≠ f (i + 1) := fun same => Nat.succ_ne_zero i (inj _ _ same).symm
      rw [if_neg here, List.idxOf_cons_ne _ here, if_neg (first _)]
      exact ih (fun i j same => Nat.succ.inj (inj _ _ same))
        (List.mem_of_ne_of_mem (Ne.symm here) h)

theorem get?_groupIds (h : name ∈ titles.map Prod.fst) :
    (groupIds titles).get? name = some (titleId titles name) :=
  get?_mapIdx_key (fun i => numbered "group" (i + 1)) h

/-- **The group of a subgraph has its title.** -/
theorem get?_groupLabels {d : Draft} (h : name ∈ d.titles.map Prod.fst) :
    (render d).groupLabels.get? (titleId d.titles name) = d.titles.get? name :=
  @get?_mapIdx_place d.titles name (fun i => numbered "group" (i + 1))
    (fun _ _ same => Nat.succ.inj (numbered_injective rfl same)) h

end Titles

/-- The shapes of a layout are in the groups of their nodes. -/
theorem sceneMembers_render {d : Draft} (h : EndsKnown d) :
    sceneMembers (render d).elements =
      d.nodes.mapIdx fun k n => (groupsOf (groupIds d.titles) n, nodeName k) := by
  have nodes : (placedNodes d).map (·.node) = d.nodes := placeNodes_map 0 _ d.nodes
  rw [sceneMembers, sceneShapes_render h, ← nodes]
  apply List.ext_getElem (by simp)
  intro k hk hk'
  rw [List.getElem_mapIdx, List.getElem_mapIdx, List.getElem_map, List.getElem_map]
  rfl

/-- The groups of a node inside known subgraphs. -/
theorem groupsOf_draftNodeIn {titles : Dictionary Text} {names : List Text}
    (known : ∀ a ∈ names, a ∈ titles.map Prod.fst) (colors : Bool) (n : Node) :
    groupsOf (groupIds titles) (draftNodeIn colors names.reverse n) =
      names.map (titleId titles) := by
  show names.reverse.reverse.filterMap (groupIds titles).get? = _
  rw [List.reverse_reverse, ← List.filterMap_eq_map]
  exact List.filterMap_congr fun a ha => get?_groupIds (known a ha)

end Layout

/-! ## Graphs that can be written with their blocks -/

/-- A graph that can be written with its blocks, and drawn in the colours of its nodes. -/
structure Graph.Titled (g : Graph) : Prop where
  writable : g.Writable
  styled : g.Styled
  names : (g.blocks.map (·.name)).Nodup
  titles : ∀ b ∈ g.blocks, b.Titled

def Edge.rename (name : Text → Text) (e : Edge) : Edge :=
  { e with source := name e.source, target := name e.target }

/-- The name under which a node is read back: that of its place among those that are written. -/
def newName (g : Graph) (id : Text) : Text :=
  (nameAmong? (((writtenNodes g.nodes g.blocks).map Prod.snd).map (·.id)) id).getD []

/-- A graph that has been written with its blocks and read back, node by node. -/
structure Regrouped (colors : Bool) (g g' : Graph) (rename : Node → Node)
    (labels : Dictionary Text) (id : Text → Text) : Prop where
  shows : g'.Shows ((writtenNodes g.nodes g.blocks).map fun x => x.2.shownLook colors)
  nodes : g'.nodes = readNodes rename g.nodes g.blocks
  edges : g'.edges = g.edges.map (Edge.rename (newName g))
  blocks : g'.blocks = readBlocks labels id rename g.nodes g.blocks
  titles : ∀ b ∈ (forestOf g.nodes g.blocks).blocks, labels.get? (id b.name) = some b.label

/-- A list whose members have keys of their own is mapped to every list of its length. -/
theorem exists_map_eq {α : Type} {key : α → Text} {l l' : List α} (distinct : (l.map key).Nodup)
    (length : l'.length = l.length) : ∃ f : α → α, l.map f = l' := by
  refine ⟨fun a => (l'[(l.map key).idxOf (key a)]?).getD a, List.ext_getElem (by simp [length]) ?_⟩
  intro k hk hk'
  rw [List.length_map] at hk
  have bound : k < (l.map key).length := by rwa [List.length_map]
  have place : (l.map key).idxOf (key l[k]) = k := by
    have here := distinct.idxOf_getElem k bound
    rwa [List.getElem_map] at here
  rw [List.getElem_map, place, List.getElem?_eq_getElem hk', Option.getD_some]

theorem names_of_readNodes {g g' : Graph} {rename : Node → Node} (numbered : g'.IsNumbered)
    (nodes : g'.nodes = readNodes rename g.nodes g.blocks) :
    ((writtenNodes g.nodes g.blocks).map fun x => (rename x.2).id) =
      (List.range' 0 (writtenNodes g.nodes g.blocks).length).map nodeName := by
  rw [Graph.IsNumbered, nodes, readNodes, List.map_map, List.length_map] at numbered
  exact numbered

theorem nodup_of_readNodes {g g' : Graph} {rename : Node → Node} (numbered : g'.IsNumbered)
    (nodes : g'.nodes = readNodes rename g.nodes g.blocks) :
    ((writtenNodes g.nodes g.blocks).map fun x => (rename x.2).id).Nodup := by
  rw [names_of_readNodes numbered nodes]
  exact List.Nodup.map (fun _ _ => nodeName_injective) List.nodup_range'

/-- The blocks around a written node are written. -/
theorem around_written {nodes : List Node} {blocks : List Block} {x : List Text × Node}
    (hx : x ∈ writtenNodes nodes blocks) {a : Text} (ha : a ∈ x.1) :
    a ∈ (outlineOf nodes blocks).blocks := by
  have listed : (x.1, x.2.id) ∈ writtenMembers id nodes blocks := List.mem_map_of_mem hx
  exact mem_mentioned_writtenMembers.mp (BlockTable.mem_mentioned.mpr ⟨_, listed, ha⟩)

theorem groupedDraft_titles (colors : Bool) (g : Graph) (blocks : List Block) :
    (groupedDraft colors g blocks).titles.map Prod.fst = (outlineOf g.nodes blocks).blocks := by
  rw [outlineOf, Forest.blocks_map, groupedDraft, titlesOf_keys]

namespace Graph.Titled

variable {g : Graph} (h : g.Titled) (colors : Bool)

include h

theorem mem_written {x : List Text × Node} (hx : x ∈ writtenNodes g.nodes g.blocks) :
    x.2 ∈ g.nodes :=
  (writtenNodes_perm h.names).mem_iff.mp (List.mem_map_of_mem hx)

theorem written_nodup : (((writtenNodes g.nodes g.blocks).map Prod.snd).map (·.id)).Nodup :=
  ((writtenNodes_perm h.names).map _).nodup_iff.mpr h.writable.distinct

/-- What a node shows has plain colours and a sound label. -/
theorem shownLook_sound {n : Node} (hn : n ∈ g.nodes) :
    (n.shownLook colors).IsPlain ∧ IsLabel (n.shownLook colors).label := by
  refine ⟨?_, h.writable.shownLabel hn⟩
  cases colors with
  | false =>
    have fill : IsColour (.str transparent) := ⟨transparent, rfl, by decide, by decide⟩
    have stroke : IsColour (.str defaultStroke) := ⟨defaultStroke, rfl, by decide, by decide⟩
    exact ⟨fill, stroke⟩
  | true =>
    obtain ⟨s, hs, -, fill, stroke⟩ := h.styled n hn
    obtain ⟨-, plain⟩ := h.writable.styles s hs
    rw [fill, stroke] at plain
    exact plain

theorem ends_written {e : Edge} (he : e ∈ g.edges) :
    e.source ∈ ((writtenNodes g.nodes g.blocks).map Prod.snd).map (·.id) ∧
      e.target ∈ ((writtenNodes g.nodes g.blocks).map Prod.snd).map (·.id) := by
  have ids : (((writtenNodes g.nodes g.blocks).map Prod.snd).map (·.id)).Perm
      (g.nodes.map (·.id)) := (writtenNodes_perm h.names).map _
  obtain ⟨source, target⟩ := h.writable.ends e he
  exact ⟨ids.mem_iff.mpr source, ids.mem_iff.mpr target⟩

theorem endsKnown : Layout.EndsKnown (groupedDraft colors g g.blocks) := by
  intro e he
  rw [groupedDraft_ids]
  exact h.ends_written he

/-- **The shapes of a layout are in the groups of the blocks around their nodes.** -/
theorem sceneMembers_grouped :
    sceneMembers (Layout.render (groupedDraft colors g g.blocks)).elements =
      (writtenNodes g.nodes g.blocks).mapIdx fun k x =>
        (x.1.map (Layout.titleId (groupedDraft colors g g.blocks).titles), nodeName k) := by
  have nodes : (groupedDraft colors g g.blocks).nodes =
      (writtenNodes g.nodes g.blocks).map fun x => draftNodeIn colors x.1.reverse x.2 := rfl
  rw [Layout.sceneMembers_render (h.endsKnown colors), nodes]
  apply List.ext_getElem (by simp)
  intro k hk hk'
  rw [List.getElem_mapIdx, List.getElem_mapIdx, List.getElem_map, Layout.groupsOf_draftNodeIn]
  intro a ha
  rw [groupedDraft_titles]
  exact around_written (List.getElem_mem _) ha

theorem drawnLook_grouped : (groupedDraft colors g g.blocks).nodes.map
      (Layout.drawnLook (groupedDraft colors g g.blocks)) =
    (writtenNodes g.nodes g.blocks).map fun x => x.2.shownLook colors := by
  rw [groupedDraft, List.map_map]
  exact List.map_congr_left fun x hx => h.writable.drawnLook h.styled colors (h.mem_written hx)

theorem drawnEdge_grouped : (groupedDraft colors g g.blocks).edges.map
      (Layout.drawnEdge (groupedDraft colors g g.blocks)) =
    g.edges.map (Edge.rename (newName g)) := by
  apply List.map_congr_left
  intro e he
  have tidy : cleanLabel e.label = e.label := (h.writable.edgeLabels e he).tidy
  rw [Layout.drawnEdge, groupedDraft_ids, tidy]
  rfl

/-- **The blocks of a layout are read as a table of what was written.** -/
theorem blocks_grouped {g' : Graph} {rename : Node → Node} {labels : Dictionary Text}
    (read : readGraph (Layout.render (groupedDraft colors g g.blocks)).elements labels = .ok g')
    (numbered : g'.IsNumbered) (nodes : g'.nodes = readNodes rename g.nodes g.blocks) :
    g'.blocks = readBlocks labels (Layout.titleId (groupedDraft colors g g.blocks).titles) rename
      g.nodes g.blocks := by
  let draft := groupedDraft colors g g.blocks
  have distinct : ((sceneShapes (Layout.render draft).elements).map (·.element.id)).Nodup := by
    rw [Layout.sceneShapes_ids (h.endsKnown colors)]
    exact Layout.shapeIds_nodup draft
  have members : sceneMembers (Layout.render draft).elements =
      (writtenMembers rename g.nodes g.blocks).map
        fun x => (x.1.map (Layout.titleId draft.titles), x.2) := by
    rw [h.sceneMembers_grouped colors, writtenMembers, List.map_map]
    apply List.ext_getElem (by simp)
    intro k hk hk'
    rw [List.length_mapIdx] at hk
    have name : (rename (writtenNodes g.nodes g.blocks)[k].2).id = nodeName k := by
      have here := congrArg (·[k]?) (names_of_readNodes numbered nodes)
      simpa [hk] using here
    rw [List.getElem_mapIdx, List.getElem_map, ← name]
    rfl
  have groups : ∀ a ∈ BlockTable.mentioned (writtenMembers rename g.nodes g.blocks),
      a ∈ draft.titles.map Prod.fst := by
    intro a ha
    rw [groupedDraft_titles]
    exact mem_mentioned_writtenMembers.mp ha
  rw [readGraph_blocks (Layout.readable_render draft) distinct read, members, List.foldl_map]
  apply BlockTable.foldl_addMember_ways
  · exact fun a ha b _ same => Layout.titleId_inj (groups a ha) same
  · exact depthOf_falls
  · exact fun x hx => writtenMembers_way hx
  · rw [writtenMembers, List.map_map]
    exact nodup_of_readNodes numbered nodes

/-- **What has been written with its blocks is read back.** -/
theorem regrouped : ∃ g' rename,
    readGraph (Layout.render (groupedDraft colors g g.blocks)).elements
      (Layout.render (groupedDraft colors g g.blocks)).groupLabels = .ok g' ∧
    Regrouped colors g g' rename (Layout.render (groupedDraft colors g g.blocks)).groupLabels
      (Layout.titleId (groupedDraft colors g g.blocks).titles) := by
  let draft := groupedDraft colors g g.blocks
  obtain ⟨g', read, nodes, styles, edges⟩ :=
    Layout.readGraph_render (h.endsKnown colors) (Layout.render draft).groupLabels
  rw [h.drawnLook_grouped] at nodes styles
  rw [h.drawnEdge_grouped] at edges
  have shows : g'.Shows _ := ⟨nodes, styles⟩
  have length : g'.nodes.length = ((writtenNodes g.nodes g.blocks).map Prod.snd).length := by
    rw [shows.length, List.length_map, List.length_map]
  obtain ⟨rename, renamed⟩ := exists_map_eq h.written_nodup length
  have renamed : g'.nodes = readNodes rename g.nodes g.blocks := by
    rw [readNodes_eq, renamed]
  refine ⟨g', rename, read, shows, renamed, edges,
    h.blocks_grouped colors read shows.numbered renamed, ?_⟩
  intro b hb
  have known : b.name ∈ draft.titles.map Prod.fst := by
    rw [groupedDraft_titles, outlineOf, Forest.blocks_map]
    exact List.mem_map_of_mem hb
  rw [Layout.get?_groupLabels known]
  exact Dictionary.get?_map_of_mem (forestOf_nodup h.names) hb

end Graph.Titled

end Drawbridge
