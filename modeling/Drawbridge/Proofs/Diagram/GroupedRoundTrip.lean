import Drawbridge.Proofs.Diagram.GroupedLayout
import Mathlib.Data.Set.Function

/-!
From a scene with groups to a flowchart with blocks and back, whatever the groups are. The blocks
that hold nodes come back as blocks of the same titles that lie in one another in the same way and
hold the same nodes, though nodes and blocks have new names (`SameGrouping`).

* `Drawable.titled`: the graph of a scene can be written with its blocks;
* `Regrouped.sameGrouping`, `Regrouped.titled`: what is read back is the same grouping, and can be
  written again;
* `Regrouped.groupedLines_eq`: what has been read back once is written in the same lines again;
* `grouped_roundTrip`: so from the second text on the text stays as it is.
-/

namespace Drawbridge

/-! ## The same grouping -/

/--
A graph that has been written with its blocks and read back. The functions give the new names of its
nodes, and of its blocks that hold nodes; these are the ones that are written (`mem_forestOf`).
-/
structure SameGrouping (colors : Bool) (g g' : Graph) (node block : Text → Text) : Prop where
  distinct : (g.nodes.map (·.id)).Nodup ∧ (g'.nodes.map (·.id)).Nodup
  nodes : Set.BijOn node {id | id ∈ g.nodes.map (·.id)} {id | id ∈ g'.nodes.map (·.id)}
  shown : ∀ n ∈ g.nodes, ∃ n' ∈ g'.nodes, n'.id = node n.id ∧ n'.shape = n.shape ∧
    n'.label = n.shownLabel ∧ (colors = true → n'.fill = n.fill ∧ n'.stroke = n.stroke)
  edges : g'.edges = g.edges.map (Edge.rename node)
  distinctBlocks : (g.blocks.map (·.name)).Nodup ∧ (g'.blocks.map (·.name)).Nodup
  blocks : Set.BijOn block
    {name | name ∈ g.blocks.map (·.name) ∧ Block.Holds g.blocks g.nodes name}
    {name | name ∈ g'.blocks.map (·.name)}
  titled : ∀ b ∈ g.blocks, Block.Holds g.blocks g.nodes b.name → ∃ b' ∈ g'.blocks,
    b'.name = block b.name ∧ b'.label = b.label ∧
      b'.parent = (Block.parentOf? g.blocks b.name).map block ∧
      Block.parentOf? g'.blocks b'.name = b'.parent
  places : ∀ n ∈ g.nodes,
    Block.placeOf? g'.blocks (node n.id) = (Block.placeOf? g.blocks n.id).map block

namespace Regrouped

variable {colors : Bool} {g g' : Graph} {rename : Node → Node} {labels : Dictionary Text}
  {id : Text → Text}

theorem names (r : Regrouped colors g g' rename labels id) :
    ((writtenNodes g.nodes g.blocks).map fun x => (rename x.2).id).Nodup :=
  nodup_of_readNodes r.shows.numbered r.nodes

theorem id_eq (r : Regrouped colors g g' rename labels id) (h : g.Titled) {n : Node}
    (hn : n ∈ g.nodes) : (rename n).id = newName g n.id := by
  obtain ⟨k, hk, rfl⟩ := List.getElem_of_mem ((writtenNodes_perm h.names).mem_iff.mpr hn)
  have bound : k < (((writtenNodes g.nodes g.blocks).map Prod.snd).map (·.id)).length := by
    rwa [List.length_map]
  have old := nameAmong?_getElem h.written_nodup bound
  rw [List.getElem_map] at old
  have new : (rename ((writtenNodes g.nodes g.blocks).map Prod.snd)[k]).id = nodeName k := by
    have here := congrArg (·[k]?) (names_of_readNodes r.shows.numbered r.nodes)
    rw [List.length_map] at hk
    simpa [hk] using here
  rw [new, newName, old]
  rfl

theorem mem_nodes (r : Regrouped colors g g' rename labels id) (h : g.Titled) {n : Node}
    (hn : n ∈ g.nodes) : rename n ∈ g'.nodes := by
  rw [r.nodes, readNodes_eq]
  exact List.mem_map_of_mem ((writtenNodes_perm h.names).mem_iff.mpr hn)

theorem look (r : Regrouped colors g g' rename labels id) (h : g.Titled) {n : Node}
    (hn : n ∈ g.nodes) : (rename n).look = n.shownLook colors := by
  have looks := r.shows.looks
  rw [r.nodes, readNodes, List.map_map] at looks
  obtain ⟨x, hx, rfl⟩ := List.mem_map.mp ((writtenNodes_perm h.names).mem_iff.mpr hn)
  exact List.map_inj_left.mp looks x hx

/-- The ends of edges are found under the new names. -/
theorem newName_mem (r : Regrouped colors g g' rename labels id) (h : g.Titled) {name : Text}
    (hname : name ∈ g.nodes.map (·.id)) : newName g name ∈ g'.nodes.map (·.id) := by
  obtain ⟨n, hn, rfl⟩ := List.mem_map.mp hname
  rw [← r.id_eq h hn]
  exact List.mem_map_of_mem (r.mem_nodes h hn)

/-- A block is read back under its title. -/
theorem readBlock_label (r : Regrouped colors g g' rename labels id) (h : g.Titled) {b : Block}
    (hb : b ∈ (forestOf g.nodes g.blocks).blocks) :
    (readBlock labels id rename g.nodes g.blocks b.name).label = b.label := by
  exact titleOf_eq (r.titles b hb) (h.titles b (mem_forestOf.mp hb).1).shown _

theorem mem_blocks (r : Regrouped colors g g' rename labels id) {name : Text} :
    name ∈ g'.blocks.map (·.name) ↔
      ∃ a ∈ (outlineOf g.nodes g.blocks).blocks, readName rename g.nodes g.blocks a = name := by
  rw [r.blocks, readBlocks, BlockTable.tableFor_names, List.mem_map]
  exact exists_congr fun a => and_congr_left fun _ => mem_mentioned_writtenMembers

/-- **What has been read back can be written again.** -/
theorem titled (r : Regrouped colors g g' rename labels id) (h : g.Titled) : g'.Titled := by
  have sound : ∀ l ∈ (writtenNodes g.nodes g.blocks).map (fun x => x.2.shownLook colors),
      l.IsPlain ∧ IsLabel l.label := by
    intro l hl
    obtain ⟨x, hx, rfl⟩ := List.mem_map.mp hl
    exact h.shownLook_sound colors (h.mem_written hx)
  refine ⟨r.shows.writable sound ?_ ?_, r.shows.styled fun l hl => (sound l hl).1, ?_, ?_⟩
  · intro e' he'
    rw [r.edges] at he'
    obtain ⟨e, he, rfl⟩ := List.mem_map.mp he'
    obtain ⟨source, target⟩ := h.writable.ends e he
    exact ⟨r.newName_mem h source, r.newName_mem h target⟩
  · intro e' he'
    rw [r.edges] at he'
    obtain ⟨e, he, rfl⟩ := List.mem_map.mp he'
    exact h.writable.edgeLabels e he
  · rw [r.blocks]
    exact BlockTable.tableFor_nodup _ _ _ _
  · intro b' hb'
    rw [r.blocks] at hb'
    obtain ⟨name, hname, rfl⟩ := List.mem_map.mp hb'
    have listed := mem_mentioned_writtenMembers.mp hname
    rw [outlineOf, Forest.blocks_map] at listed
    obtain ⟨b, hb, rfl⟩ := List.mem_map.mp listed
    have label := r.readBlock_label h hb
    have old := h.titles b (mem_forestOf.mp hb).1
    exact ⟨blockName_isName _, label ▸ old.title, label ▸ old.shown⟩

/-- **What has been read back is the same grouping.** -/
theorem sameGrouping (r : Regrouped colors g g' rename labels id) (h : g.Titled) :
    SameGrouping colors g g' (newName g) (readName rename g.nodes g.blocks) where
  distinct := ⟨h.writable.distinct, r.shows.numbered.nodup⟩
  nodes := by
    refine ⟨fun name hname => r.newName_mem h hname, ?_, ?_⟩
    · intro a ha b hb same
      obtain ⟨n, hn, rfl⟩ := List.mem_map.mp ha
      obtain ⟨m, hm, rfl⟩ := List.mem_map.mp hb
      rw [← r.id_eq h hn, ← r.id_eq h hm] at same
      obtain ⟨x, hx, rfl⟩ := List.mem_map.mp ((writtenNodes_perm h.names).mem_iff.mpr hn)
      obtain ⟨y, hy, rfl⟩ := List.mem_map.mp ((writtenNodes_perm h.names).mem_iff.mpr hm)
      rw [List.inj_on_of_nodup_map r.names hx hy same]
    · intro name hname
      change name ∈ g'.nodes.map (·.id) at hname
      rw [r.nodes, readNodes, List.map_map] at hname
      obtain ⟨x, hx, rfl⟩ := List.mem_map.mp hname
      exact ⟨x.2.id, List.mem_map_of_mem (h.mem_written hx), (r.id_eq h (h.mem_written hx)).symm⟩
  shown := by
    intro n hn
    obtain ⟨shape, label, fill, stroke⟩ := Look.mk.inj (r.look h hn)
    refine ⟨rename n, r.mem_nodes h hn, r.id_eq h hn, shape, label, ?_⟩
    rintro rfl
    exact ⟨fill, stroke⟩
  edges := r.edges
  distinctBlocks := ⟨h.names, (r.titled h).names⟩
  blocks := by
    refine ⟨?_, ?_, ?_⟩
    · exact fun name hname => r.mem_blocks.mpr ⟨name, mem_outlineOf.mpr hname, rfl⟩
    · exact fun a ha b _ same => readName_inj (mem_outlineOf.mpr ha) same
    · intro name hname
      obtain ⟨a, ha, same⟩ := r.mem_blocks.mp hname
      exact ⟨a, mem_outlineOf.mp ha, same⟩
  titled := by
    intro b hb holds
    have written : b ∈ (forestOf g.nodes g.blocks).blocks := mem_forestOf.mpr ⟨hb, holds⟩
    have listed : b.name ∈ (outlineOf g.nodes g.blocks).blocks :=
      mem_outlineOf.mpr ⟨List.mem_map_of_mem hb, holds⟩
    have label := r.readBlock_label h written
    refine ⟨readBlock labels id rename g.nodes g.blocks b.name, ?_, rfl, label, rfl, ?_⟩
    · rw [r.blocks]
      exact List.mem_map_of_mem (mem_mentioned_writtenMembers.mpr listed)
    · rw [r.blocks]
      exact parentOf?_readBlocks listed
  places := by
    intro n hn
    rw [← r.id_eq h hn, r.blocks]
    exact placeOf?_readBlocks r.names ((writtenNodes_perm h.names).mem_iff.mpr hn)

end Regrouped

/-! ## The same lines -/

theorem blockHeader_congr {b c : Block} (name : b.name = c.name) (label : b.label = c.label) :
    blockHeader b = blockHeader c := by
  unfold blockHeader
  rw [name, label]

/-- Blocks with the same headers and nodes with the same lines are written in the same lines. -/
theorem Forest.lines_map {colors : Bool} {f : Block → Block} {k : Node → Node}
    {t : Forest Block Node} (blocks : ∀ b ∈ t.blocks, blockHeader (f b) = blockHeader b)
    (nodes : ∀ n ∈ t.nodes, nodeLine colors (k n) = nodeLine colors n) (level : Nat) :
    (t.map f k).lines colors level = t.lines colors level := by
  induction t generalizing level with
  | nil => rfl
  | cons b inner ms rest innerIh restIh =>
    have inside := innerIh
      (fun c hc => blocks c (List.mem_cons_of_mem b (List.mem_append_left _ hc)))
      (fun n hn => nodes n (List.mem_append_left _ (List.mem_append_left _ hn))) (level + 1)
    have beside := restIh
      (fun c hc => blocks c (List.mem_cons_of_mem b (List.mem_append_right _ hc)))
      (fun n hn => nodes n (List.mem_append_right _ hn)) level
    have members : (ms.map k).map (fun n => indentBy level ++ indent ++ nodeLine colors n) =
        ms.map fun n => indentBy level ++ indent ++ nodeLine colors n := by
      rw [List.map_map]
      refine List.map_congr_left fun n hn => congrArg _ (nodes n ?_)
      exact List.mem_append_left _ (List.mem_append_right _ hn)
    rw [map, lines, lines, blocks b List.mem_cons_self, inside, members, beside]

section Again

variable {colors : Bool} {g g' g'' : Graph} {rename rename' : Node → Node}
  {labels labels' : Dictionary Text} {id id' : Text → Text}

namespace Regrouped

/-- Nodes that have been read back once are written in their order. -/
theorem written_again (r : Regrouped colors g g' rename labels id) (h : g.Titled) :
    (writtenNodes g'.nodes g'.blocks).map Prod.snd = g'.nodes := by
  rw [r.blocks, r.nodes]
  exact writtenNodes_readBlocks r.names h.names

/-- Nodes and edges that have been read back once are the same drawing when they are read again. -/
theorem sameDrawing_again (r : Regrouped colors g g' rename labels id) (h : g.Titled)
    (r' : Regrouped colors g' g'' rename' labels' id') : SameDrawing colors g' g'' := by
  have shows := r'.shows
  have looks : (writtenNodes g'.nodes g'.blocks).map (fun x => x.2.shownLook colors) =
      g'.nodes.map (Node.shownLook colors) := by
    calc
      _ = ((writtenNodes g'.nodes g'.blocks).map Prod.snd).map (Node.shownLook colors) :=
        List.map_map.symm
      _ = _ := by rw [r.written_again h]
  rw [looks] at shows
  apply r.shows.sameDrawing shows
  have kept : ∀ name ∈ g'.nodes.map (·.id), newName g' name = name := by
    intro name hname
    rw [newName, r.written_again h, r.shows.numbered.nameAmong? hname]
    rfl
  rw [r'.edges]
  apply map_eq_self
  intro e he
  obtain ⟨source, target⟩ := (r.titled h).writable.ends e he
  rw [Edge.rename, kept _ source, kept _ target]

theorem blockHeader_again (r : Regrouped colors g g' rename labels id) (h : g.Titled)
    (r' : Regrouped colors g' g'' rename' labels' id') {b : Block}
    (hb : b ∈ (forestOf g'.nodes g'.blocks).blocks) :
    blockHeader (readBlock labels' id' rename' g'.nodes g'.blocks b.name) = blockHeader b := by
  have label := r'.readBlock_label (r.titled h) hb
  have name : (readBlock labels' id' rename' g'.nodes g'.blocks b.name).name = b.name := by
    have listed : b.name ∈ g'.blocks.map (·.name) := List.mem_map_of_mem (mem_forestOf.mp hb).1
    rw [r.blocks] at listed
    have kept := readName_readBlocks r.names h.names rename' listed
    rw [← r.nodes, ← r.blocks] at kept
    exact kept
  exact blockHeader_congr name label

/-- **What has been read back once is written in the same lines when it is read again.** -/
theorem groupedLines_eq (r : Regrouped colors g g' rename labels id) (h : g.Titled)
    (r' : Regrouped colors g' g'' rename' labels' id') (direction : Text) :
    groupedLines direction colors g'' g''.blocks = groupedLines direction colors g' g'.blocks := by
  have same := r.sameDrawing_again h r'
  have nodes : g''.nodes = g'.nodes.map rename' := by
    rw [r'.nodes, readNodes_eq, r.written_again h]
  have lines : ∀ n ∈ g'.nodes, nodeLine colors (rename' n) = nodeLine colors n := by
    have all := same.nodeLines_eq
    rw [nodes, List.map_map] at all
    exact List.map_inj_left.mp all
  have forest : forestOf g''.nodes g''.blocks = (forestOf g'.nodes g'.blocks).map
      (fun b => readBlock labels' id' rename' g'.nodes g'.blocks b.name) rename' := by
    rw [r'.blocks, r'.nodes, forestOf_readBlocks r'.names (r.titled h).names, outlineOf,
      Forest.map_map]
    rfl
  have loose : looseNodes g''.nodes g''.blocks = (looseNodes g'.nodes g'.blocks).map rename' := by
    rw [r'.blocks, r'.nodes, looseNodes_readBlocks r'.names]
  have looseLines : ((looseNodes g'.nodes g'.blocks).map rename').map
        (fun n => indent ++ nodeLine colors n) =
      (looseNodes g'.nodes g'.blocks).map fun n => indent ++ nodeLine colors n := by
    rw [List.map_map]
    exact List.map_congr_left fun n hn => congrArg _ (lines n (List.mem_filter.mp hn).1)
  have blockLines := Forest.lines_map (fun b hb => r.blockHeader_again h r' hb)
    (fun n hn => lines n (mem_written (List.mem_append_left _ hn))) 1
  rw [groupedLines, groupedLines, forest, blockLines, loose, looseLines, same.edges,
    same.styleTexts_eq]

end Regrouped

end Again

/-! ## The round trip -/

/-- Blocks that are named in order and show sound titles can be written. -/
theorem BlockTable.Named.titled {labels : Dictionary Text} {t : BlockTable} (h : Named labels t)
    (titles : ∀ s l, labels.get? s = some l → IsTitle l) :
    (t.map (·.name)).Nodup ∧ ∀ b ∈ t, b.Titled := by
  refine ⟨h.nodup, fun b hb => ?_⟩
  have name := h.isName hb
  rcases titleOf_cases labels b.sourceId b.name with plain | ⟨full, found⟩
  · rw [← h.titles b hb] at plain
    exact ⟨name, plain ▸ name.isLabel.isTitle, plain ▸ name.ne_nil⟩
  · rw [← h.titles b hb] at full found
    exact ⟨name, titles _ _ found, full⟩

/-- **The graph of a scene that can be drawn can be written with its blocks.** -/
theorem Drawable.titled {scene : List Element} (h : Drawable scene) {labels : Dictionary Text}
    (titles : ∀ s l, labels.get? s = some l → IsTitle l) :
    ∃ g, readGraph scene labels = .ok g ∧ g.Titled := by
  obtain ⟨g, read, from_scene⟩ := h.read labels
  obtain ⟨names, blocks⟩ := (readGraph_named read).titled titles
  exact ⟨g, read, from_scene.writable h, from_scene.styled h, names, blocks⟩

section Text

variable {scene : List Element} {options : ConvertOptions} {direction : Text} {g : Graph}

theorem convertScene_grouped (read : readGraph scene options.groupLabels = .ok g) (h : g.Titled)
    (kind : DiagramType.ofJson options.diagramType = .ok .flowchart)
    (dir : readDirection options.direction = .ok direction)
    (grouped : options.includeGroups = true) :
    convertScene scene options =
      .ok (joinLines (groupedLines direction options.includeColors g g.blocks)) := by
  have plain : ∀ s ∈ g.styles, IsColour s.fill ∧ IsColour s.stroke :=
    fun s hs => (h.writable.styles s hs).2
  have text := writeGraph_eq (fun _ => plain) kind dir g.blocks
  unfold convertScene
  rw [read, grouped]
  exact text

theorem renderDiagram_grouped (h : g.Titled) (hd : direction ∈ directions) (colors : Bool) :
    renderDiagram (joinLines (groupedLines direction colors g g.blocks)) =
      .ok (Layout.render (groupedDraft colors g g.blocks)) := by
  have drafted := readDiagram_grouped h.writable h.titles h.names hd colors
  unfold renderDiagram
  rw [drafted]
  rfl

end Text

/--
**Grouped round trip.** A scene that can be drawn has a flowchart with blocks, whatever groups its
shapes are in. The flowchart is rendered, and the rendered scene, read with the titles of the
rendering, is the same grouping. The text of the rendered scene may have other names than the first
one, but it stays as it is when it is rendered and written again.
-/
theorem grouped_roundTrip {scene : List Element} (h : Drawable scene) {options : ConvertOptions}
    (kind : DiagramType.ofJson options.diagramType = .ok .flowchart) {direction : Text}
    (dir : readDirection options.direction = .ok direction)
    (grouped : options.includeGroups = true)
    (titles : ∀ s l, options.groupLabels.get? s = some l → IsTitle l) :
    ∃ g code r g' code' r', readGraph scene options.groupLabels = .ok g ∧
      convertScene scene options = .ok code ∧
      code = joinLines (groupedLines direction options.includeColors g g.blocks) ∧
      renderDiagram code = .ok r ∧ readGraph r.elements r.groupLabels = .ok g' ∧
      (∃ node block, SameGrouping options.includeColors g g' node block) ∧
      convertScene r.elements { options with groupLabels := r.groupLabels } = .ok code' ∧
      renderDiagram code' = .ok r' ∧
      convertScene r'.elements { options with groupLabels := r'.groupLabels } = .ok code' := by
  have hd := mem_directions_of_readDirection dir
  obtain ⟨g, read, titled⟩ := h.titled titles
  obtain ⟨g', rename, read', first⟩ := titled.regrouped options.includeColors
  have titled' := first.titled titled
  obtain ⟨g'', rename', read'', second⟩ := titled'.regrouped options.includeColors
  have titled'' := second.titled titled'
  let r := Layout.render (groupedDraft options.includeColors g g.blocks)
  let r' := Layout.render (groupedDraft options.includeColors g' g'.blocks)
  refine ⟨g, _, r, g', joinLines (groupedLines direction options.includeColors g' g'.blocks), r',
    read, ?_, rfl, ?_, read', ⟨_, _, first.sameGrouping titled⟩, ?_, ?_, ?_⟩
  · exact convertScene_grouped read titled kind dir grouped
  · exact renderDiagram_grouped titled hd _
  · exact @convertScene_grouped _ { options with groupLabels := r.groupLabels } _ _ read' titled'
      kind dir grouped
  · exact renderDiagram_grouped titled' hd _
  · rw [← first.groupedLines_eq titled second direction]
    exact @convertScene_grouped _ { options with groupLabels := r'.groupLabels } _ _ read'' titled''
      kind dir grouped

/-- Shapes in two groups that lie in each other both ways, one of them titled, and one outside. -/
def groupedScene : List Element :=
  [{ id := "a".toList, type := "rectangle".toList, groupIds := ["in".toList, "out".toList],
     fill := .str "#ffec99".toList },
    { id := "s".toList, type := "text".toList, text := .str "one [1]".toList,
      containerId := .str "a".toList },
    { id := "b".toList, type := "diamond".toList, groupIds := ["out".toList] },
    { id := "c".toList, type := "ellipse".toList, groupIds := ["out".toList, "in".toList] },
    { id := "d".toList, type := "rectangle".toList },
    { id := "e".toList, type := "arrow".toList, startId := some "c".toList,
      endId := some "d".toList }]

/-- The scene is written with its groups, one of them under a title. -/
def groupedOptions : ConvertOptions where
  includeGroups := true
  groupLabels := [("out".toList, "end of x|y".toList)]

theorem drawable_groupedScene : Drawable groupedScene where
  distinct := by decide
  texts := by
    intro e he htext
    change e ∈ groupedScene at he
    simp only [groupedScene, List.mem_cons, List.not_mem_nil, or_false] at he
    rcases he with rfl | rfl | rfl | rfl | rfl | rfl
    · exact absurd htext (by decide)
    · exact ⟨fun _ => ⟨_, rfl⟩, fun _ => rfl⟩
    all_goals exact absurd htext (by decide)
  colours := by
    intro e he _
    change e ∈ groupedScene at he
    simp only [groupedScene, List.mem_cons, List.not_mem_nil, or_false] at he
    have absent : IsPlainOrAbsent .null := fun h => absurd h (by decide)
    have yellow : IsPlainOrAbsent (.str "#ffec99".toList) := fun _ => ⟨_, rfl, by decide⟩
    rcases he with rfl | rfl | rfl | rfl | rfl | rfl
    · exact ⟨yellow, absent⟩
    all_goals exact ⟨absent, absent⟩
  labels := by
    intro e he _
    change e ∈ groupedScene at he
    simp only [groupedScene, List.mem_cons, List.not_mem_nil, or_false] at he
    rcases he with rfl | rfl | rfl | rfl | rfl | rfl <;>
      exact isWritable_of_not_mem (by decide) (by decide) (by decide)

theorem titles_groupedOptions :
    ∀ s l, groupedOptions.groupLabels.get? s = some l → IsTitle l := by
  intro s l found
  have title : l = "end of x|y".toList := by
    by_cases same : "out".toList = s
    · exact (Option.some.inj ((if_pos same).symm.trans found)).symm
    · exact absurd ((if_neg same).symm.trans found) (by simp [Dictionary.get?])
  subst title
  exact ⟨isWritable_of_not_mem (by decide) (by decide) (by decide), by decide, by decide⟩

def groupedText : Text :=
  joinLines (["flowchart TD", "    subgraph G2[\"end of x|y\"]", "        subgraph G1",
    "            A[\"one [1]\"]:::C1", "            C((C)):::C2", "        end",
    "        B\x7bB\x7d:::C2", "    end", "    D[D]:::C2", "    C --> D", "",
    "    classDef C1 fill:#ffec99,stroke:#1e1e1e,stroke-width:2px;",
    "    classDef C2 fill:white,stroke:#1e1e1e,stroke-width:2px;"].map String.toList)

/-- The text of what is rendered for it: two nodes have changed their names. -/
def groupedText' : Text :=
  joinLines (["flowchart TD", "    subgraph G2[\"end of x|y\"]", "        subgraph G1",
    "            A[\"one [1]\"]:::C1", "            B((C)):::C2", "        end",
    "        C\x7bB\x7d:::C2", "    end", "    D[D]:::C2", "    B --> D", "",
    "    classDef C1 fill:#ffec99,stroke:#1e1e1e,stroke-width:2px;",
    "    classDef C2 fill:white,stroke:#1e1e1e,stroke-width:2px;"].map String.toList)

/-- The grouped scene comes back from its flowchart, and its second text stays. -/
theorem grouped_roundTrip_groupedScene :
    Drawable groupedScene ∧
    (∀ s l, groupedOptions.groupLabels.get? s = some l → IsTitle l) ∧
    ∃ g r g' r', readGraph groupedScene groupedOptions.groupLabels = .ok g ∧
      convertScene groupedScene groupedOptions = .ok groupedText ∧
      groupedText = joinLines (groupedLines "TD".toList true g g.blocks) ∧
      renderDiagram groupedText = .ok r ∧ readGraph r.elements r.groupLabels = .ok g' ∧
      (∃ node block, SameGrouping true g g' node block) ∧
      convertScene r.elements { groupedOptions with groupLabels := r.groupLabels } =
        .ok groupedText' ∧
      renderDiagram groupedText' = .ok r' ∧
      convertScene r'.elements { groupedOptions with groupLabels := r'.groupLabels } =
        .ok groupedText' := by
  obtain ⟨g, code, r, g', code', r', read, written, lines, rendered, read', same, written',
      rendered', kept⟩ :=
    @grouped_roundTrip groupedScene drawable_groupedScene groupedOptions rfl "TD".toList rfl rfl
      titles_groupedOptions
  have first : (convertScene groupedScene groupedOptions).toOption = some groupedText := by
    decide +kernel
  rw [written] at first
  obtain rfl := Option.some.inj first
  have second : ((renderDiagram groupedText).toOption.bind fun r => (convertScene r.elements
      { groupedOptions with groupLabels := r.groupLabels }).toOption) = some groupedText' := by
    decide +kernel
  rw [rendered] at second
  have again : (convertScene r.elements
      { groupedOptions with groupLabels := r.groupLabels }).toOption = some groupedText' := second
  rw [written'] at again
  obtain rfl := Option.some.inj again
  exact ⟨drawable_groupedScene, titles_groupedOptions, g, r, g', r', read, written, lines, rendered,
    read', same, written', rendered', kept⟩

end Drawbridge
