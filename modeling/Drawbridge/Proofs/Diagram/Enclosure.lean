import Drawbridge.Proofs.Diagram.Regrouping
import Drawbridge.Proofs.Graph.Resolution
import Drawbridge.Proofs.Graph.Soundness

/-!
Which subgraphs a node is declared in. A flowchart is gone through line by line, and the names of
the subgraphs that are open are kept on the way (`enclosures`). The lines of blocks in blocks give
every node with the blocks around it (`enclosures_lines`, `enclosures_grouped`). Where the shapes of
a scene agree about the groups in groups (`Consistent`), the blocks around a node are those of the
groups of its shape (`writtenNodes_perm_shapes`), and so are the subgraphs around its line, from the
innermost to the outermost (`convertScene_showsGroups`).
-/

namespace Drawbridge

/-! ## Open subgraphs -/

def openedName? (line : Text) : Option Text :=
  (afterPrefix? "subgraph ".toList line).map fun rest => rest.takeWhile isIdentChar

/--
The lines of a diagram that neither open nor end a subgraph, without indentation. Each comes with
the names of the subgraphs that are open where it stands, innermost first.
-/
def enclosures (around : List Text) : List Text → List (List Text × Text)
  | [] => []
  | l :: ls =>
    let line := l.dropWhile (· = ' ')
    if line = "end".toList then enclosures around.tail ls
    else
      match openedName? line with
      | some name => enclosures (name :: around) ls
      | none => (around, line) :: enclosures around ls

/-- A line that, by its first character, neither opens nor ends a subgraph. -/
def IsInner (s : Text) : Prop :=
  ∃ c r, s = c :: r ∧ c ∉ [' ', 's', 'e']

theorem IsName.isInner {name : Text} (h : IsName name) (rest : Text) : IsInner (name ++ rest) := by
  obtain ⟨c, r, rfl, capital⟩ := h.capital
  refine ⟨c, r ++ rest, rfl, fun other => ?_⟩
  have lower : ∀ d ∈ [' ', 's', 'e'], d.isUpper = false := by decide
  rw [lower c other] at capital
  cases capital

theorem dropWhile_indentBy (level : Nat) {s : Text} (h : s.head? ≠ some ' ') :
    (indentBy level ++ s).dropWhile (· = ' ') = s := by
  rw [List.dropWhile_append_of_pos fun c hc => decide_eq_true (mem_indentBy hc)]
  cases s with
  | nil => rfl
  | cons c r =>
    have other : c ≠ ' ' := fun same => h (congrArg some same)
    exact List.dropWhile_cons_of_neg (by simpa using other)

theorem openedName?_blockHeader {b : Block} (name : IsName b.name) :
    openedName? (blockHeader b) = some b.name := by
  let title : Text := if b.label = b.name then [] else '[' :: (quoteLabel b.label ++ [']'])
  have header : blockHeader b = "subgraph ".toList ++ (b.name ++ title) := List.append_assoc _ _ _
  have behind : afterPrefix? "subgraph ".toList ("subgraph ".toList ++ (b.name ++ title)) =
      some (b.name ++ title) := afterPrefix?_append _ _
  have first : (b.name ++ title).takeWhile isIdentChar = b.name := by
    unfold title
    split
    · rw [List.append_nil, List.takeWhile_eq_self_iff.mpr name.ident]
    · have bracket : isIdentChar '[' = false := by decide
      rw [takeWhile_piece name.ident bracket]
  rw [openedName?, header, behind, Option.map_some, first]

section Step

variable (level : Nat) (around : List Text) (ls : List Text)

theorem enclosures_end :
    enclosures around ((indentBy level ++ "end".toList) :: ls) = enclosures around.tail ls := by
  rw [enclosures, dropWhile_indentBy level (by decide)]
  exact if_pos rfl

theorem enclosures_header {b : Block} (name : IsName b.name) :
    enclosures around ((indentBy level ++ blockHeader b) :: ls) =
      enclosures (b.name :: around) ls := by
  have first : (blockHeader b).head? = some 's' := rfl
  have other : blockHeader b ≠ "end".toList := by
    intro same
    rw [same] at first
    cases first
  rw [enclosures, dropWhile_indentBy level (by rw [first]; decide), if_neg other,
    openedName?_blockHeader name]

theorem enclosures_inner {s : Text} (h : IsInner s) :
    enclosures around ((indentBy level ++ s) :: ls) = (around, s) :: enclosures around ls := by
  obtain ⟨c, r, rfl, other⟩ := h
  rw [List.mem_cons, List.mem_pair, not_or, not_or] at other
  obtain ⟨space, opens, ends⟩ := other
  have indented : (c :: r).head? ≠ some ' ' := fun same => space (Option.some.inj same)
  have closing : c :: r ≠ "end".toList := fun same => ends (List.cons.inj same).1
  have opening : openedName? (c :: r) = none := by
    have mark : "subgraph ".toList = 's' :: "ubgraph ".toList := rfl
    rw [openedName?, mark, afterPrefix?, if_neg (Ne.symm opens)]
    rfl
  rw [enclosures, dropWhile_indentBy level indented, if_neg closing, opening]

/-- Lines that neither open nor end a subgraph are in the same ones. -/
theorem enclosures_map_inner {ss : List Text} (h : ∀ s ∈ ss, IsInner s) :
    enclosures around (ss.map (indentBy level ++ ·) ++ ls) =
      ss.map (around, ·) ++ enclosures around ls := by
  induction ss with
  | nil => rfl
  | cons s ss ih =>
    rw [List.map_cons, List.cons_append, enclosures_inner level around _ (h s List.mem_cons_self),
      ih fun t ht => h t (List.mem_cons_of_mem s ht)]
    rfl

end Step

theorem isInner_nodeLine {n : Node} (h : IsName n.id) (colors : Bool) :
    IsInner (nodeLine colors n) := by
  rw [nodeLine_eq]
  simp only [List.append_assoc]
  exact h.isInner _

theorem isInner_edgeText {e : Edge} (h : IsName e.source) : IsInner (edgeText e) := by
  unfold edgeText
  simp only [List.append_assoc]
  exact h.isInner _

/-- **The lines of blocks in blocks give every node with the blocks around it.** -/
theorem enclosures_lines {colors : Bool} {f : Forest Block Node}
    (blocks : ∀ b ∈ f.blocks, IsName b.name) (nodes : ∀ n ∈ f.nodes, IsName n.id) (level : Nat)
    (around : List Text) (ls : List Text) :
    enclosures around (f.lines colors level ++ ls) =
      ((f.map (·.name) id).entries around).map (Prod.map id (nodeLine colors)) ++
        enclosures around ls := by
  -- the lines inside a block are gone through with its name in front, those behind it without
  induction f generalizing level around ls with
  | nil => rfl
  | cons b inner ms rest innerIh restIh =>
    have inside := innerIh
      (fun c hc => blocks c (List.mem_cons_of_mem b (List.mem_append_left _ hc)))
      (fun n hn => nodes n (List.mem_append_left _ (List.mem_append_left _ hn)))
    have beside := restIh
      (fun c hc => blocks c (List.mem_cons_of_mem b (List.mem_append_right _ hc)))
      (fun n hn => nodes n (List.mem_append_right _ hn))
    have here : ∀ s ∈ ms.map (nodeLine colors), IsInner s := by
      intro s hs
      obtain ⟨n, hn, rfl⟩ := List.mem_map.mp hs
      exact isInner_nodeLine
        (nodes n (List.mem_append_left _ (List.mem_append_right _ hn))) colors
    have members : ms.map (fun n => indentBy level ++ indent ++ nodeLine colors n) =
        (ms.map (nodeLine colors)).map (indentBy (level + 1) ++ ·) := by
      rw [List.map_map, indentBy_succ]
      rfl
    rw [Forest.lines, members]
    simp only [List.cons_append, List.append_assoc, List.nil_append]
    rw [enclosures_header level around _ (blocks b List.mem_cons_self), inside,
      enclosures_map_inner _ _ _ here, enclosures_end, List.tail_cons, beside]
    simp [Forest.map, Forest.entries, Function.comp_def]

theorem isInner_flowchartHeader (direction : Text) : IsInner (flowchartHeader direction) :=
  ⟨'f', "lowchart ".toList ++ direction, rfl, by decide⟩

/-- **A flowchart declares every node inside the blocks around it, and has its edges outside.** -/
theorem enclosures_grouped {g : Graph} (sound : g.Sound) (direction : Text) :
    enclosures [] (groupedLines direction false g g.blocks) =
      ([], flowchartHeader direction) ::
        ((writtenNodes g.nodes g.blocks).map (Prod.map id (nodeLine false)) ++
          g.edges.map fun e => ([], edgeText e)) := by
  have loose : (looseNodes g.nodes g.blocks).map (fun n => indent ++ nodeLine false n) =
      ((looseNodes g.nodes g.blocks).map (nodeLine false)).map (indentBy 1 ++ ·) := by
    rw [List.map_map, indentBy_one]
    rfl
  have edges : g.edges.map edgeLine = (g.edges.map edgeText).map (indentBy 1 ++ ·) := by
    rw [List.map_map, indentBy_one]
    exact List.map_congr_left fun e _ => edgeLine_eq e
  have looseInner : ∀ s ∈ (looseNodes g.nodes g.blocks).map (nodeLine false), IsInner s := by
    intro s hs
    obtain ⟨n, hn, rfl⟩ := List.mem_map.mp hs
    exact isInner_nodeLine (sound.nodes n (mem_written (List.mem_append_right _ hn))).1 false
  have nodes : ∀ n ∈ (forestOf g.nodes g.blocks).nodes, IsName n.id :=
    fun n hn => (sound.nodes n (mem_written (List.mem_append_left _ hn))).1
  have edgesInner : ∀ s ∈ g.edges.map edgeText, IsInner s := by
    intro s hs
    obtain ⟨e, he, rfl⟩ := List.mem_map.mp hs
    exact isInner_edgeText (sound.edges e he).1
  have gap : afterGap ((styleTexts false g).map (indent ++ ·)) = [] := rfl
  have flush : flowchartHeader direction = indentBy 0 ++ flowchartHeader direction := rfl
  have ending : enclosures [] [] = [] := rfl
  rw [groupedLines, flush, loose, edges, gap, List.append_nil, List.append_assoc,
    enclosures_inner 0 [] _ (isInner_flowchartHeader direction),
    enclosures_lines (fun b hb => sound.blocks b (mem_forestOf.mp hb).1) nodes,
    enclosures_map_inner _ _ _ looseInner, ← List.append_nil (List.map _ (g.edges.map edgeText)),
    enclosures_map_inner _ _ _ edgesInner, ending, List.append_nil, ← flush]
  rw [writtenNodes, outlineOf, List.map_append, List.append_assoc, List.map_map, List.map_map,
    List.map_map]
  rfl

/-! ## The groups of shapes -/

def groupLists (scene : List Element) : List (List Text) :=
  (liveShapes scene).map (·.groupIds)

def subgraphName (scene : List Element) (group : Text) : Text :=
  BlockTable.groupName (sceneMembers scene) group

/-- The nodes of the shapes, each with the names of the blocks of the shape's groups. -/
def shapeNodes (scene : List Element) (g : Graph) : List (List Text × Node) :=
  ((liveShapes scene).zip g.nodes).map fun x => (x.1.groupIds.map (subgraphName scene), x.2)

section Scene

variable {scene : List Element} {labels : Dictionary Text} {g : Graph}

theorem Resolved.length_nodes (r : Resolved scene g) :
    g.nodes.length = (liveShapes scene).length := by
  simpa using congrArg List.length r.nodes

theorem Resolved.members (r : Resolved scene g) : sceneMembers scene =
    ((liveShapes scene).zip g.nodes).map fun x => (x.1.groupIds, x.2.id) := by
  have groups : (sceneShapes scene).map (·.element.groupIds) =
      (liveShapes scene).map (·.groupIds) :=
    filterMap_shapeItem? (·.groupIds) (liveElements scene)
  have length : (sceneShapes scene).length = (liveShapes scene).length := by
    simpa using congrArg List.length groups
  apply List.ext_getElem (by simp [sceneMembers, length, r.length_nodes])
  intro k hk hk'
  rw [sceneMembers, List.length_mapIdx] at hk
  have bound : k < (liveShapes scene).length := length ▸ hk
  have bound' : k < g.nodes.length := r.length_nodes ▸ bound
  have group : (sceneShapes scene)[k].element.groupIds = ((liveShapes scene)[k]).groupIds := by
    have here := congrArg (·[k]?) groups
    simpa [hk, bound] using here
  have name : g.nodes[k].id = nodeName k := by
    have here := congrArg (·[k]?) r.nodes
    simp only [List.getElem?_map, List.getElem?_mapIdx, List.getElem?_eq_getElem bound,
      List.getElem?_eq_getElem bound', Option.map_some] at here
    exact (Prod.mk.inj (Option.some.inj here)).1
  simp [sceneMembers, group, name]

theorem Resolved.members_nodup (r : Resolved scene g) :
    ((sceneMembers scene).map Prod.snd).Nodup := by
  rw [r.members, List.map_map]
  have ids : ((liveShapes scene).zip g.nodes).map (Prod.snd ∘ fun x => (x.1.groupIds, x.2.id)) =
      (((liveShapes scene).zip g.nodes).map Prod.snd).map (·.id) := by
    rw [List.map_map]
    rfl
  rw [ids, List.map_snd_zip (Nat.le_of_eq r.length_nodes)]
  exact r.named

theorem Resolved.members_lists (r : Resolved scene g) :
    (sceneMembers scene).map Prod.fst = groupLists scene := by
  rw [r.members, List.map_map]
  have lists : ((liveShapes scene).zip g.nodes).map (Prod.fst ∘ fun x => (x.1.groupIds, x.2.id)) =
      (((liveShapes scene).zip g.nodes).map Prod.fst).map (·.groupIds) := by
    rw [List.map_map]
    rfl
  rw [lists, List.map_fst_zip (Nat.le_of_eq r.length_nodes.symm)]
  rfl

/-- The group around a group, by the first shape in it. -/
def nextGroup (scene : List Element) (group : Text) : Option Text :=
  (behind (groupLists scene) group).head?

section Consistent

variable (distinct : ((liveShapes scene).map (·.id)).Nodup)
  (consistent : Consistent (groupLists scene)) (r : Resolved scene g)

include consistent r

/-- The groups of every shape lie in one another as the groups of all shapes do. -/
theorem members_ways : ∀ x ∈ sceneMembers scene, IsWay (nextGroup scene) x.1 := by
  intro x hx
  have listed : [] ++ x.1 ∈ groupLists scene := by
    rw [← r.members_lists]
    exact List.mem_map_of_mem hx
  exact consistent.isWay listed

include distinct

/-- **The blocks of shapes that agree about their groups are a table along one function.** -/
theorem readGraph_table (read : readGraph scene labels = .ok g) :
    g.blocks = BlockTable.tableFor labels (fun a => a) (sceneMembers scene) (nextGroup scene) := by
  have shapes : ((sceneShapes scene).map (·.element.id)).Nodup := by
    rw [sceneShapes_map_id]
    exact distinct
  have table := @BlockTable.foldl_addMember_ways Text _ labels (fun a => a) (nextGroup scene)
    (fun a => (behind (groupLists scene) a).length) (sceneMembers scene)
    (fun _ _ _ _ same => same) (fun _ _ next => consistent.falls next)
    (members_ways consistent r) r.members_nodup
  simp only [List.map_id'] at table
  rw [readGraph_blocks (readable_of_readGraph read) shapes read, table]

/-- **The blocks around a written node are those of the groups of its shape.** -/
theorem writtenNodes_groups (read : readGraph scene labels = .ok g) {x : List Text × Node}
    (hx : x ∈ writtenNodes g.nodes g.blocks) {s : Element}
    (paired : (s, x.2) ∈ (liveShapes scene).zip g.nodes) :
    x.1 = s.groupIds.map (subgraphName scene) := by
  have member : (s.groupIds, x.2.id) ∈ sceneMembers scene := by
    rw [r.members]
    exact List.mem_map_of_mem paired
  have ways := members_ways consistent r
  have falls (a p : Text) (next : nextGroup scene a = some p) := consistent.falls next
  have around := writtenNodes_way hx
  have place := writtenNodes_place hx
  rw [readGraph_table distinct consistent r read] at around place
  rw [BlockTable.placeOf?_tableFor falls ways r.members_nodup member] at place
  -- both are ways along the parents of the blocks, so it is enough that they begin alike
  refine around.ext ((ways _ member).map fun a ha => ?_) ?_
  · exact BlockTable.parentOf?_tableFor falls ways (BlockTable.mem_mentioned.mpr ⟨_, member, ha⟩)
  · rw [place, List.head?_map]
    rfl

/-- **The written nodes are the nodes of the shapes, each inside the blocks of its groups.** -/
theorem writtenNodes_perm_shapes (read : readGraph scene labels = .ok g) :
    (writtenNodes g.nodes g.blocks).Perm (shapeNodes scene g) := by
  have nodes : ((liveShapes scene).zip g.nodes).map Prod.snd = g.nodes :=
    List.map_snd_zip (Nat.le_of_eq r.length_nodes)
  have written : ((writtenNodes g.nodes g.blocks).map Prod.snd).Perm g.nodes :=
    writtenNodes_perm (readGraph_named read).nodup
  have once : (writtenNodes g.nodes g.blocks).Nodup :=
    .of_map Prod.snd (written.nodup_iff.mpr (.of_map _ r.named))
  have listed : writtenNodes g.nodes g.blocks ⊆ shapeNodes scene g := by
    intro x hx
    have known : x.2 ∈ g.nodes := written.mem_iff.mp (List.mem_map_of_mem hx)
    rw [← nodes] at known
    obtain ⟨⟨s, n⟩, paired, same⟩ := List.mem_map.mp known
    obtain rfl : n = x.2 := same
    refine List.mem_map.mpr ⟨_, paired, ?_⟩
    rw [← writtenNodes_groups distinct consistent r read hx paired]
  have length : (shapeNodes scene g).length = (writtenNodes g.nodes g.blocks).length := by
    rw [shapeNodes, List.length_map, ← List.length_map Prod.snd, nodes, ← written.length_eq,
      List.length_map]
  -- nothing is written twice, so that counting is enough
  exact (List.subperm_of_subset once listed).perm_of_length_le (Nat.le_of_eq length)

end Consistent

end Scene

/-! ## The text -/

/-- Names and labels that have been read are in one line, and so are titles if the labels are. -/
theorem singleLine_of_readGraph {scene : List Element} {labels : Dictionary Text} {g : Graph}
    (read : readGraph scene labels = .ok g)
    (single : ∀ group label, labels.get? group = some label → Unbroken label) :
    SingleLine g g.blocks := by
  have sound := readGraph_sound read
  constructor
  · intro n hn
    obtain ⟨name, -, label⟩ := sound.nodes n hn
    exact ⟨name.isInline.unbroken, label.unbroken⟩
  · intro e he
    obtain ⟨source, target, label⟩ := sound.edges e he
    exact ⟨source.isInline.unbroken, target.isInline.unbroken, label.unbroken⟩
  · intro b hb
    have name := (sound.blocks b hb).isInline.unbroken
    refine ⟨name, ?_⟩
    rw [(readGraph_named read).titles b hb]
    rcases titleOf_cases labels b.sourceId b.name with same | ⟨-, found⟩
    · rw [same]
      exact name
    · exact single _ _ found

/-- A text shows the groups of a scene as subgraphs. -/
structure ShowsGroups (scene : List Element) (g : Graph) (direction code : Text) : Prop where
  /-- Every group has a block, of which the subgraph has the name. -/
  blocks : g.blocks.map (fun b => (b.sourceId, b.name)) =
    (BlockTable.mentioned (sceneMembers scene)).map fun group => (group, subgraphName scene group)
  /-- Blocks have names of their own. -/
  names : (g.blocks.map (·.name)).Nodup
  /-- Around the line of a node there are the subgraphs of the groups of its shape. -/
  lines : ∃ declared,
    declared.Perm ((shapeNodes scene g).map (Prod.map id (nodeLine false))) ∧
    enclosures [] (Drawbridge.lines code) = ([], flowchartHeader direction) ::
      (declared ++ g.edges.map fun e => ([], edgeText e))

/-- The lines of a flowchart with blocks show the groups of a scene that agree. -/
theorem showsGroups_grouped {scene : List Element} {labels : Dictionary Text} {direction : Text}
    {g : Graph} (distinct : ((liveShapes scene).map (·.id)).Nodup)
    (consistent : Consistent (groupLists scene)) (r : Resolved scene g)
    (read : readGraph scene labels = .ok g) (hd : direction ∈ directions)
    (single : ∀ group label, labels.get? group = some label → Unbroken label) :
    ShowsGroups scene g direction (joinLines (groupedLines direction false g g.blocks)) := by
  have names := (readGraph_named read).nodup
  have sound := (singleLine_of_readGraph read single).lines names hd
  have perm := writtenNodes_perm_shapes distinct consistent r read
  refine ⟨?_, names, _, perm.map (Prod.map id (nodeLine false)), ?_⟩
  · rw [readGraph_table distinct consistent r read]
    exact List.map_map
  · rw [lines_joinLines (fun l hl => (sound l hl).1)
      fun l hl => (sound l (List.mem_of_mem_getLast? hl)).2]
    exact enclosures_grouped (readGraph_sound read) direction

/--
**Groups that agree come out as subgraphs.** Where the shapes of a scene have different identifiers
and agree about their groups, a flowchart with groups declares the node of every shape inside the
subgraphs of the groups of the shape and no others, from the innermost to the outermost, and
everything else outside all subgraphs.
-/
theorem convertScene_showsGroups {scene : List Element} {options : ConvertOptions}
    {direction : Text} (distinct : ((liveShapes scene).map (·.id)).Nodup)
    (consistent : Consistent (groupLists scene))
    (kind : DiagramType.ofJson options.diagramType = .ok .flowchart)
    (dir : readDirection options.direction = .ok direction)
    (grouped : options.includeGroups = true) (plain : options.includeColors = false)
    (single : ∀ group label, options.groupLabels.get? group = some label → Unbroken label) :
    ((∃ code, convertScene scene options = .ok code) ↔ Readable scene) ∧
    ∀ code, convertScene scene options = .ok code →
      ∃ g, readGraph scene options.groupLabels = .ok g ∧ Resolved scene g ∧
        ShowsGroups scene g direction code := by
  have text (g : Graph) : writeGraph g options.toWriteOptions g.blocks =
      .ok (joinLines (groupedLines direction false g g.blocks)) := by
    rw [writeGraph_eq (fun colors => absurd colors (by simp [plain])) kind dir, plain]
  refine ⟨⟨?_, ?_⟩, ?_⟩
  · rintro ⟨code, written⟩
    obtain ⟨g, read, -⟩ := ok_of_bind written
    exact readable_of_readGraph read
  · intro h
    have read := readGraph_readable h options.groupLabels
    have converted : convertScene scene options = .ok (joinLines (groupedLines direction false
        (graphRead options.groupLabels scene) (graphRead options.groupLabels scene).blocks)) := by
      rw [convertScene, read, grouped]
      exact text (graphRead options.groupLabels scene)
    exact ⟨_, converted⟩
  · intro code written
    obtain ⟨g, read, written⟩ := ok_of_bind written
    rw [grouped, if_pos rfl, text] at written
    obtain rfl := Except.ok.inj written
    have r : Resolved scene g := by
      rw [(readGraph_eq_ok_iff.mp read).2]
      exact graphRead_resolved distinct
    exact ⟨g, read, r, showsGroups_grouped distinct consistent r read
      (mem_directions_of_readDirection dir) single⟩

/-- Shapes in a group, in a group in it, in another group and in none, and a deleted shape that
would put the groups into one another the other way round. -/
def nestedScene : List Element :=
  [{ id := "1".toList, type := "arrow".toList, startId := some "c".toList,
     endId := some "a".toList },
    { id := "x".toList, type := "ellipse".toList, groupIds := ["out".toList, "in".toList],
      isDeleted := true },
    { id := "a".toList, type := "rectangle".toList, groupIds := ["out".toList] },
    { id := "b".toList, type := "ellipse".toList, groupIds := ["in".toList, "out".toList] },
    { id := "c".toList, type := "diamond".toList },
    { id := "d".toList, type := "rectangle".toList, groupIds := ["far".toList] },
    { id := "e".toList, type := "rectangle".toList, groupIds := ["in".toList, "out".toList] }]

/-- With groups, one of them under a label, and without colours. -/
def nestedOptions : ConvertOptions where
  includeColors := false
  includeGroups := true
  groupLabels := [("out".toList, "end of [it]".toList)]

theorem unbroken_nestedOptions :
    ∀ group label, nestedOptions.groupLabels.get? group = some label → Unbroken label := by
  intro group label found
  have title : label = "end of [it]".toList := by
    by_cases same : "out".toList = group
    · exact (Option.some.inj ((if_pos same).symm.trans found)).symm
    · exact absurd ((if_neg same).symm.trans found) (by simp [Dictionary.get?])
  subst title
  unfold Unbroken
  decide

def nestedText : Text :=
  joinLines (["flowchart TD", "    subgraph G1[\"end of [it]\"]", "        subgraph G2",
    "            B((B))", "            E[E]", "        end", "        A[A]", "    end",
    "    subgraph G3", "        D[D]", "    end", "    C\x7bC\x7d",
    "    C --> A"].map String.toList)

/-- The groups of the scene, and where its nodes and its edge are. -/
theorem convertScene_showsGroups_nestedScene :
    ((liveShapes nestedScene).map (·.id)).Nodup ∧ Consistent (groupLists nestedScene) ∧
    convertScene nestedScene nestedOptions = .ok nestedText ∧
    (∃ g, readGraph nestedScene nestedOptions.groupLabels = .ok g ∧
      ShowsGroups nestedScene g "TD".toList nestedText) ∧
    (enclosures [] (lines nestedText)).map (Prod.map (List.map String.ofList) String.ofList) =
      [([], "flowchart TD"), (["G2", "G1"], "B((B))"), (["G2", "G1"], "E[E]"), (["G1"], "A[A]"),
        (["G3"], "D[D]"), ([], "C\x7bC\x7d"), ([], "C --> A")] := by
  have distinct : ((liveShapes nestedScene).map (·.id)).Nodup := by decide +kernel
  have consistent : Consistent (groupLists nestedScene) := ⟨by decide +kernel, by decide +kernel⟩
  have written : convertScene nestedScene nestedOptions = .ok nestedText := by
    apply eq_ok_of_toOption
    decide +kernel
  obtain ⟨g, read, -, shown⟩ := (@convertScene_showsGroups nestedScene nestedOptions "TD".toList
    distinct consistent rfl rfl rfl rfl unbroken_nestedOptions).2 nestedText written
  exact ⟨distinct, consistent, written, ⟨g, read, shown⟩, by decide +kernel⟩

end Drawbridge
