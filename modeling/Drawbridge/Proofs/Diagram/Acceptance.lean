import Drawbridge.Proofs.Diagram.ClassReader
import Drawbridge.Proofs.Diagram.Prepared
import Drawbridge.Proofs.Diagram.SequenceReader

/-!
Whether what is written for a scene can be rendered. Names are canonical and labels are tidy, so
that neither breaks a line; titles of groups and colours are written as they were given. A diagram
stays intact, line by line, and is rendered just if none of these breaks a line
(`convertScene_intact_iff`). One that does leaves a text that is refused (`convertScene_refused`).
-/

namespace Drawbridge

/-! ## Lines of a diagram -/

def graphLines (g : Graph) (options : WriteOptions) (blocks : List Block) :
    Except Fault (List Text) := do
  match ← DiagramType.ofJson options.diagramType with
  | .flowchart =>
    let direction ← readDirection options.direction
    flowchartLines g direction options.includeColors blocks
  | .classDiagram => return classLines g
  | .sequenceDiagram => return sequenceLines g

theorem writeGraph_eq_map (g : Graph) (options : WriteOptions) (blocks : List Block) :
    writeGraph g options blocks = (graphLines g options blocks).map joinLines := by
  unfold writeGraph graphLines
  cases DiagramType.ofJson options.diagramType with
  | error e => rfl
  | ok kind =>
    cases kind with
    | flowchart =>
      cases readDirection options.direction with
      | error e => rfl
      | ok direction =>
        show (flowchartLines g direction options.includeColors blocks >>= _) =
          (flowchartLines g direction options.includeColors blocks).map joinLines
        cases flowchartLines g direction options.includeColors blocks <;> rfl
    | classDiagram => rfl
    | sequenceDiagram => rfl

def ConvertOptions.blocksOf (options : ConvertOptions) (g : Graph) : List Block :=
  if options.includeGroups then g.blocks else []

/-- The texts that a diagram shows as they were given: the titles of its blocks, and its colours. -/
def givenTexts (kind : DiagramType) (options : ConvertOptions) (g : Graph) : List Text :=
  match kind with
  | .flowchart =>
    (forestOf g.nodes (options.blocksOf g)).blocks.map (·.label) ++
      if options.includeColors then
        g.styles.flatMap fun s => [writtenColour s.fill, writtenColour s.stroke]
      else []
  | .classDiagram | .sequenceDiagram => []

/--
Put together, the lines are still the lines of the text. A renderer sees them one by one, each
without its fences and tags, and reads them as a diagram.
-/
structure Intact (ls : List Text) : Prop where
  lines : lines (joinLines ls) = ls
  seen : diagramLines (prepareForRendering (joinLines ls)) =
    (ls.filter (· ≠ [])).map prepareForRendering
  rendered : ∃ r, renderDiagram (joinLines ls) = .ok r

/-- Rows that are read stay intact. -/
theorem intact_of_rows {header : Text} {ls ss : List Text} (hh : IsRow header)
    (rows : Rows IsRow ls ss) (read : ∃ d, readDiagram (joinLines (header :: ls)) = .ok d) :
    Intact (header :: ls) := by
  have whole : Rows IsRow (header :: ls) (header :: ss) := .line 0 hh rows
  obtain ⟨d, hd⟩ := read
  refine ⟨whole.lines_joinLines, ?_, Layout.render d, ?_⟩
  · rw [diagramLines_rows hh rows, whole.map_prepare]
  · rw [renderDiagram, hd]
    rfl

/-! ## What breaks a line -/

theorem Unbroken.left {p q : Text} (h : Unbroken (p ++ q)) : Unbroken p :=
  fun c hc => h c (List.mem_append_left q hc)

theorem Unbroken.right {p q : Text} (h : Unbroken (p ++ q)) : Unbroken q :=
  fun c hc => h c (List.mem_append_right p hc)

/-- A label is written with its line breaks. -/
theorem unbroken_of_quoteLabel {s : Text} (h : Unbroken (quoteLabel s)) : Unbroken s := by
  intro c hc
  rcases quoteLabel_cases s with hq | ⟨hq, -⟩ <;> rw [hq] at h
  · by_cases quote : c = '"'
    · subst quote
      decide
    · refine h c (List.mem_cons_of_mem _ (List.mem_append_left _ ?_))
      exact List.mem_flatMap.mpr ⟨c, hc, by simp [quote]⟩
  · exact h c hc

theorem unbroken_of_blockHeader {b : Block} (name : IsName b.name) (h : Unbroken (blockHeader b)) :
    Unbroken b.label := by
  rw [blockHeader_eq] at h
  unfold writtenTitle? at h
  split at h
  · rename_i same
    rw [same]
    exact name.isInline.unbroken
  · rw [headerWith_some] at h
    exact unbroken_of_quoteLabel h.right.left

theorem Forest.exists_header (colors : Bool) {f : Forest Block Node} {b : Block} (hb : b ∈ f.blocks)
    (level : Nat) : ∃ k, indentBy k ++ blockHeader b ∈ f.lines colors level := by
  induction f generalizing level with
  | nil => cases hb
  | cons c inner ms rest innerIh restIh =>
    rw [lines, List.cons_append]
    rcases List.mem_cons.mp hb with rfl | hb
    · exact ⟨level, List.mem_cons_self⟩
    rcases List.mem_append.mp hb with hb | hb
    · obtain ⟨k, hk⟩ := innerIh hb (level + 1)
      exact ⟨k, List.mem_cons_of_mem _
        (List.mem_append_left _ (List.mem_append_left _ (List.mem_append_left _ hk)))⟩
    · obtain ⟨k, hk⟩ := restIh hb level
      exact ⟨k, List.mem_cons_of_mem _ (List.mem_append_right _ hk)⟩

theorem mem_afterGap {l : Text} {ls : List Text} (h : l ∈ ls) : l ∈ afterGap ls := by
  rw [afterGap, if_neg (List.ne_nil_of_mem h)]
  exact List.mem_cons_of_mem _ h

/-- Blocks that are written are those of the graph, or none. -/
theorem ConvertOptions.blocksOf_sublist (options : ConvertOptions) (g : Graph) :
    (options.blocksOf g).Sublist g.blocks := by
  unfold ConvertOptions.blocksOf
  split
  · exact .refl _
  · exact List.nil_sublist _

section Flowcharts

variable {g : Graph} {options : ConvertOptions}

/-- Where the lines of a flowchart are not broken, its titles and colours are not. -/
theorem unbroken_of_linesWith (names : ∀ b ∈ options.blocksOf g, IsName b.name)
    (h : ∀ l ∈ linesWith (styleRows options.includeColors g) options.includeColors g
      (options.blocksOf g), Unbroken l) :
    ∀ t ∈ givenTexts .flowchart options g, Unbroken t := by
  intro t ht
  rcases List.mem_append.mp ht with ht | ht
  · obtain ⟨b, hb, rfl⟩ := List.mem_map.mp ht
    obtain ⟨k, hk⟩ := Forest.exists_header options.includeColors hb 1
    have line := h _ (List.mem_append_left _ (List.mem_append_left _ (List.mem_append_left _ hk)))
    exact unbroken_of_blockHeader (names b (mem_forestOf.mp hb).1) line.right
  · split at ht
    · rename_i coloured
      obtain ⟨s, hs, ht⟩ := List.mem_flatMap.mp ht
      have row : styleRow s ∈ styleRows options.includeColors g := by
        rw [styleRows, if_pos coloured]
        exact List.mem_map_of_mem hs
      have line := h _ (List.mem_append_right _ (mem_afterGap (List.mem_map_of_mem row)))
      have definition := line.right
      rw [styleRow, styleWith_semicolon] at definition
      rcases List.mem_cons.mp ht with rfl | ht
      · exact definition.right.left
      · rw [List.mem_singleton.mp ht]
        exact definition.right.right.right.left
    · cases ht

/-- **A flowchart is intact just if its titles and colours break no line.** -/
theorem intact_flowchart_iff (h : g.Sound) {direction : Text} (hd : direction ∈ directions) :
    Intact (flowchartHeader direction ::
      linesWith (styleRows options.includeColors g) options.includeColors g (options.blocksOf g)) ↔
      ∀ t ∈ givenTexts .flowchart options g, Unbroken t := by
  have names : ∀ b ∈ options.blocksOf g, IsName b.name :=
    fun b hb => h.blocks b ((options.blocksOf_sublist g).subset hb)
  constructor
  · intro intact
    apply unbroken_of_linesWith names
    intro l hl
    have line : l ∈ lines (joinLines (flowchartHeader direction :: _)) :=
      intact.lines.symm ▸ List.mem_cons_of_mem _ hl
    exact not_lineBreak_of_mem_lines line
  · intro whole
    have rows := rows_flowchart h names options.includeColors
      (fun b hb => whole _ (List.mem_append_left _ (List.mem_map_of_mem hb))) (by
        intro coloured s hs
        have given : ∀ t ∈ [writtenColour s.fill, writtenColour s.stroke], Unbroken t := by
          intro t ht
          refine whole t (List.mem_append_right _ ?_)
          rw [if_pos coloured]
          exact List.mem_flatMap.mpr ⟨s, hs, ht⟩
        exact ⟨given _ List.mem_cons_self, given _ (List.mem_cons_of_mem _ List.mem_cons_self)⟩)
    exact intact_of_rows (isLine_header hd).isRow rows (readDiagram_flowRows h names hd rows)

end Flowcharts

/-! ## Scenes -/

theorem intact_classLines {g : Graph} (h : g.Sound) : Intact (classLines g) := by
  have read := readDiagram_classLines h
  have rows := Rows.level 1 (isRow_classTexts h)
  rw [indentBy_one] at rows
  rw [classLines_eq] at read ⊢
  exact intact_of_rows DiagramType.classDiagram.isLine_name.isRow rows ⟨_, read⟩

theorem intact_sequenceLines {g : Graph} (h : g.Sound) : Intact (sequenceLines g) := by
  have read := readDiagram_sequenceLines h
  have rows := Rows.level 1 (isRow_messageTexts h)
  rw [indentBy_one] at rows
  rw [sequenceLines_eq] at read ⊢
  exact intact_of_rows DiagramType.sequenceDiagram.isLine_name.isRow rows ⟨_, read⟩

theorem graphLines_of_convertScene {scene : List Element} {options : ConvertOptions} {code : Text}
    (written : convertScene scene options = .ok code) :
    ∃ g ls, readGraph scene options.groupLabels = .ok g ∧
      graphLines g options.toWriteOptions (options.blocksOf g) = .ok ls ∧ code = joinLines ls := by
  unfold convertScene at written
  cases read : readGraph scene options.groupLabels with
  | error e =>
    rw [read] at written
    cases written
  | ok g =>
    rw [read] at written
    change writeGraph g options.toWriteOptions (options.blocksOf g) = _ at written
    rw [writeGraph_eq_map] at written
    cases lines : graphLines g options.toWriteOptions (options.blocksOf g) with
    | error e =>
      rw [lines] at written
      cases written
    | ok ls =>
      rw [lines] at written
      exact ⟨g, ls, rfl, lines, (Except.ok.inj written).symm⟩

/--
**What is written for a scene is rendered, line by line as it was written, just if no title of a
group and no colour in it breaks a line.** Labels may hold anything, and no diagram without titles
and colours is ever refused.
-/
theorem convertScene_intact_iff {scene : List Element} {options : ConvertOptions} {code : Text}
    (written : convertScene scene options = .ok code) :
    ∃ kind g ls, DiagramType.ofJson options.diagramType = .ok kind ∧
      readGraph scene options.groupLabels = .ok g ∧
      graphLines g options.toWriteOptions (options.blocksOf g) = .ok ls ∧ code = joinLines ls ∧
      (Intact ls ↔ ∀ t ∈ givenTexts kind options g, Unbroken t) := by
  obtain ⟨g, ls, read, lines, rfl⟩ := graphLines_of_convertScene written
  have sound := readGraph_sound read
  have ungiven : ∀ t ∈ ([] : List Text), Unbroken t := fun t ht => absurd ht List.not_mem_nil
  unfold graphLines at lines
  cases hk : DiagramType.ofJson options.diagramType with
  | error e =>
    rw [hk] at lines
    cases lines
  | ok kind =>
    have whole := lines
    rw [hk] at lines
    refine ⟨kind, g, ls, rfl, read, whole, rfl, ?_⟩
    cases kind with
    | flowchart =>
      change (readDirection options.direction >>= _) = _ at lines
      cases hd : readDirection options.direction with
      | error e =>
        rw [hd] at lines
        cases lines
      | ok direction =>
        rw [hd] at lines
        rw [flowchartLines_eq_ok lines]
        exact intact_flowchart_iff sound (mem_directions_of_readDirection hd)
    | classDiagram =>
      cases lines
      exact ⟨fun _ => ungiven, fun _ => intact_classLines sound⟩
    | sequenceDiagram =>
      cases lines
      exact ⟨fun _ => ungiven, fun _ => intact_sequenceLines sound⟩

/-- A scene with fences, tags, quotes, brackets, line breaks and keywords in its labels, and with
words that are no colour. -/
def wildScene : List Element :=
  [{ id := "a".toList, type := "rectangle".toList, fill := .str "red, blue".toList,
     stroke := .str "#000000".toList, groupIds := ["g".toList] },
    { id := "s".toList, type := "text".toList, text := .str "```json <br/>\nend | \"]".toList,
      containerId := .str "a".toList },
    { id := "b".toList, type := "ellipse".toList, fill := .str "red, blue".toList,
      stroke := .str "#000000".toList },
    { id := "e".toList, type := "arrow".toList, startId := some "a".toList,
      endId := some "b".toList },
    { id := "t".toList, type := "text".toList, text := .str "x|y\nsubgraph <br>".toList,
      containerId := .str "e".toList }]

/-- The scene is written with a title that looks like an end. -/
def wildOptions : ConvertOptions where
  includeGroups := true
  groupLabels := [("g".toList, "end <br> \"]".toList)]

def wildLines : List Text :=
  ["flowchart TD", "    subgraph G1[\"end <br> #quot;]\"]",
    "        A[\"```json <br/> end | #quot;]\"]:::C1", "    end", "    B((B)):::C1",
    "    A -->|\"x|y subgraph <br>\"| B", "",
    "    classDef C1 fill:red  blue,stroke:#000000,stroke-width:2px;"].map String.toList

/-- None of this breaks a line. -/
theorem convertScene_intact_wildScene :
    convertScene wildScene wildOptions = .ok (joinLines wildLines) ∧ Intact wildLines := by
  have text : (convertScene wildScene wildOptions).toOption = some (joinLines wildLines) := by
    decide +kernel
  have written := eq_ok_of_toOption text
  obtain ⟨kind, g, ls, flowchart, read, -, code, intact_iff⟩ := convertScene_intact_iff written
  obtain rfl := Except.ok.inj flowchart
  obtain ⟨-, rfl⟩ := readGraph_eq_ok_iff.mp read
  have whole : ∀ t ∈ givenTexts .flowchart wildOptions
      (graphRead wildOptions.groupLabels wildScene), ∀ c ∈ t, isLineBreak c = false := by
    decide +kernel
  have intact := intact_iff.mpr whole
  have same : lines (joinLines wildLines) = wildLines := by decide +kernel
  rw [code, intact.lines] at same
  exact ⟨written, same ▸ intact⟩

/-- A shape in a group. -/
def brokenScene : List Element :=
  [{ id := "a".toList, type := "rectangle".toList, fill := .str "#ffffff".toList,
     stroke := .str "#000000".toList, groupIds := ["g".toList] }]

/-- The title of the group has two lines. -/
def brokenOptions : ConvertOptions where
  includeColors := false
  includeGroups := true
  groupLabels := [("g".toList, "a\nb".toList)]

/-- **A scene whose text is refused.** The title is written as two lines. -/
theorem convertScene_refused :
    (brokenScene.map (·.id)).Nodup ∧
    ∃ code, convertScene brokenScene brokenOptions = .ok code ∧
      code = "flowchart TD\n    subgraph G1[a\nb]\n        A[A]\n    end".toList ∧
      renderDiagram code = .error (.badLine 3 "b]".toList) := by
  have text : (convertScene brokenScene brokenOptions).toOption =
      some "flowchart TD\n    subgraph G1[a\nb]\n        A[A]\n    end".toList := by
    decide +kernel
  have refused : readDiagram "flowchart TD\n    subgraph G1[a\nb]\n        A[A]\n    end".toList =
      .error (.badLine 3 "b]".toList) := by
    decide +kernel
  refine ⟨by decide, _, eq_ok_of_toOption text, rfl, ?_⟩
  rw [renderDiagram, refused]
  rfl

end Drawbridge
