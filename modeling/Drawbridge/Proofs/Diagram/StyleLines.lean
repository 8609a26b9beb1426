import Drawbridge.Proofs.Diagram.Acceptance
import Drawbridge.Proofs.Diagram.Enclosure
import Drawbridge.Proofs.Graph.StyleTable

/-!
The style classes that a flowchart shows. Before the edges, the lines that name a class at their end
are the declarations of the nodes, with or without blocks around them, and no line defines a class;
behind the edges it is the other way round (`classesShown`). With the table of a scene whose colours
are texts, every class that a node line names is defined by one line, in the colours of the node,
and every class that is defined is named (`convertScene_stylesExact`).
-/

namespace Drawbridge

/-! ## Lines that name or define a class -/

/-- A line that names a style class at its end, behind three colons: the line without its
indentation, and the class. -/
def classedLine? (line : Text) : Option (Text × Text) :=
  let name := (line.reverse.takeWhile isIdentChar).reverse
  if name ≠ [] && ":::".toList.isPrefixOf (line.reverse.dropWhile isIdentChar) then
    some (line.dropWhile (· = ' '), name)
  else none

def definedClass? (line : Text) : Option Text :=
  (afterPrefix? "classDef ".toList (line.dropWhile (· = ' '))).map (·.takeWhile isIdentChar)

theorem reverse_ident {p name : Text} (hp : ∀ c ∈ p.getLast?, isIdentChar c = false)
    (hname : ∀ c ∈ name, isIdentChar c = true) :
    (p ++ name).reverse.takeWhile isIdentChar = name.reverse ∧
      (p ++ name).reverse.dropWhile isIdentChar = p.reverse := by
  have ident : ∀ c ∈ name.reverse, isIdentChar c = true :=
    fun c hc => hname c (List.mem_reverse.mp hc)
  rw [List.reverse_append]
  cases hr : p.reverse with
  | nil =>
    rw [List.append_nil]
    exact ⟨List.takeWhile_eq_self_iff.mpr ident, List.dropWhile_eq_nil_iff.mpr ident⟩
  | cons c r =>
    have last : p.getLast? = some c := by rw [← List.head?_reverse, hr]; rfl
    exact ⟨takeWhile_piece ident (hp c last) r, dropWhile_piece ident (hp c last) r⟩

/-- A name behind three colons is named at the end. -/
theorem classedLine?_marked (p : Text) {name : Text} (h : IsIdent name) :
    classedLine? (p ++ ":::".toList ++ name) =
      some ((p ++ ":::".toList ++ name).dropWhile (· = ' '), name) := by
  have colon : ∀ c ∈ (p ++ ":::".toList).getLast?, isIdentChar c = false := by
    intro c hc
    rw [List.getLast?_append] at hc
    cases hc
    decide
  obtain ⟨ident, before⟩ := reverse_ident colon h.ident
  have marked : ":::".toList.isPrefixOf (p ++ ":::".toList).reverse = true := by
    rw [List.reverse_append, List.isPrefixOf_iff_prefix]
    exact List.prefix_append _ _
  unfold classedLine?
  rw [ident, before, List.reverse_reverse, marked]
  simp [h.ne_nil]

/-- Where no colon comes before the identifier at its end, a line names no class. -/
theorem classedLine?_eq_none {p name : Text}
    (hp : ∀ c ∈ p.getLast?, isIdentChar c = false ∧ c ≠ ':')
    (hname : ∀ c ∈ name, isIdentChar c = true) : classedLine? (p ++ name) = none := by
  obtain ⟨ident, before⟩ := reverse_ident (fun c hc => (hp c hc).1) hname
  have unmarked : ":::".toList.isPrefixOf p.reverse = false := by
    cases hr : p.reverse with
    | nil => rfl
    | cons c r =>
      have last : p.getLast? = some c := by rw [← List.head?_reverse, hr]; rfl
      have other : (':' == c) = false := beq_eq_false_iff_ne.mpr (hp c last).2.symm
      show ((':' == c) && _) = false
      rw [other, Bool.false_and]
  unfold classedLine?
  rw [before, unmarked]
  simp

theorem classedLine?_closed (p : Text) {c : Char} (hc : isIdentChar c = false ∧ c ≠ ':')
    (name : Text) (hname : ∀ d ∈ name, isIdentChar d = true) :
    classedLine? (p ++ [c] ++ name) = none := by
  apply classedLine?_eq_none _ hname
  intro d hd
  rw [List.getLast?_concat] at hd
  cases hd
  exact hc

/-- A line that begins with another letter defines no class. -/
theorem definedClass?_eq_none (level : Nat) {s : Text} (h : ∃ c r, s = c :: r ∧ c ∉ [' ', 'c']) :
    definedClass? (indentBy level ++ s) = none := by
  obtain ⟨c, r, rfl, other⟩ := h
  rw [List.mem_pair, not_or] at other
  have solid : (c :: r).head? ≠ some ' ' := fun same => other.1 (Option.some.inj same)
  have mark : "classDef ".toList = 'c' :: "lassDef ".toList := rfl
  rw [definedClass?, dropWhile_indentBy level solid, mark, afterPrefix?, if_neg (Ne.symm other.2)]
  rfl

theorem IsName.defines_nothing {name : Text} (h : IsName name) (rest : Text) :
    ∃ c r, name ++ rest = c :: r ∧ c ∉ [' ', 'c'] := by
  obtain ⟨c, r, rfl, capital⟩ := h.capital
  refine ⟨c, r ++ rest, rfl, fun other => ?_⟩
  have lower : ∀ d ∈ [' ', 'c'], d.isUpper = false := by decide
  rw [lower c other] at capital
  cases capital

/-! ## The lines of a flowchart -/

section Lines

theorem classedLine?_nodeLine (level : Nat) {n : Node} (id : IsName n.id)
    (style : IsName n.styleClass) :
    classedLine? (indentBy level ++ nodeLine true n) = some (nodeLine true n, n.styleClass) := by
  have line : indentBy level ++ nodeLine true n =
      indentBy level ++ (n.id ++ (brackets n.shape).1 ++ quoteLabel n.shownLabel ++
        (brackets n.shape).2) ++ ":::".toList ++ n.styleClass := by
    rw [nodeLine_eq, styleMark, if_pos rfl]
    simp only [List.append_assoc]
  have solid : (nodeLine true n).head? ≠ some ' ' := by
    obtain ⟨c, r, hn, other⟩ := isInner_nodeLine id true
    rw [hn]
    intro same
    exact other (List.mem_cons.mpr (.inl (Option.some.inj same)))
  have marked := classedLine?_marked (indentBy level ++ (n.id ++ (brackets n.shape).1 ++
    quoteLabel n.shownLabel ++ (brackets n.shape).2)) style.isIdent
  rwa [← line, dropWhile_indentBy level solid] at marked

theorem classedLine?_blockHeader (level : Nat) {b : Block} (name : IsName b.name) :
    classedLine? (indentBy level ++ blockHeader b) = none := by
  unfold blockHeader
  split
  · have closed := classedLine?_closed (indentBy level ++ "subgraph".toList)
      (show isIdentChar ' ' = false ∧ ' ' ≠ ':' by decide) b.name name.ident
    rw [List.append_nil, ← List.append_assoc]
    simpa using closed
  · have closed := classedLine?_closed (indentBy level ++ ("subgraph ".toList ++ b.name ++
      '[' :: quoteLabel b.label)) (show isIdentChar ']' = false ∧ ']' ≠ ':' by decide) [] nofun
    simpa using closed

theorem classedLine?_end (level : Nat) : classedLine? (indentBy level ++ "end".toList) = none := by
  apply classedLine?_eq_none
  · intro c hc
    rw [mem_indentBy (List.mem_of_getLast? hc)]
    decide
  · decide

theorem classedLine?_edgeLine {e : Edge} (target : IsName e.target) :
    classedLine? (edgeLine e) = none := by
  rw [edgeLine_eq, edgeText, ← List.append_assoc, ← List.append_assoc]
  exact classedLine?_closed _ (by decide) e.target target.ident

theorem classedLine?_styleRow (s : StyleClass) : classedLine? (indent ++ styleRow s) = none := by
  have closed := classedLine?_closed (indent ++ styleWith s (writtenColour s.fill)
    (writtenColour s.stroke)) (show isIdentChar ';' = false ∧ ';' ≠ ':' by decide) [] nofun
  rwa [List.append_nil, List.append_assoc] at closed

theorem definedClass?_styleRow {s : StyleClass} (name : IsName s.name) :
    definedClass? (indent ++ styleRow s) = some s.name := by
  have line : styleRow s = "classDef ".toList ++ (s.name ++ ([' '] ++
      (propertiesWith (writtenColour s.fill) (writtenColour s.stroke) ++ [';']))) := by
    unfold styleRow styleWith
    simp only [List.append_assoc]
  have first : (styleRow s).head? = some 'c' := rfl
  have solid : (styleRow s).head? ≠ some ' ' := by
    rw [first]
    decide
  rw [← indentBy_one, definedClass?, dropWhile_indentBy 1 solid, line, afterPrefix?_append,
    Option.map_some, List.singleton_append, takeWhile_piece name.ident (by decide)]

end Lines

def declarations (g : Graph) (blocks : List Block) : List Text :=
  (forestOf g.nodes blocks).lines true 1 ++
    (looseNodes g.nodes blocks).map (fun n => indent ++ nodeLine true n)

/-- The definitions of the style classes, behind an empty line. -/
def definitions (g : Graph) : List Text :=
  afterGap ((g.styles.map styleRow).map (indent ++ ·))

/-- In the lines of blocks in blocks, those that name a class are the declarations of the nodes. -/
theorem Forest.filterMap_classedLine? {f : Forest Block Node}
    (blocks : ∀ b ∈ f.blocks, IsName b.name)
    (nodes : ∀ n ∈ f.nodes, IsName n.id ∧ IsName n.styleClass) (level : Nat) :
    (f.lines true level).filterMap classedLine? =
      f.nodes.map fun n => (nodeLine true n, n.styleClass) := by
  induction f generalizing level with
  | nil => rfl
  | cons b inner ms rest innerIh restIh =>
    have inside := innerIh (fun c hc => blocks c (List.mem_cons_of_mem b (List.mem_append_left _ hc)))
      (fun n hn => nodes n (List.mem_append_left _ (List.mem_append_left _ hn))) (level + 1)
    have here : (ms.map fun n => indentBy level ++ indent ++ nodeLine true n).filterMap
        classedLine? = ms.map fun n => (nodeLine true n, n.styleClass) := by
      rw [List.filterMap_map, ← List.filterMap_eq_map]
      apply List.filterMap_congr
      intro n hn
      obtain ⟨id, style⟩ := nodes n (List.mem_append_left _ (List.mem_append_right _ hn))
      rw [Function.comp_apply, indentBy_succ]
      exact classedLine?_nodeLine (level + 1) id style
    have behind := restIh
      (fun c hc => blocks c (List.mem_cons_of_mem b (List.mem_append_right _ hc)))
      (fun n hn => nodes n (List.mem_append_right _ hn)) level
    have header := classedLine?_blockHeader level (blocks b List.mem_cons_self)
    rw [lines, List.filterMap_append, List.filterMap_cons, header, List.filterMap_append,
      List.filterMap_append, inside, here, behind, List.filterMap_cons, classedLine?_end,
      List.filterMap_nil, List.append_nil, Forest.nodes, List.map_append, List.map_append]

section Flowchart

variable {g : Graph} {blocks : List Block}

/-- The lines that name a class in the declarations are those of the nodes, each once. -/
theorem declarations_classed (h : g.Sound) (names : ∀ b ∈ blocks, IsName b.name)
    (distinct : (blocks.map (·.name)).Nodup) :
    ((declarations g blocks).filterMap classedLine?).Perm
      (g.nodes.map fun n => (nodeLine true n, n.styleClass)) := by
  have written : ∀ n ∈ (forestOf g.nodes blocks).nodes ++ looseNodes g.nodes blocks,
      IsName n.id ∧ IsName n.styleClass := by
    intro n hn
    obtain ⟨id, style, -⟩ := h.nodes n (mem_written hn)
    exact ⟨id, style⟩
  have forest := Forest.filterMap_classedLine? (f := forestOf g.nodes blocks)
    (fun b hb => names b (mem_forestOf.mp hb).1)
    (fun n hn => written n (List.mem_append_left _ hn)) 1
  have loose : ((looseNodes g.nodes blocks).map fun n => indent ++ nodeLine true n).filterMap
      classedLine? = (looseNodes g.nodes blocks).map fun n => (nodeLine true n, n.styleClass) := by
    rw [List.filterMap_map, ← List.filterMap_eq_map]
    apply List.filterMap_congr
    intro n hn
    obtain ⟨id, style⟩ := written n (List.mem_append_right _ hn)
    rw [Function.comp_apply, ← indentBy_one]
    exact classedLine?_nodeLine 1 id style
  rw [declarations, List.filterMap_append, forest, loose, ← List.map_append]
  exact (nodes_forestOf distinct).map _

theorem declarations_undefined (h : g.Sound) (blocks : List Block) :
    ∀ l ∈ declarations g blocks, definedClass? l = none := by
  have node : ∀ n ∈ g.nodes, ∃ c r, nodeLine true n = c :: r ∧ c ∉ [' ', 'c'] := by
    intro n hn
    rw [nodeLine_eq]
    simp only [List.append_assoc]
    exact (h.nodes n hn).1.defines_nothing _
  intro l hl
  rcases List.mem_append.mp hl with hl | hl
  · obtain ⟨k, ⟨b, hb, rfl⟩ | ⟨n, hn, rfl⟩ | rfl⟩ := Forest.mem_lines hl
    · exact definedClass?_eq_none k ⟨'s', _, rfl, by decide⟩
    · exact definedClass?_eq_none k (node n (mem_written (List.mem_append_left _ hn)))
    · exact definedClass?_eq_none k ⟨'e', _, rfl, by decide⟩
  · obtain ⟨n, hn, rfl⟩ := List.mem_map.mp hl
    rw [← indentBy_one]
    exact definedClass?_eq_none 1 (node n (mem_written (List.mem_append_right _ hn)))

theorem edgeLines_undefined (h : g.Sound) :
    ∀ l ∈ g.edges.map edgeLine, definedClass? l = none := by
  intro l hl
  obtain ⟨e, he, rfl⟩ := List.mem_map.mp hl
  rw [edgeLine_eq, ← indentBy_one, edgeText]
  simp only [List.append_assoc]
  exact definedClass?_eq_none 1 ((h.edges e he).1.defines_nothing _)

theorem definitions_defined (h : g.Sound) :
    (definitions g).filterMap definedClass? = g.styles.map (·.name) := by
  have rows : ((g.styles.map styleRow).map (indent ++ ·)).filterMap definedClass? =
      g.styles.map (·.name) := by
    rw [List.map_map, List.filterMap_map, ← List.filterMap_eq_map]
    exact List.filterMap_congr fun s hs => definedClass?_styleRow (h.styles s hs)
  unfold definitions afterGap
  split
  · rename_i empty
    rw [← rows, empty]
  · exact rows

theorem definitions_unclassed (g : Graph) : ∀ l ∈ definitions g, classedLine? l = none := by
  intro l hl
  unfold definitions afterGap at hl
  split at hl
  · cases hl
  · rcases List.mem_cons.mp hl with rfl | hl
    · rfl
    · obtain ⟨r, hr, rfl⟩ := List.mem_map.mp hl
      obtain ⟨s, -, rfl⟩ := List.mem_map.mp hr
      exact classedLine?_styleRow s

/-! ## Classes on both sides of the edges -/

/-- What the lines before and after the edges of a flowchart show of its style classes. -/
structure ClassesShown (g : Graph) (before after : List Text) : Prop where
  /-- Before the edges, the lines that name a class are those of the nodes, each with its class. -/
  named : (before.filterMap classedLine?).Perm
    (g.nodes.map fun n => (nodeLine true n, n.styleClass))
  /-- No other line names a class. -/
  unnamed : ∀ l ∈ g.edges.map edgeLine ++ after, classedLine? l = none
  /-- Behind the edges, each class is defined in its colours, in the order of the table. -/
  definitions : after = afterGap (g.styles.map fun s => indent ++ styleRow s)
  defined : after.filterMap definedClass? = g.styles.map (·.name)
  /-- No other line defines a class. -/
  undefined : ∀ l ∈ before ++ g.edges.map edgeLine, definedClass? l = none
  /-- A class that a line names is defined by one line. -/
  once : ∀ x ∈ before.filterMap classedLine?, (after.filterMap definedClass?).count x.2 = 1
  /-- A class that a line defines is named by another. -/
  used : ∀ c ∈ after.filterMap definedClass?, ∃ x ∈ before.filterMap classedLine?, x.2 = c

/-- **A flowchart shows the classes of its nodes and of its table.** -/
theorem classesShown {scene : List Element} (h : g.Sound) (exact : g.StylesExact scene)
    (names : ∀ b ∈ blocks, IsName b.name) (distinct : (blocks.map (·.name)).Nodup)
    {direction : Text} (hd : direction ∈ directions) :
    ClassesShown g (flowchartHeader direction :: declarations g blocks) (definitions g) := by
  have header : classedLine? (flowchartHeader direction) = none ∧
      definedClass? (flowchartHeader direction) = none := by
    have all : ∀ d ∈ directions, classedLine? (flowchartHeader d) = none ∧
        definedClass? (flowchartHeader d) = none := by decide
    exact all direction hd
  have named : ((flowchartHeader direction :: declarations g blocks).filterMap classedLine?).Perm
      (g.nodes.map fun n => (nodeLine true n, n.styleClass)) := by
    rw [List.filterMap_cons, header.1]
    exact declarations_classed h names distinct
  have defined := definitions_defined h
  refine ⟨named, ?_, ?_, defined, ?_, ?_, ?_⟩
  · intro l hl
    rcases List.mem_append.mp hl with hl | hl
    · obtain ⟨e, he, rfl⟩ := List.mem_map.mp hl
      exact classedLine?_edgeLine (h.edges e he).2.1
    · exact definitions_unclassed g l hl
  · rw [definitions, List.map_map]
    rfl
  · intro l hl
    rw [List.cons_append] at hl
    rcases List.mem_cons.mp hl with rfl | hl
    · exact header.2
    · rcases List.mem_append.mp hl with hl | hl
      · exact declarations_undefined h blocks l hl
      · exact edgeLines_undefined h l hl
  · intro x hx
    obtain ⟨n, hn, rfl⟩ := List.mem_map.mp (named.mem_iff.mp hx)
    rw [defined]
    exact List.count_eq_one_of_mem exact.distinct (List.mem_map_of_mem (exact.listed n hn))
  · intro c hc
    rw [defined] at hc
    obtain ⟨s, hs, rfl⟩ := List.mem_map.mp hc
    obtain ⟨n, hn, rfl⟩ := exact.used s hs
    exact ⟨(nodeLine true n, n.styleClass), named.mem_iff.mpr (List.mem_map_of_mem hn), rfl⟩

end Flowchart

/-! ## Scenes -/

/-- A flowchart in colours that is written is a header, declarations, edges and definitions; if no
title and no colour breaks a line, these are its lines. -/
theorem paintedFlowchart_of_convertScene {scene : List Element} {options : ConvertOptions}
    {code : Text} (kind : DiagramType.ofJson options.diagramType = .ok .flowchart)
    (coloured : options.includeColors = true) (written : convertScene scene options = .ok code) :
    ∃ g direction, readGraph scene options.groupLabels = .ok g ∧ direction ∈ directions ∧
      code = joinLines (flowchartHeader direction :: declarations g (options.blocksOf g) ++
        g.edges.map edgeLine ++ definitions g) ∧
      ((∀ t ∈ givenTexts .flowchart options g, Unbroken t) →
        lines code = flowchartHeader direction :: declarations g (options.blocksOf g) ++
          g.edges.map edgeLine ++ definitions g) := by
  obtain ⟨g, ls, read, lines, rfl⟩ := graphLines_of_convertScene written
  unfold graphLines at lines
  rw [kind] at lines
  change (readDirection options.direction >>= _) = _ at lines
  obtain ⟨direction, hd, lines⟩ := ok_of_bind lines
  have known := mem_directions_of_readDirection hd
  rw [coloured] at lines
  have parts : ls = flowchartHeader direction :: declarations g (options.blocksOf g) ++
      g.edges.map edgeLine ++ definitions g := by
    rw [flowchartLines_eq_ok lines]
    rfl
  refine ⟨g, direction, read, known, congrArg joinLines parts, ?_⟩
  intro whole
  have intact := (@intact_flowchart_iff g options (readGraph_sound read) direction known).mpr whole
  rw [coloured, ← flowchartLines_eq_ok lines] at intact
  rw [intact.lines, parts]

/--
**The style classes of a scene are exact.** Where the colours of a scene are texts or missing, only
its texts decide whether it has a graph. In a graph, nodes are in one class just if they have the
same colours, and the table lists each pair of colours once, under a name of its own. A flowchart in
colours, with blocks or without, defines behind its edges each class that the line of a node names,
by one line, and no other; and if no title and no colour breaks a line, these are the lines of the
text.
-/
theorem convertScene_stylesExact {scene : List Element} (texts : TextColours scene)
    (options : ConvertOptions) :
    ((∃ g, readGraph scene options.groupLabels = .ok g) ↔
      ∀ e ∈ liveElements scene, e.isText = true → e.HasText) ∧
    ∀ g, readGraph scene options.groupLabels = .ok g →
      g.StylesExact scene ∧
      (DiagramType.ofJson options.diagramType = .ok .flowchart → options.includeColors = true →
        ∀ code, convertScene scene options = .ok code →
          ∃ before after, code = joinLines (before ++ g.edges.map edgeLine ++ after) ∧
            ClassesShown g before after ∧
            ((∀ t ∈ givenTexts .flowchart options g, Unbroken t) →
              lines code = before ++ g.edges.map edgeLine ++ after)) := by
  constructor
  · rw [← readable_iff_of_textColours texts]
    constructor
    · rintro ⟨g, read⟩
      exact readable_of_readGraph read
    · exact fun h => ⟨_, readGraph_readable h options.groupLabels⟩
  · intro g read
    have exact : g.StylesExact scene := by
      rw [(readGraph_eq_ok_iff.mp read).2]
      exact graphRead_stylesExact texts options.groupLabels
    refine ⟨exact, ?_⟩
    intro kind coloured code written
    obtain ⟨g', direction, read', known, rfl, whole⟩ :=
      paintedFlowchart_of_convertScene kind coloured written
    obtain rfl : g = g' := Except.ok.inj (read.symm.trans read')
    have sound := readGraph_sound read
    have blocks := options.blocksOf_sublist g
    have names : ∀ b ∈ options.blocksOf g, IsName b.name :=
      fun b hb => sound.blocks b (blocks.subset hb)
    have distinct : ((options.blocksOf g).map (·.name)).Nodup :=
      (readGraph_named read).nodup.sublist (blocks.map _)
    exact ⟨_, _, rfl, classesShown sound exact names distinct known, whole⟩

/-- Two shapes in the default colours, one of them in a group and one under the name of a default,
and between them a red one. -/
def paintedScene : List Element :=
  [{ id := "a".toList, type := "rectangle".toList },
    { id := "b".toList, type := "ellipse".toList, fill := .str "rgb(255, 0, 0)".toList },
    { id := "c".toList, type := "diamond".toList, stroke := .str defaultStroke,
      groupIds := ["g".toList] },
    { id := "e".toList, type := "arrow".toList, startId := some "a".toList,
      endId := some "b".toList }]

def paintedText : Text :=
  joinLines (["flowchart TD", "    subgraph G1", "        C\x7bC\x7d:::C1", "    end",
    "    A[A]:::C1", "    B((B)):::C2", "    A --> B", "",
    "    classDef C1 fill:white,stroke:#1e1e1e,stroke-width:2px;",
    "    classDef C2 fill:#ff0000,stroke:#1e1e1e,stroke-width:2px;"].map String.toList)

/-- The classes of the scene, in its graph and in its text. -/
theorem convertScene_stylesExact_paintedScene :
    convertScene paintedScene { includeGroups := true } = .ok paintedText ∧
    (∃ g before after, readGraph paintedScene = .ok g ∧ g.StylesExact paintedScene ∧
      ClassesShown g before after ∧
      lines paintedText = before ++ g.edges.map edgeLine ++ after) ∧
    ((lines paintedText).filterMap classedLine?).map (Prod.map String.ofList String.ofList) =
      [("C\x7bC\x7d:::C1", "C1"), ("A[A]:::C1", "C1"), ("B((B)):::C2", "C2")] ∧
    ((lines paintedText).filterMap definedClass?).map String.ofList = ["C1", "C2"] := by
  have colours : ∀ e ∈ paintedScene, HoldsText e.fill ∧ HoldsText e.stroke :=
    List.forall_mem_cons.mpr ⟨⟨holdsText_null, holdsText_null⟩, List.forall_mem_cons.mpr
      ⟨⟨holdsText_str _, holdsText_null⟩, List.forall_mem_cons.mpr
        ⟨⟨holdsText_null, holdsText_str _⟩, List.forall_mem_singleton.mpr
          ⟨holdsText_null, holdsText_null⟩⟩⟩⟩
  have texts : TextColours paintedScene := fun e live _ => colours e (List.mem_filter.mp live).1
  have written : convertScene paintedScene { includeGroups := true } = .ok paintedText := by
    apply eq_ok_of_toOption
    decide +kernel
  obtain ⟨g, read, -⟩ := ok_of_bind written
  obtain ⟨styles, shown⟩ := (convertScene_stylesExact texts { includeGroups := true }).2 g read
  obtain ⟨before, after, -, classes, whole⟩ := shown rfl rfl paintedText written
  have unbroken : ∀ t ∈ givenTexts .flowchart { includeGroups := true } g, Unbroken t := by
    obtain ⟨-, rfl⟩ := readGraph_eq_ok_iff.mp read
    show ∀ t ∈ givenTexts .flowchart { includeGroups := true } (graphRead [] paintedScene),
      ∀ c ∈ t, isLineBreak c = false
    decide +kernel
  exact ⟨written, ⟨g, before, after, read, styles, classes, whole unbroken⟩, by decide +kernel,
    by decide +kernel⟩

end Drawbridge
