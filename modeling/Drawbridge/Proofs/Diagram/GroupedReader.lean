import Drawbridge.Proofs.Diagram.FlowchartReader
import Drawbridge.Proofs.Diagram.Regrouping

/-!
Reading a written flowchart with blocks. The header of a block opens it under its title
(`addLine_blockHeader`), so that the statements of a forest are read as its nodes, each inside the
blocks around it, and as the titles of its blocks (`reads_forest`). `readDiagram_grouped` puts this
together with what is read outside all blocks.
-/

namespace Drawbridge

/-! ## Headers and ends -/

/-- A block whose header can be written and read back. -/
structure Block.Titled (b : Block) : Prop where
  name : IsName b.name
  title : IsTitle b.label
  shown : b.label ≠ []

theorem isStatement_blockHeader {b : Block} (h : b.Titled) : IsStatement (blockHeader b) := by
  have keyword : IsInline "subgraph ".toList := isInline_of_all (by decide)
  have named := keyword.append h.name.isInline
  have starts (m : Text) : ∃ c r, "subgraph ".toList ++ b.name ++ m = c :: r ∧
      isIdentChar c = true := ⟨'s', _, rfl, by decide⟩
  unfold blockHeader
  split
  · refine isStatement_of_closes ?_ (starts []) ?_ <;> rw [List.append_nil]
    · exact named
    · exact h.name.closes.append _
  · have opening : IsInline ['['] := isInline_of_all (by decide)
    have closing : IsInline [']'] := isInline_of_all (by decide)
    have label := isInline_quoteLabel h.title.toIsWritable h.title.unbroken
    have closes : Closes [']'] := ⟨']', rfl, by decide⟩
    refine isStatement_of_closes (named.append (opening.append (label.append closing)))
      (starts _) ?_
    exact ((closes.append (quoteLabel b.label)).append ['[']).append _

theorem isStatement_end : IsStatement "end".toList :=
  isStatement_of_closes (isInline_of_all (by decide)) ⟨'e', _, rfl, by decide⟩
    ⟨'d', rfl, by decide⟩

namespace FlowchartReader

theorem bracketedTitle?_written {x : Text} (hx : IsWritten x) :
    bracketedTitle? ('[' :: (x ++ [']'])) = some x := by
  have last : (x ++ [']']).getLast? = some ']' := List.getLast?_concat
  show (if (x ++ [']']).getLast? = some ']' then _ else none) = _
  rw [if_pos last, List.dropLast_concat]
  rcases hx with ⟨t, ht, rfl⟩ | plain
  · have whole := NodeToken.takeQuoted?_closed ht []
    rw [List.append_nil] at whole
    rw [whole]
    rfl
  · have free : x.contains ']' = false := by
      rw [List.contains_eq_mem, decide_eq_false_iff_not]
      exact fun hm => absurd (plain _ hm) (by decide)
    rw [free]
    simp

/-- What stands behind the name of a block: a title in brackets, if there is one. -/
def titleText : Option Text → Text
  | none => []
  | some x => '[' :: (x ++ [']'])

theorem readStatement_subgraph {name : Text} (hn : IsName name) {x : Option Text}
    (hx : ∀ y ∈ x, IsWritten y) :
    readStatement ("subgraph ".toList ++ name ++ titleText x) = .openNamed name x := by
  obtain ⟨c, r, hc, ident⟩ := hn.starts
  have line : "subgraph ".toList ++ name ++ titleText x =
      "subgraph".toList ++ (' ' :: (name ++ titleText x)) := by
    rw [List.append_assoc]
    rfl
  have solid : stripLeft (name ++ titleText x) = name ++ titleText x := by
    rw [hc]
    exact List.dropWhile_cons_of_neg (by simp [not_blank_of_isIdentChar ident])
  have keyword : afterKeyword? "subgraph".toList ("subgraph ".toList ++ name ++ titleText x) =
      some (name ++ titleText x) := by
    unfold afterKeyword?
    rw [line, afterPrefix?_append]
    exact congrArg some solid
  have opened : readNamed? ("subgraph ".toList ++ name ++ titleText x) =
      some (.openNamed name x) := by
    unfold readNamed?
    rw [keyword]
    show (if _ then _ else _) = _
    cases x with
    | none =>
      have all : name.takeWhile isIdentChar = name := List.takeWhile_eq_self_iff.mpr hn.ident
      have rest : name.dropWhile isIdentChar = [] := List.dropWhile_eq_nil_iff.mpr hn.ident
      rw [titleText, List.append_nil, all, rest, if_neg hn.ne_nil]
      rfl
    | some y =>
      have bracket : isIdentChar '[' = false := by decide
      have start : stripLeft ('[' :: (y ++ [']'])) = '[' :: (y ++ [']']) :=
        List.dropWhile_cons_of_neg (by decide)
      rw [titleText, takeWhile_piece hn.ident bracket, dropWhile_piece hn.ident bracket,
        if_neg hn.ne_nil, start]
      show Option.map _ (bracketedTitle? _) = _
      rw [bracketedTitle?_written (hx y rfl)]
      rfl
  have unended : "subgraph ".toList ++ name ++ titleText x ≠ "end".toList := by
    rw [line]
    exact fun h => absurd (List.cons.inj h).1 (by decide)
  have subgraph :
      "subgraph".toList.isPrefixOf ("subgraph ".toList ++ name ++ titleText x) = true := by
    rw [line, List.isPrefixOf_iff_prefix]
    exact List.prefix_append _ _
  unfold readStatement
  rw [if_neg unended, if_pos subgraph, readSubgraph, opened]
  rfl

theorem readStatement_blockHeader {b : Block} (h : IsName b.name) :
    readStatement (blockHeader b) =
      .openNamed b.name (if b.label = b.name then none else some (quoteLabel b.label)) := by
  have line : blockHeader b = "subgraph ".toList ++ b.name ++
      titleText (if b.label = b.name then none else some (quoteLabel b.label)) := by
    unfold blockHeader
    split <;> rfl
  rw [line]
  apply readStatement_subgraph h
  intro y hy
  split at hy
  · cases hy
  · cases hy
    exact isWritten_quoteLabel b.label

/-- **The header of a block opens it under its title.** -/
theorem addLine_blockHeader {b : Block} (h : b.Titled) {d : Draft}
    (new : b.name ∉ d.titles.map Prod.fst) (groups : List Text) (k : Nat) :
    State.addLine ⟨d, groups⟩ k (blockHeader b) =
      .ok ⟨{ d with titles := d.titles ++ [(b.name, b.label)] }, groups ++ [b.name]⟩ := by
  have inserted : d.titles.insert b.name b.label = d.titles ++ [(b.name, b.label)] :=
    Dictionary.insert_new new _
  have entered : State.enter ⟨d, groups⟩ b.name b.label =
      ⟨{ d with titles := d.titles ++ [(b.name, b.label)] }, groups ++ [b.name]⟩ := by
    rw [State.enter, inserted]
  rw [addLine_statement (isStatement_blockHeader h), readStatement_blockHeader h.name, ← entered]
  by_cases same : b.label = b.name
  · rw [if_pos same, same]
    rfl
  · have title := unquote_quoteLabel h.title.trimmed h.title.entity
    have full : quoteLabel b.label ≠ [] := by
      rcases quoteLabel_cases b.label with hq | ⟨hq, -⟩ <;> rw [hq]
      · exact List.cons_ne_nil _ _
      · exact h.shown
    obtain ⟨c, r, hq⟩ := List.exists_cons_of_ne_nil full
    rw [hq] at title
    rw [if_neg same, hq]
    show Except.ok (State.enter _ _ (unquote (c :: r))) = _
    rw [title]

theorem addLine_end (d : Draft) (groups : List Text) (name : Text) (k : Nat) :
    State.addLine ⟨d, groups ++ [name]⟩ k "end".toList = .ok ⟨d, groups⟩ := by
  have open_block : groups ++ [name] ≠ [] :=
    List.append_ne_nil_of_right_ne_nil _ (List.cons_ne_nil _ _)
  rw [addLine_statement isStatement_end]
  show (if groups ++ [name] = [] then _ else _) = _
  rw [if_neg open_block]
  show Except.ok (State.mk d (groups ++ [name]).dropLast) = _
  rw [List.dropLast_concat]

end FlowchartReader

/-! ## Forests -/

def Forest.statements (colors : Bool) : Forest Block Node → List Text
  | nil => []
  | cons b inner ms rest =>
    blockHeader b :: (inner.statements colors ++ ms.map (nodeLine colors) ++ ["end".toList]) ++
      rest.statements colors

/-- The nodes of a forest as they are read back, inside some blocks. -/
def Forest.draftNodes (colors : Bool) (around : List Block) (t : Forest Block Node) :
    List DraftNode :=
  (t.entries around).map fun x => draftNodeIn colors (x.1.map (·.name)).reverse x.2

theorem Forest.draftNodes_ids (colors : Bool) (around : List Block) (t : Forest Block Node) :
    (t.draftNodes colors around).map (·.id) = t.nodes.map (·.id) := by
  rw [draftNodes, List.map_map, ← entries_map_snd around, List.map_map]
  rfl

theorem Forest.draftNodes_cons (colors : Bool) (around : List Block) (b : Block)
    (inner : Forest Block Node) (ms : List Node) (rest : Forest Block Node) :
    (cons b inner ms rest).draftNodes colors around =
      inner.draftNodes colors (b :: around) ++
        ms.map (draftNodeIn colors ((around.map (·.name)).reverse ++ [b.name])) ++
        rest.draftNodes colors around := by
  rw [draftNodes, entries, List.map_append, List.map_append, List.map_map, ← List.reverse_cons]
  rfl

def titlesOf (bs : List Block) : Dictionary Text :=
  bs.map fun b => (b.name, b.label)

theorem titlesOf_keys (bs : List Block) : (titlesOf bs).map Prod.fst = bs.map (·.name) := by
  rw [titlesOf, List.map_map]
  rfl

namespace FlowchartReader

/-- **The statements of a forest are read as its nodes and titles.** -/
theorem reads_forest {g : Graph} (h : g.Writable) (colors : Bool) {t : Forest Block Node}
    (nodes : ∀ n ∈ t.nodes, n ∈ g.nodes) (blocks : ∀ b ∈ t.blocks, b.Titled)
    (around : List Block) (d : Draft)
    (distinctNodes : (d.nodes.map (·.id) ++ t.nodes.map (·.id)).Nodup)
    (distinctBlocks : (d.titles.map Prod.fst ++ t.blocks.map (·.name)).Nodup) :
    Reads ⟨d, (around.map (·.name)).reverse⟩ (t.statements colors)
      ⟨{ d with nodes := d.nodes ++ t.draftNodes colors around,
                titles := d.titles ++ titlesOf t.blocks }, (around.map (·.name)).reverse⟩ := by
  induction t generalizing around d with
  | nil =>
    have same : ({ d with nodes := d.nodes ++ [], titles := d.titles ++ [] } : Draft) = d := by
      rw [List.append_nil, List.append_nil]
    show Reads _ [] ⟨{ d with nodes := d.nodes ++ [], titles := d.titles ++ [] }, _⟩
    rw [same]
    exact .nil _
  | cons b inner ms rest innerIh restIh =>
    have innerIds := inner.draftNodes_ids colors (b :: around)
    have memberIds (groups : List Text) :
        (ms.map (draftNodeIn colors groups)).map (·.id) = ms.map (·.id) := by
      rw [List.map_map]
      rfl
    have order : (((d.nodes.map (·.id) ++ inner.nodes.map (·.id)) ++ ms.map (·.id)) ++
        rest.nodes.map (·.id)).Nodup := by
      simpa only [Forest.nodes, List.map_append, List.append_assoc] using distinctNodes
    have titles : (((d.titles.map Prod.fst ++ [b.name]) ++ inner.blocks.map (·.name)) ++
        rest.blocks.map (·.name)).Nodup := by
      simpa only [Forest.blocks, List.map_cons, List.map_append, List.append_assoc,
        List.cons_append, List.nil_append] using distinctBlocks
    have before := (List.nodup_append.mp titles).1
    have new : b.name ∉ d.titles.map Prod.fst := fun hm =>
      (List.nodup_append.mp (List.nodup_append.mp before).1).2.2 _ hm _ List.mem_cons_self rfl
    have here := blocks b List.mem_cons_self
    have inside := innerIh
      (fun n hn => nodes n (List.mem_append_left _ (List.mem_append_left _ hn)))
      (fun c hc => blocks c (List.mem_cons_of_mem b (List.mem_append_left _ hc))) (b :: around)
      { d with titles := d.titles ++ [(b.name, b.label)] }
      (List.nodup_append.mp (List.nodup_append.mp order).1).1
      (by rw [List.map_append]; exact before)
    rw [List.map_cons, List.reverse_cons] at inside
    have members := reads_nodes h colors
      (fun n hn => nodes n (List.mem_append_left _ (List.mem_append_right _ hn)))
      { d with nodes := d.nodes ++ inner.draftNodes colors (b :: around),
               titles := d.titles ++ [(b.name, b.label)] ++ titlesOf inner.blocks }
      (by rw [List.map_append, innerIds]; exact (List.nodup_append.mp order).1)
      ((around.map (·.name)).reverse ++ [b.name])
    have beside := restIh (fun n hn => nodes n (List.mem_append_right _ hn))
      (fun c hc => blocks c (List.mem_cons_of_mem b (List.mem_append_right _ hc))) around
      { d with
        nodes := d.nodes ++ inner.draftNodes colors (b :: around) ++
          ms.map (draftNodeIn colors ((around.map (·.name)).reverse ++ [b.name])),
        titles := d.titles ++ [(b.name, b.label)] ++ titlesOf inner.blocks }
      (by rw [List.map_append, List.map_append, innerIds, memberIds]; exact order)
      (by rw [List.map_append, List.map_append, titlesOf_keys]; exact titles)
    have closed := Reads.cons (fun k => addLine_end _ _ b.name k) (beside)
    have whole := Reads.cons (addLine_blockHeader here new _)
      ((inside.append members).append closed)
    have nodesRead : d.nodes ++ inner.draftNodes colors (b :: around) ++
        ms.map (draftNodeIn colors ((around.map (·.name)).reverse ++ [b.name])) ++
        rest.draftNodes colors around =
          d.nodes ++ (Forest.cons b inner ms rest).draftNodes colors around := by
      rw [Forest.draftNodes_cons, List.append_assoc, List.append_assoc, List.append_assoc]
    have titlesRead : d.titles ++ [(b.name, b.label)] ++ titlesOf inner.blocks ++
        titlesOf rest.blocks = d.titles ++ titlesOf (Forest.cons b inner ms rest).blocks := by
      rw [titlesOf, titlesOf, titlesOf, Forest.blocks, List.map_cons, List.map_append,
        List.append_assoc, List.append_assoc, List.singleton_append]
    rw [nodesRead, titlesRead] at whole
    have lines : (Forest.cons b inner ms rest).statements colors =
        blockHeader b :: (inner.statements colors ++ ms.map (nodeLine colors) ++
          "end".toList :: rest.statements colors) := by
      rw [Forest.statements, List.cons_append, List.append_assoc, List.singleton_append]
    rw [lines]
    exact whole

end FlowchartReader

/-! ## Flowcharts -/

/-- The lines of a forest are its statements with an indentation. -/
theorem Forest.rows {P : Text → Prop} {colors : Bool} {t : Forest Block Node}
    (nodes : ∀ n ∈ t.nodes, P (nodeLine colors n)) (blocks : ∀ b ∈ t.blocks, P (blockHeader b))
    (ending : P "end".toList) (level : Nat) :
    Rows P (t.lines colors level) (t.statements colors) := by
  induction t generalizing level with
  | nil => exact .nil
  | cons b inner ms rest innerIh restIh =>
    have inside := innerIh
      (fun n hn => nodes n (List.mem_append_left _ (List.mem_append_left _ hn)))
      (fun c hc => blocks c (List.mem_cons_of_mem b (List.mem_append_left _ hc))) (level + 1)
    have members : Rows P ((ms.map (nodeLine colors)).map (indentBy (level + 1) ++ ·))
        (ms.map (nodeLine colors)) := by
      apply Rows.level
      intro s hs
      obtain ⟨n, hn, rfl⟩ := List.mem_map.mp hs
      exact nodes n (List.mem_append_left _ (List.mem_append_right _ hn))
    have closed : Rows P [indentBy level ++ "end".toList] ["end".toList] := .line level ending .nil
    have beside := restIh (fun n hn => nodes n (List.mem_append_right _ hn))
      (fun c hc => blocks c (List.mem_cons_of_mem b (List.mem_append_right _ hc))) level
    rw [List.map_map] at members
    rw [lines, indentBy_succ]
    exact .line level (blocks b List.mem_cons_self)
      (((inside.append members).append closed).append beside)

def groupedStatements (colors : Bool) (g : Graph) (blocks : List Block) : List Text :=
  (forestOf g.nodes blocks).statements colors ++
    (looseNodes g.nodes blocks).map (nodeLine colors) ++
    (g.edges.map edgeText ++ styleTexts colors g)

def groupedDraft (colors : Bool) (g : Graph) (blocks : List Block) : Draft :=
  { draftOf colors g with
    nodes := (writtenNodes g.nodes blocks).map fun x => draftNodeIn colors x.1.reverse x.2
    titles := titlesOf (forestOf g.nodes blocks).blocks }

/-- The nodes of the forest and those outside are read in the order in which they were written. -/
theorem draftNodes_written (colors : Bool) (nodes : List Node) (blocks : List Block) :
    (forestOf nodes blocks).draftNodes colors [] ++
        (looseNodes nodes blocks).map (draftNodeIn colors []) =
      (writtenNodes nodes blocks).map fun x => draftNodeIn colors x.1.reverse x.2 := by
  have entries : (outlineOf nodes blocks).entries [] =
      ((forestOf nodes blocks).entries []).map (Prod.map (List.map (·.name)) id) :=
    Forest.entries_map _ _ [] _
  rw [writtenNodes, entries, List.map_append, List.map_map, List.map_map]
  rfl

theorem groupedDraft_ids (colors : Bool) (g : Graph) (blocks : List Block) :
    (groupedDraft colors g blocks).nodes.map (·.id) =
      ((writtenNodes g.nodes blocks).map Prod.snd).map (·.id) := by
  rw [groupedDraft, List.map_map, List.map_map]
  rfl

section Grouped

variable {g : Graph} {blocks : List Block}

/-- The lines of a flowchart after its header, with some lines for its style classes. -/
def linesWith (styles : List Text) (colors : Bool) (g : Graph) (blocks : List Block) : List Text :=
  (forestOf g.nodes blocks).lines colors 1 ++
    (looseNodes g.nodes blocks).map (fun n => indent ++ nodeLine colors n) ++
    g.edges.map edgeLine ++ afterGap (styles.map (indent ++ ·))

def statementsWith (styles : List Text) (colors : Bool) (g : Graph) (blocks : List Block) :
    List Text :=
  (forestOf g.nodes blocks).statements colors ++
    (looseNodes g.nodes blocks).map (nodeLine colors) ++ (g.edges.map edgeText ++ styles)

/-- The lines of a flowchart are its statements with an indentation. -/
theorem rows_linesWith {P : Text → Prop} {colors : Bool} {styles : List Text}
    (nodes : ∀ n ∈ g.nodes, P (nodeLine colors n)) (edges : ∀ e ∈ g.edges, P (edgeText e))
    (headers : ∀ b ∈ (forestOf g.nodes blocks).blocks, P (blockHeader b))
    (ending : P "end".toList) (definitions : ∀ s ∈ styles, P s) :
    Rows P (linesWith styles colors g blocks) (statementsWith styles colors g blocks) := by
  have level {ss : List Text} (hs : ∀ s ∈ ss, P s) : Rows P (ss.map (indent ++ ·)) ss := by
    rw [← indentBy_one]
    exact Rows.level 1 hs
  have forest : Rows P ((forestOf g.nodes blocks).lines colors 1)
      ((forestOf g.nodes blocks).statements colors) :=
    Forest.rows (fun n hn => nodes n (mem_written (List.mem_append_left _ hn))) headers ending 1
  have loose : Rows P ((looseNodes g.nodes blocks).map fun n => indent ++ nodeLine colors n)
      ((looseNodes g.nodes blocks).map (nodeLine colors)) := by
    have here : ∀ s ∈ (looseNodes g.nodes blocks).map (nodeLine colors), P s := by
      intro s hs
      obtain ⟨n, hn, rfl⟩ := List.mem_map.mp hs
      exact nodes n (mem_written (List.mem_append_right _ hn))
    have rows := level here
    rwa [List.map_map] at rows
  have arrows : Rows P (g.edges.map edgeLine) (g.edges.map edgeText) := by
    have rows := level (List.forall_mem_map.mpr edges)
    rw [List.map_map] at rows
    rwa [List.map_congr_left fun e _ => edgeLine_eq e]
  rw [statementsWith, ← List.append_assoc]
  exact ((forest.append loose).append arrows).append (level definitions).afterGap

variable (h : g.Writable) (titled : ∀ b ∈ blocks, b.Titled)

include h titled

/-- **A renderer sees the header and the statements, and nothing else.** -/
theorem diagramLines_grouped {direction : Text} (hd : direction ∈ directions) (colors : Bool) :
    diagramLines (prepareForRendering (joinLines (groupedLines direction colors g blocks))) =
      flowchartHeader direction :: groupedStatements colors g blocks := by
  have lined := h.isLine_statements colors
  refine diagramLines_lined (isLine_header hd) (rows_linesWith ?_ ?_ ?_ isStatement_end.toIsLine ?_)
  · exact fun n hn => (h.isStatement_nodeLine colors hn).toIsLine
  · exact fun e he => (h.isStatement_edgeText he).toIsLine
  · exact fun b hb => (isStatement_blockHeader (titled b (mem_forestOf.mp hb).1)).toIsLine
  · exact fun s hs => lined s (List.mem_append_right _ hs)

/-- **A written flowchart with blocks is read as the diagram of its graph.** -/
theorem readDiagram_grouped (distinct : (blocks.map (·.name)).Nodup) {direction : Text}
    (hd : direction ∈ directions) (colors : Bool) :
    readDiagram (joinLines (groupedLines direction colors g blocks)) =
      .ok (groupedDraft colors g blocks) := by
  have perm : ((forestOf g.nodes blocks).nodes ++ looseNodes g.nodes blocks).Perm g.nodes :=
    nodes_forestOf distinct
  have ids : ((forestOf g.nodes blocks).nodes.map (·.id) ++
      (looseNodes g.nodes blocks).map (·.id)).Nodup := by
    rw [← List.map_append]
    exact (perm.map _).nodup_iff.mpr h.distinct
  have forest := FlowchartReader.reads_forest h colors (t := forestOf g.nodes blocks)
    (fun n hn => mem_written (List.mem_append_left _ hn))
    (fun b hb => titled b (mem_forestOf.mp hb).1) [] {} (List.nodup_append.mp ids).1
    (forestOf_nodup distinct)
  have loose := @FlowchartReader.reads_nodes g h colors (looseNodes g.nodes blocks)
    (fun n hn => mem_written (List.mem_append_right _ hn))
    { nodes := (forestOf g.nodes blocks).draftNodes colors []
      titles := titlesOf (forestOf g.nodes blocks).blocks }
    (by rw [Forest.draftNodes_ids]; exact ids) []
  rw [draftNodes_written] at loose
  have rest := FlowchartReader.reads_afterNodes h colors (d :=
    { nodes := (writtenNodes g.nodes blocks).map fun x => draftNodeIn colors x.1.reverse x.2
      titles := titlesOf (forestOf g.nodes blocks).blocks }) (by
      intro id hid
      have read := groupedDraft_ids colors g blocks
      rw [groupedDraft] at read
      rw [read]
      exact ((writtenNodes_perm distinct).map _).mem_iff.mpr hid) rfl
  exact readDiagram_of_reads hd (diagramLines_grouped h titled hd colors)
    ((forest.append loose).append rest)

end Grouped

end Drawbridge
