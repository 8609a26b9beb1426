import Drawbridge.Proofs.Diagram.Chain
import Drawbridge.Proofs.Diagram.Colour
import Drawbridge.Proofs.Diagram.Rows
import Drawbridge.Proofs.Graph.Reading

/-!
The text of a flowchart, line by line. A graph that can be written (`Graph.Writable`) has sound
names and labels and plain colours; its flowchart is a header and one statement for each node, edge
and style class (`flowchartLines_eq`), and what a renderer does to a text before it reads it leaves
just these statements (`diagramLines_written`).
-/

namespace Drawbridge

/-! ## Statements -/

/-- What is written for a graph can be read back: names and colours are sound, labels can be
written, and edges lie between nodes. -/
structure Graph.Writable (g : Graph) : Prop where
  names : ∀ n ∈ g.nodes, IsName n.id ∧ IsName n.styleClass
  distinct : (g.nodes.map (·.id)).Nodup
  labels : ∀ n ∈ g.nodes, IsLabel n.label
  ends : ∀ e ∈ g.edges, e.source ∈ g.nodes.map (·.id) ∧ e.target ∈ g.nodes.map (·.id)
  edgeLabels : ∀ e ∈ g.edges, IsLabel e.label
  styles : ∀ s ∈ g.styles, IsName s.name ∧ IsColour s.fill ∧ IsColour s.stroke
  distinctStyles : (g.styles.map (·.name)).Nodup

theorem Graph.Writable.end_isName {g : Graph} (h : g.Writable) {id : Text}
    (hid : id ∈ g.nodes.map (·.id)) : IsName id := by
  obtain ⟨n, hn, rfl⟩ := List.mem_map.mp hid
  exact (h.names n hn).1

/-- The label that a node shows: its own, or its name. -/
def Node.shownLabel (n : Node) : Text :=
  if n.label = [] then n.id else n.label

/-- What names the style class of a node. -/
def styleMark (colors : Bool) (n : Node) : Text :=
  if colors then ":::".toList ++ n.styleClass else []

theorem nodeLine_eq (colors : Bool) (n : Node) :
    nodeLine colors n = n.id ++ (brackets n.shape).1 ++ quoteLabel n.shownLabel ++
      (brackets n.shape).2 ++ styleMark colors n := (rfl)

def edgeText (e : Edge) : Text :=
  e.source ++ " -->".toList ++ pipeLabel e.label ++ [' '] ++ e.target

theorem edgeLine_eq (e : Edge) : edgeLine e = indent ++ edgeText e := by
  unfold edgeLine edgeText pipeLabel
  simp only [List.append_assoc]

def styleBody (s : StyleClass) : Text :=
  "fill:".toList ++ colourName s.fill ++ ",stroke:".toList ++ colourName s.stroke ++
    ",stroke-width:2px".toList

/-- The statement of a style class, up to the semicolon at its end. -/
def styleText (s : StyleClass) : Text :=
  "classDef ".toList ++ s.name ++ [' '] ++ styleBody s

theorem styleLine_eq {s : StyleClass} (hf : IsColour s.fill) (hs : IsColour s.stroke) :
    styleLine s = .ok (indent ++ (styleText s ++ [';'])) := by
  unfold styleLine
  rw [colourOf_plain hf, colourOf_plain hs]
  show Except.ok _ = Except.ok _
  congr 1
  unfold styleText styleBody
  simp only [List.append_assoc]
  rfl

def styleTexts (colors : Bool) (g : Graph) : List Text :=
  if colors then g.styles.map fun s => styleText s ++ [';'] else []

def statements (colors : Bool) (g : Graph) : List Text :=
  g.nodes.map (nodeLine colors) ++ g.edges.map edgeText ++ styleTexts colors g

def flowchartHeader (direction : Text) : Text :=
  "flowchart ".toList ++ direction

theorem looseNodeLines_eq (colors : Bool) (nodes : List Node) :
    looseNodeLines colors (Outline.of nodes []) nodes =
      (nodes.map (nodeLine colors)).map (indent ++ ·) := by
  have loose : nodes.filter (fun n => ((Outline.of nodes []).place? n.id).isNone) = nodes := by
    rw [List.filter_eq_self]
    intro n hn
    rw [Outline.place?_of nodes [] (List.mem_map_of_mem hn)]
    rfl
  rw [looseNodeLines, loose, List.map_map]
  rfl

/-- The lines of a flowchart without blocks. -/
def writtenLines (direction : Text) (colors : Bool) (g : Graph) : List Text :=
  flowchartHeader direction ::
    ((g.nodes.map (nodeLine colors) ++ g.edges.map edgeText).map (indent ++ ·) ++
      afterGap ((styleTexts colors g).map (indent ++ ·)))

theorem flowchartLines_eq {g : Graph} {colors : Bool}
    (h : colors = true → ∀ s ∈ g.styles, IsColour s.fill ∧ IsColour s.stroke) (direction : Text) :
    flowchartLines g direction colors [] = .ok (writtenLines direction colors g) := by
  have blockless : allBlockLines colors (Outline.of g.nodes []) g.nodes = [] := rfl
  have edges : g.edges.map edgeLine = (g.edges.map edgeText).map (indent ++ ·) := by
    rw [List.map_map]
    exact List.map_congr_left fun e _ => edgeLine_eq e
  have loose := looseNodeLines_eq colors g.nodes
  unfold flowchartLines
  cases colors with
  | false =>
    show Except.ok (_ :: _) = Except.ok (_ :: _)
    rw [blockless, loose, edges, List.nil_append, List.map_append]
    rfl
  | true =>
    have styles : styleLines g.styles = .ok (afterGap ((styleTexts true g).map (indent ++ ·))) := by
      unfold styleLines
      rw [mapM_ok fun s hs => styleLine_eq (h rfl s hs).1 (h rfl s hs).2]
      rw [styleTexts, if_pos rfl, List.map_map]
      rfl
    rw [if_pos rfl, styles]
    show Except.ok (_ :: _) = Except.ok (_ :: _)
    rw [blockless, loose, edges, List.nil_append, List.map_append]
    rfl

/-! ## Lines -/

theorem isInline_brackets (shape : Shape) :
    IsInline (brackets shape).1 ∧ IsInline (brackets shape).2 := by
  cases shape <;> exact ⟨isInline_of_all (by decide), isInline_of_all (by decide)⟩

theorem Graph.Writable.shownLabel {g : Graph} (h : g.Writable) {n : Node} (hn : n ∈ g.nodes) :
    IsLabel n.shownLabel := by
  unfold Node.shownLabel
  split
  · exact (h.names n hn).1.isLabel
  · exact h.labels n hn

theorem isInline_styleMark {n : Node} (h : IsName n.styleClass) (colors : Bool) :
    IsInline (styleMark colors n) := by
  cases colors with
  | false => exact isInline_of_all (by simp [styleMark])
  | true => exact (isInline_of_all (by decide)).append h.isInline

theorem styleMark_closes {n : Node} (h : IsName n.styleClass) (colors : Bool) :
    Closes ((brackets n.shape).2 ++ styleMark colors n) := by
  cases colors with
  | false =>
    rw [styleMark, if_neg Bool.false_ne_true, List.append_nil]
    cases n.shape
    · exact ⟨']', rfl, by decide⟩
    · exact ⟨')', rfl, by decide⟩
    · exact ⟨'\x7d', rfl, by decide⟩
  | true =>
    rw [styleMark, if_pos rfl]
    exact (h.closes.append _).append _

theorem isInline_edgeMark {l : Text} (h : IsLabel l) :
    IsInline (" -->".toList ++ pipeLabel l ++ [' ']) := by
  have label : IsInline (pipeLabel l) := by
    unfold pipeLabel
    split
    · exact isInline_of_all (by simp)
    · have pipe : IsInline ['|'] := isInline_of_all (by decide)
      exact pipe.append (h.isInline.append pipe)
  exact ((isInline_of_all (by decide)).append label).append (isInline_of_all (by decide))

theorem isInline_styleBody {s : StyleClass} (hf : IsColour s.fill) (hs : IsColour s.stroke) :
    IsInline (styleBody s) := by
  have fill := (isInline_of_all (p := "fill:".toList) (by decide)).append (isInline_colourName hf)
  have stroke := (fill.append (isInline_of_all (p := ",stroke:".toList) (by decide))).append
    (isInline_colourName hs)
  exact stroke.append (isInline_of_all (by decide))

namespace Graph.Writable

variable {g : Graph}

theorem isStatement_nodeLine (h : g.Writable) (colors : Bool) {n : Node} (hn : n ∈ g.nodes) :
    IsStatement (nodeLine colors n) := by
  obtain ⟨name, style⟩ := h.names n hn
  obtain ⟨opening, closing⟩ := isInline_brackets n.shape
  have label := (h.shownLabel hn).isInline
  have inline := (name.isInline.append opening).append label
  obtain ⟨c, r, hc, ident⟩ := name.starts
  rw [nodeLine_eq]
  apply isStatement_of_closes
  · exact (inline.append closing).append (isInline_styleMark style colors)
  · exact ⟨c, _, by rw [hc]; rfl, ident⟩
  · rw [List.append_assoc]
    exact (styleMark_closes style colors).append _

theorem isStatement_edgeText (h : g.Writable) {e : Edge} (he : e ∈ g.edges) :
    IsStatement (edgeText e) := by
  have source := h.end_isName (h.ends e he).1
  have target := h.end_isName (h.ends e he).2
  have mark := isInline_edgeMark (h.edgeLabels e he)
  obtain ⟨c, r, hc, ident⟩ := source.starts
  have line : edgeText e =
      e.source ++ (" -->".toList ++ pipeLabel e.label ++ [' ']) ++ e.target := by
    unfold edgeText
    simp only [List.append_assoc]
  rw [line]
  apply isStatement_of_closes
  · exact (source.isInline.append mark).append target.isInline
  · exact ⟨c, _, by rw [hc]; rfl, ident⟩
  · exact target.closes.append _

theorem isStatement_styleText (h : g.Writable) {s : StyleClass} (hs : s ∈ g.styles) :
    IsStatement (styleText s) := by
  obtain ⟨name, fill, stroke⟩ := h.styles s hs
  have keyword : IsInline "classDef ".toList := isInline_of_all (by decide)
  have named := (keyword.append name.isInline).append (isInline_of_all (p := [' ']) (by decide))
  apply isStatement_of_closes
  · exact named.append (isInline_styleBody fill stroke)
  · exact ⟨'c', _, rfl, by decide⟩
  · exact Closes.append (Closes.append ⟨'x', rfl, by decide⟩ _) _

theorem isLine_statements (h : g.Writable) (colors : Bool) :
    ∀ s ∈ statements colors g, IsLine s := by
  intro s hs
  simp only [statements, List.mem_append, List.mem_map] at hs
  rcases hs with (⟨n, hn, rfl⟩ | ⟨e, he, rfl⟩) | hs
  · exact (h.isStatement_nodeLine colors hn).toIsLine
  · exact (h.isStatement_edgeText he).toIsLine
  · cases colors with
    | false => cases hs
    | true =>
      obtain ⟨c, hc, rfl⟩ := List.mem_map.mp hs
      have text := h.isStatement_styleText hc
      obtain ⟨d, r, hd, ident⟩ := text.starts
      have semicolon : IsInline [';'] := isInline_of_all (by decide)
      refine ⟨text.toIsInline.append semicolon, ⟨d, r ++ [';'], by rw [hd]; rfl, ident⟩, ';', ?_⟩
      exact ⟨List.getLast?_concat, by decide⟩

end Graph.Writable

/-! ## What a renderer sees -/

theorem mem_directions_of_readDirection {j : Json} {direction : Text}
    (h : readDirection j = .ok direction) : direction ∈ directions := by
  cases j with
  | str s =>
    unfold readDirection at h
    dsimp only at h
    split at h
    · rename_i known
      cases h
      exact known
    · cases h
  | _ => cases h

theorem direction_isName : ∀ d ∈ directions, IsName d := by
  intro d hd
  simp only [directions, List.mem_cons, List.not_mem_nil, or_false] at hd
  rcases hd with rfl | rfl | rfl | rfl | rfl <;> exact ⟨⟨_, _, rfl, by decide⟩, by decide⟩

theorem isLine_header {direction : Text} (h : direction ∈ directions) :
    IsLine (flowchartHeader direction) := by
  have name := direction_isName direction h
  obtain ⟨c, hc, solid, -⟩ := name.closes.append "flowchart ".toList
  exact ⟨(isInline_of_all (by decide)).append name.isInline, ⟨'f', _, rfl, by decide⟩, c, hc, solid⟩

namespace Graph.Writable

variable {g : Graph} {direction : Text}

theorem diagramLines_written (h : g.Writable) (hd : direction ∈ directions) (colors : Bool) :
    diagramLines (prepareForRendering (joinLines (writtenLines direction colors g))) =
      flowchartHeader direction :: statements colors g := by
  have lined := h.isLine_statements colors
  simp only [statements, List.mem_append] at lined
  apply diagramLines_lined (isLine_header hd)
  rw [← indentBy_one]
  exact (Rows.level 1 fun s hs => lined s (.inl (List.mem_append.mp hs))).append
    (Rows.level 1 fun s hs => lined s (.inr hs)).afterGap

end Graph.Writable

end Drawbridge
