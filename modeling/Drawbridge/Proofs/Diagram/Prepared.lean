import Drawbridge.Proofs.Diagram.GroupedReader
import Drawbridge.Proofs.Graph.Soundness

/-!
Flowcharts whose labels, titles and colours may hold anything but line breaks. What a renderer drops
from such a flowchart it drops from these texts only, so that every statement is still one of its
kind (`prepare_nodeLine`, `prepare_edgeText`, `prepare_blockHeader`, `prepare_styleRow`), and each
kind is taken in whatever came before. Together, a flowchart without broken titles and colours is
read (`readDiagram_flowRows`).
-/

namespace Drawbridge

/-! ## Statements with given texts -/

/-- The declaration of a node, with a text in its brackets. -/
def nodeWith (colors : Bool) (n : Node) (x : Text) : Text :=
  n.id ++ (brackets n.shape).1 ++ x ++ (brackets n.shape).2 ++ styleMark colors n

def edgeWith (e : Edge) (x : Option Text) : Text :=
  e.source ++ " -->".toList ++ pipeText x ++ [' '] ++ e.target

def headerWith (b : Block) (x : Option Text) : Text :=
  "subgraph ".toList ++ b.name ++ FlowchartReader.titleText x

def propertiesWith (fill stroke : Text) : Text :=
  "fill:".toList ++ (fill ++ (",stroke:".toList ++ (stroke ++ ",stroke-width:2px".toList)))

/-- The definition of a style class with two colours, up to the semicolon at its end. -/
def styleWith (s : StyleClass) (fill stroke : Text) : Text :=
  "classDef ".toList ++ s.name ++ [' '] ++ propertiesWith fill stroke

/-- What is written for the title of a block; nothing, if it is the name. -/
def writtenTitle? (b : Block) : Option Text :=
  if b.label = b.name then none else some (quoteLabel b.label)

theorem blockHeader_eq (b : Block) : blockHeader b = headerWith b (writtenTitle? b) := by
  unfold blockHeader headerWith writtenTitle?
  split <;> rfl

theorem isWritten_writtenTitle? (b : Block) : ∀ x ∈ writtenTitle? b, IsWritten x := by
  intro x hx
  unfold writtenTitle? at hx
  split at hx
  · cases hx
  · cases hx
    exact isWritten_quoteLabel b.label

theorem edgeText_eq (e : Edge) : edgeText e = edgeWith e (writtenLabel? e.label) := by
  rw [edgeText, pipeLabel_eq]
  rfl

/-- What is left of a written text, if there is one, is written. -/
theorem isWritten_map_unmarked {x : Option Text} (h : ∀ y ∈ x, IsWritten y) :
    ∀ y ∈ x.map unmarked, IsWritten y := by
  intro y hy
  obtain ⟨z, hz, rfl⟩ := Option.map_eq_some_iff.mp hy
  exact isWritten_unmarked (h z hz)

/-! ## Colours -/

def writtenColour (j : Json) : Text :=
  match colourOf j with
  | .ok c => c
  | .error _ => []

def styleRow (s : StyleClass) : Text :=
  styleWith s (writtenColour s.fill) (writtenColour s.stroke) ++ [';']

def styleRows (colors : Bool) (g : Graph) : List Text :=
  if colors then g.styles.map styleRow else []

theorem styleLine_eq_ok {s : StyleClass} {l : Text} (h : styleLine s = .ok l) :
    l = indent ++ styleRow s := by
  unfold styleLine at h
  unfold styleRow writtenColour
  cases hf : colourOf s.fill with
  | error e =>
    rw [hf] at h
    cases h
  | ok fill =>
    cases hk : colourOf s.stroke with
    | error e =>
      rw [hf, hk] at h
      cases h
    | ok stroke =>
      rw [hf, hk] at h
      have line : indent ++ "classDef ".toList ++ s.name ++ " fill:".toList ++ fill ++
          ",stroke:".toList ++ stroke ++ ",stroke-width:2px;".toList = l := Except.ok.inj h
      rw [← line]
      unfold styleWith propertiesWith
      simp only [List.append_assoc]
      rfl

theorem styleLines_eq_ok {styles : List StyleClass} {ls : List Text}
    (h : styleLines styles = .ok ls) : ls = afterGap ((styles.map styleRow).map (indent ++ ·)) := by
  unfold styleLines at h
  cases hm : styles.mapM styleLine with
  | error e =>
    rw [hm] at h
    cases h
  | ok written =>
    have each : ∀ s ∈ styles, styleLine s = .ok (indent ++ styleRow s) := by
      intro s hs
      obtain ⟨l, hl⟩ := exists_of_mapM_ok hm s hs
      rw [hl, ← styleLine_eq_ok hl]
    rw [mapM_ok each] at hm h
    rw [← Except.ok.inj h, List.map_map]
    rfl

/-- The lines of a flowchart that is written. -/
theorem flowchartLines_eq_ok {g : Graph} {direction : Text} {colors : Bool} {blocks : List Block}
    {ls : List Text} (h : flowchartLines g direction colors blocks = .ok ls) :
    ls = flowchartHeader direction :: linesWith (styleRows colors g) colors g blocks := by
  unfold flowchartLines at h
  rw [linesWith, lines_forestOf, ← looseNodeLines_of]
  cases colors with
  | false => exact (Except.ok.inj h).symm
  | true =>
    rw [if_pos rfl] at h
    cases hs : styleLines g.styles with
    | error e =>
      rw [hs] at h
      cases h
    | ok styles =>
      rw [hs, styleLines_eq_ok hs] at h
      rw [styleRows, if_pos rfl]
      exact (Except.ok.inj h).symm

/-! ## Rows -/

section Rows

theorem isInline_nodeHead {n : Node} (id : IsName n.id) :
    IsInline (n.id ++ (brackets n.shape).1) :=
  id.isInline.append (isInline_brackets n.shape).1

theorem isInline_nodeTail {n : Node} (style : IsName n.styleClass) (colors : Bool) :
    IsInline ((brackets n.shape).2 ++ styleMark colors n) :=
  (isInline_brackets n.shape).2.append (isInline_styleMark style colors)

theorem nodeWith_eq (colors : Bool) (n : Node) (x : Text) :
    nodeWith colors n x =
      n.id ++ (brackets n.shape).1 ++ (x ++ ((brackets n.shape).2 ++ styleMark colors n)) := by
  simp [nodeWith]

theorem starts_append {p : Text} (h : ∃ c r, p = c :: r ∧ isIdentChar c = true) (q : Text) :
    ∃ c r, p ++ q = c :: r ∧ isIdentChar c = true := by
  obtain ⟨c, r, hc, ident⟩ := h
  exact ⟨c, r ++ q, by rw [hc, List.cons_append], ident⟩

theorem nodeWith_starts {n : Node} (id : IsName n.id) (colors : Bool) (x : Text) :
    ∃ c r, nodeWith colors n x = c :: r ∧ isIdentChar c = true := by
  rw [nodeWith_eq]
  exact starts_append (starts_append id.starts _) _

theorem isRow_nodeLine {n : Node} (id : IsName n.id) (style : IsName n.styleClass)
    (label : IsTidy n.label) (colors : Bool) : IsRow (nodeLine colors n) := by
  have shown : Unbroken n.shownLabel := by
    unfold Node.shownLabel
    split
    · exact id.isInline.unbroken
    · exact label.unbroken
  have line : nodeLine colors n = nodeWith colors n (quoteLabel n.shownLabel) := rfl
  refine ⟨?_, line ▸ nodeWith_starts id colors _⟩
  rw [line, nodeWith_eq]
  exact (isInline_nodeHead id).unbroken.append
    ((unbroken_quoteLabel shown).append (isInline_nodeTail style colors).unbroken)

theorem prepare_nodeLine {n : Node} (id : IsName n.id) (style : IsName n.styleClass)
    (colors : Bool) :
    prepareForRendering (nodeLine colors n) =
      nodeWith colors n (unmarked (quoteLabel n.shownLabel)) := by
  have line : nodeLine colors n = nodeWith colors n (quoteLabel n.shownLabel) := rfl
  have seals : Seals ((brackets n.shape).2 ++ styleMark colors n) := by
    cases n.shape
    · exact .of_char (by decide) (by decide) (by decide) _
    · exact .of_char (by decide) (by decide) (by decide) _
    · exact .of_char (by decide) (by decide) (by decide) _
  rw [line, nodeWith_eq, nodeWith_eq]
  exact prepare_between (isInline_nodeHead id).toIsPrepared
    (isInline_nodeTail style colors).toIsPrepared seals (starts_append id.starts _)
    (styleMark_closes style colors).solid _

theorem edgeWith_starts {e : Edge} (source : IsName e.source) (x : Option Text) :
    ∃ c r, edgeWith e x = c :: r ∧ isIdentChar c = true := by
  rw [edgeWith, List.append_assoc, List.append_assoc, List.append_assoc]
  exact starts_append source.starts _

theorem isInline_edgeEnds {e : Edge} (source : IsName e.source) (target : IsName e.target) :
    IsInline (e.source ++ " -->|".toList) ∧ IsInline ("| ".toList ++ e.target) :=
  ⟨source.isInline.append (isInline_of_all (by decide)),
    IsInline.append (isInline_of_all (by decide)) target.isInline⟩

theorem edgeWith_some (e : Edge) (x : Text) :
    edgeWith e (some x) = e.source ++ " -->|".toList ++ (x ++ ("| ".toList ++ e.target)) := by
  simp [edgeWith, pipeText]

theorem isLine_edgeWith_none {e : Edge} (source : IsName e.source) (target : IsName e.target) :
    IsLine (edgeWith e none) := by
  have arrow : IsInline " -->".toList := isInline_of_all (by decide)
  have space : IsInline [' '] := isInline_of_all (by decide)
  refine ⟨?_, edgeWith_starts source none, (target.closes.append _).solid⟩
  rw [edgeWith, pipeText, List.append_nil]
  exact ((source.isInline.append arrow).append space).append target.isInline

theorem isRow_edgeText {e : Edge} (source : IsName e.source) (target : IsName e.target)
    (label : IsTidy e.label) : IsRow (edgeText e) := by
  rw [edgeText_eq]
  refine ⟨?_, edgeWith_starts source _⟩
  unfold writtenLabel?
  split
  · exact (isLine_edgeWith_none source target).unbroken
  · obtain ⟨before, after⟩ := isInline_edgeEnds source target
    rw [edgeWith_some]
    exact before.unbroken.append ((unbroken_quoteLabel label.unbroken).append after.unbroken)

theorem prepare_edgeText {e : Edge} (source : IsName e.source) (target : IsName e.target) :
    prepareForRendering (edgeText e) = edgeWith e ((writtenLabel? e.label).map unmarked) := by
  rw [edgeText_eq]
  cases writtenLabel? e.label with
  | none => exact (isLine_edgeWith_none source target).prepare_eq
  | some x =>
    obtain ⟨before, after⟩ := isInline_edgeEnds source target
    have seals : Seals ("| ".toList ++ e.target) :=
      .of_char (by decide) (by decide) (by decide) _
    rw [Option.map_some, edgeWith_some, edgeWith_some]
    exact prepare_between before.toIsPrepared after.toIsPrepared seals
      (starts_append source.starts _) (target.closes.append _).solid x

theorem headerWith_starts (b : Block) (x : Option Text) :
    ∃ c r, headerWith b x = c :: r ∧ isIdentChar c = true :=
  ⟨'s', _, rfl, by decide⟩

theorem headerWith_some (b : Block) (x : Text) :
    headerWith b (some x) = "subgraph ".toList ++ b.name ++ ['['] ++ (x ++ [']']) :=
  (List.append_assoc ("subgraph ".toList ++ b.name) ['['] (x ++ [']'])).symm

theorem isLine_headerWith_none {b : Block} (name : IsName b.name) : IsLine (headerWith b none) := by
  have keyword : IsInline "subgraph ".toList := isInline_of_all (by decide)
  have line : headerWith b none = "subgraph ".toList ++ b.name := List.append_nil _
  rw [line]
  exact ⟨keyword.append name.isInline, ⟨'s', _, rfl, by decide⟩, (name.closes.append _).solid⟩

theorem isInline_headerHead {b : Block} (name : IsName b.name) :
    IsInline ("subgraph ".toList ++ b.name ++ ['[']) := by
  have keyword : IsInline "subgraph ".toList := isInline_of_all (by decide)
  exact (keyword.append name.isInline).append (isInline_of_all (by decide))

theorem isRow_blockHeader {b : Block} (name : IsName b.name) (title : Unbroken b.label) :
    IsRow (blockHeader b) := by
  rw [blockHeader_eq]
  refine ⟨?_, headerWith_starts b _⟩
  unfold writtenTitle?
  split
  · exact (isLine_headerWith_none name).unbroken
  · have closing : IsInline [']'] := isInline_of_all (by decide)
    rw [headerWith_some]
    exact (isInline_headerHead name).unbroken.append
      ((unbroken_quoteLabel title).append closing.unbroken)

theorem prepare_blockHeader {b : Block} (name : IsName b.name) :
    prepareForRendering (blockHeader b) = headerWith b ((writtenTitle? b).map unmarked) := by
  rw [blockHeader_eq]
  cases writtenTitle? b with
  | none => exact (isLine_headerWith_none name).prepare_eq
  | some x =>
    have closing : IsInline [']'] := isInline_of_all (by decide)
    have seals : Seals [']'] := .of_char (by decide) (by decide) (by decide) []
    rw [Option.map_some, headerWith_some, headerWith_some]
    exact prepare_between (isInline_headerHead name).toIsPrepared closing.toIsPrepared seals
      ⟨'s', _, rfl, by decide⟩ ⟨']', rfl, by decide⟩ x

theorem propertiesWith_closes (fill stroke : Text) : Closes (propertiesWith fill stroke) := by
  have ending : Closes ",stroke-width:2px".toList := ⟨'x', by decide, by decide⟩
  unfold propertiesWith
  exact (((ending.append stroke).append ",stroke:".toList).append fill).append "fill:".toList

theorem styleWith_starts (s : StyleClass) (fill stroke : Text) :
    ∃ c r, styleWith s fill stroke = c :: r ∧ isIdentChar c = true :=
  ⟨'c', _, rfl, by decide⟩

theorem styleWith_closes (s : StyleClass) (fill stroke : Text) :
    Closes (styleWith s fill stroke) := by
  unfold styleWith
  exact (propertiesWith_closes fill stroke).append _

theorem isInline_styleHead {s : StyleClass} (name : IsName s.name) :
    IsInline ("classDef ".toList ++ s.name ++ [' '] ++ "fill:".toList) := by
  have keyword : IsInline "classDef ".toList := isInline_of_all (by decide)
  exact ((keyword.append name.isInline).append (isInline_of_all (by decide))).append
    (isInline_of_all (by decide))

theorem styleWith_semicolon (s : StyleClass) (fill stroke : Text) :
    styleWith s fill stroke ++ [';'] =
      "classDef ".toList ++ s.name ++ [' '] ++ "fill:".toList ++
        (fill ++ (",stroke:".toList ++ (stroke ++ (",stroke-width:2px".toList ++ [';'])))) := by
  unfold styleWith propertiesWith
  simp only [List.append_assoc]

theorem isRow_styleRow {s : StyleClass} (name : IsName s.name)
    (fill : Unbroken (writtenColour s.fill)) (stroke : Unbroken (writtenColour s.stroke)) :
    IsRow (styleRow s) := by
  have middle : IsInline ",stroke:".toList := isInline_of_all (by decide)
  have ending : IsInline (",stroke-width:2px".toList ++ [';']) := isInline_of_all (by decide)
  refine ⟨?_, starts_append (styleWith_starts s _ _) _⟩
  rw [styleRow, styleWith_semicolon]
  exact (isInline_styleHead name).unbroken.append
    (fill.append (middle.unbroken.append (stroke.append ending.unbroken)))

theorem prepare_styleRow {s : StyleClass} (name : IsName s.name) :
    prepareForRendering (styleRow s) =
      styleWith s (unmarked (writtenColour s.fill)) (unmarked (writtenColour s.stroke)) ++
        [';'] := by
  have middle : IsInline ",stroke:".toList := isInline_of_all (by decide)
  have ending : IsInline (",stroke-width:2px".toList ++ [';']) := isInline_of_all (by decide)
  have comma (r : Text) : Seals (',' :: r) := .of_char (by decide) (by decide) (by decide) r
  have apart (fill stroke : Text) : unmarked (styleWith s fill stroke ++ [';']) =
      styleWith s (unmarked fill) (unmarked stroke) ++ [';'] := by
    have tail := middle.unmarked_between ending.toIsPrepared (comma _) stroke
    have seals : Seals (",stroke:".toList ++ (stroke ++ (",stroke-width:2px".toList ++ [';']))) :=
      comma _
    rw [styleWith_semicolon, (isInline_styleHead name).unmarked_append, unmarked_append seals,
      tail, ← styleWith_semicolon]
  rw [prepareForRendering_unmarked, styleRow, apart]
  exact strip_eq_of_ends (starts_append (styleWith_starts s _ _) _)
    ⟨';', List.getLast?_concat, by decide⟩

end Rows

/-! ## Statements are taken in -/

namespace FlowchartReader

/-- A line that is taken in whatever came before, and opens and closes no block. -/
def Accepted (s : Text) : Prop :=
  ∀ d groups, ∃ d', ∀ k, State.addLine ⟨d, groups⟩ k s = .ok ⟨d', groups⟩

/-- A line that opens a block whatever came before. -/
def Opens (s name : Text) : Prop :=
  ∀ d groups, ∃ d', ∀ k, State.addLine ⟨d, groups⟩ k s = .ok ⟨d', groups ++ [name]⟩

/-- Statements are read whatever came before, and leave the open blocks as they were. -/
def Runs (groups ss : List Text) : Prop :=
  ∀ d, ∃ d', Reads ⟨d, groups⟩ ss ⟨d', groups⟩

/-- A line that begins like a name and is closed is read as it is. -/
theorem addLine_closed {s : Text} (starts : ∃ c r, s = c :: r ∧ isIdentChar c = true)
    (closes : Closes s) (st : State) (k : Nat) :
    st.addLine k s = st.add k s (readStatement s) :=
  addLine_trimmed (strip_eq_of_ends starts closes.solid) closes.ne_semicolon st k

theorem accepted_nodeWith {n : Node} (id : IsName n.id) (style : IsName n.styleClass)
    (colors : Bool) {x : Text} (hx : IsWritten x) : Accepted (nodeWith colors n x) := by
  intro d groups
  have token := NodeToken.read?_written id hx n.shape (styleAfter?_styleMark style colors)
  have chain := splitChain_shaped id hx n.shape (styleMark_token style colors)
  have closes : Closes (nodeWith colors n x) := by
    rw [nodeWith_eq]
    exact ((styleMark_closes style colors).append x).append _
  have statement : readStatement (nodeWith colors n x) = .chain ⟨nodeWith colors n x, []⟩ := by
    rw [show (⟨nodeWith colors n x, []⟩ : Chain) = splitChain (nodeWith colors n x) from chain.symm]
    apply readStatement_name id
    rw [nodeWith_eq, List.append_assoc]
    exact ⟨_, rfl⟩
  refine ⟨d.addToken
    ⟨n.id, some (n.shape, unquote x), if colors then some n.styleClass else none⟩ groups, fun k => ?_⟩
  rw [addLine_closed (nodeWith_starts id colors x) closes, statement]
  apply add_chain
  have trimmed := strip_eq_of_ends (nodeWith_starts id colors x) closes.solid
  have entered : d.addTokenText k groups (nodeWith colors n x) =
      .ok (d.addToken
        ⟨n.id, some (n.shape, unquote x), if colors then some n.styleClass else none⟩ groups, n.id) := by
    rw [Draft.addTokenText, trimmed, nodeWith, token]
  simp only [Draft.addChain, List.map_nil, Draft.addTokens, entered]
  rfl

theorem addTokenText_name {id : Text} (hid : IsName id) (d : Draft) (k : Nat)
    (groups : List Text) :
    d.addTokenText k groups id = .ok (d.addToken ⟨id, none, none⟩ groups, id) := by
  rw [Draft.addTokenText, strip_solid hid.solid, NodeToken.read?_name hid]

theorem accepted_edgeWith {e : Edge} (source : IsName e.source) (target : IsName e.target)
    {x : Option Text} (hx : ∀ y ∈ x, IsWritten y) : Accepted (edgeWith e x) := by
  intro d groups
  have chain : splitChain (edgeWith e x) = ⟨e.source, [(linkWith x, e.target)]⟩ :=
    splitChain_piped source target hx
  have statement : readStatement (edgeWith e x) = .chain (splitChain (edgeWith e x)) := by
    apply readStatement_name source
    rw [edgeWith, List.append_assoc, List.append_assoc, List.append_assoc]
    exact ⟨_, rfl⟩
  refine ⟨((d.addToken ⟨e.source, none, none⟩ groups).addToken ⟨e.target, none, none⟩
    groups).addEdges [e.source, e.target] [linkWith x], fun k => ?_⟩
  rw [addLine_closed (edgeWith_starts source x) (target.closes.append _), statement, chain]
  apply add_chain
  simp only [Draft.addChain, List.map_cons, List.map_nil, Draft.addTokens,
    addTokenText_name source, addTokenText_name target]
  rfl

theorem opens_headerWith {b : Block} (name : IsName b.name) {x : Option Text}
    (hx : ∀ y ∈ x, IsWritten y) : Opens (headerWith b x) b.name := by
  intro d groups
  have closes : Closes (headerWith b x) := by
    cases x with
    | none =>
      have line : headerWith b none = "subgraph ".toList ++ b.name := List.append_nil _
      rw [line]
      exact name.closes.append _
    | some y =>
      have bracket : Closes [']'] := ⟨']', rfl, by decide⟩
      rw [headerWith_some]
      exact (bracket.append y).append _
  have statement : readStatement (headerWith b x) = .openNamed b.name x :=
    readStatement_subgraph name hx
  refine ⟨?draft, fun k => ?read⟩
  case read =>
    rw [addLine_closed (headerWith_starts b x) closes, statement]
    rfl

theorem accepted_styleWith {s : StyleClass} (name : IsName s.name) (fill stroke : Text) :
    Accepted (styleWith s fill stroke ++ [';']) := by
  intro d groups
  have closes := styleWith_closes s fill stroke
  have trimmed := strip_eq_of_ends (styleWith_starts s fill stroke) closes.solid
  have properties := propertiesWith_closes fill stroke
  have starts : ∃ c r, propertiesWith fill stroke = c :: r ∧ isBlank c = false :=
    ⟨'f', _, rfl, by decide⟩
  let defs := d.classDefs.insert s.name (readStyle (propertiesWith fill stroke))
  refine ⟨{ d with classDefs := defs }, fun k => ?_⟩
  have statement : readStatement (styleWith s fill stroke) =
      .defineStyle s.name (propertiesWith fill stroke) :=
    readStatement_classDef name starts properties.ne_semicolon
  rw [addLine_semicolon trimmed closes.ne_semicolon, statement]
  rfl

/-! ## Written lines, prepared -/

theorem accepted_nodeLine {n : Node} (id : IsName n.id) (style : IsName n.styleClass)
    (colors : Bool) : Accepted (prepareForRendering (nodeLine colors n)) := by
  rw [prepare_nodeLine id style]
  exact accepted_nodeWith id style colors (isWritten_unmarked (isWritten_quoteLabel _))

theorem accepted_edgeText {e : Edge} (source : IsName e.source) (target : IsName e.target) :
    Accepted (prepareForRendering (edgeText e)) := by
  rw [prepare_edgeText source target]
  exact accepted_edgeWith source target (isWritten_map_unmarked (isWritten_writtenLabel? e.label))

theorem accepted_styleRow {s : StyleClass} (name : IsName s.name) :
    Accepted (prepareForRendering (styleRow s)) := by
  rw [prepare_styleRow name]
  exact accepted_styleWith name _ _

theorem opens_blockHeader {b : Block} (name : IsName b.name) :
    Opens (prepareForRendering (blockHeader b)) b.name := by
  rw [prepare_blockHeader name]
  exact opens_headerWith name (isWritten_map_unmarked (isWritten_writtenTitle? b))

/-! ## Runs -/

namespace Runs

variable {groups ss ts : List Text}

theorem append (hs : Runs groups ss) (ht : Runs groups ts) : Runs groups (ss ++ ts) := by
  intro d
  obtain ⟨d₁, first⟩ := hs d
  obtain ⟨d₂, rest⟩ := ht d₁
  exact ⟨d₂, first.append rest⟩

theorem of_accepted (h : ∀ s ∈ ss, Accepted s) : Runs groups ss := by
  intro d
  have step : ∀ s ∈ ss, ∀ st : State, st.enclosing = groups →
      ∃ st' : State, st'.enclosing = groups ∧ ∀ k, st.addLine k s = .ok st' := by
    rintro s hs ⟨d, _⟩ rfl
    obtain ⟨d', taken⟩ := h s hs d _
    exact ⟨⟨d', _⟩, rfl, taken⟩
  obtain ⟨⟨d', _⟩, rfl, run⟩ :=
    Reads.exists_of_step step (show (⟨d, groups⟩ : State).enclosing = groups from rfl)
  exact ⟨d', run⟩

end Runs

/-- Prepared, the statements of a forest are read: every block that is opened is closed. -/
theorem runs_forest {colors : Bool} {t : Forest Block Node}
    (nodes : ∀ n ∈ t.nodes, Accepted (prepareForRendering (nodeLine colors n)))
    (headers : ∀ b ∈ t.blocks, Opens (prepareForRendering (blockHeader b)) b.name)
    (groups : List Text) : Runs groups ((t.statements colors).map prepareForRendering) := by
  induction t generalizing groups with
  | nil => exact fun d => ⟨d, .nil _⟩
  | cons b inner ms rest innerIh restIh =>
    have inside : Runs (groups ++ [b.name]) ((inner.statements colors).map prepareForRendering) :=
      innerIh (fun n hn => nodes n (List.mem_append_left _ (List.mem_append_left _ hn)))
        (fun c hc => headers c (List.mem_cons_of_mem b (List.mem_append_left _ hc))) _
    have members : Runs (groups ++ [b.name])
        ((ms.map (nodeLine colors)).map prepareForRendering) := by
      apply Runs.of_accepted
      intro s hs
      rw [List.map_map] at hs
      obtain ⟨n, hn, rfl⟩ := List.mem_map.mp hs
      exact nodes n (List.mem_append_left _ (List.mem_append_right _ hn))
    have beside : Runs groups ((rest.statements colors).map prepareForRendering) :=
      restIh (fun n hn => nodes n (List.mem_append_right _ hn))
        (fun c hc => headers c (List.mem_cons_of_mem b (List.mem_append_right _ hc))) groups
    have ending : prepareForRendering "end".toList = "end".toList :=
      isStatement_end.toIsLine.prepare_eq
    intro d
    obtain ⟨d₁, opened⟩ := headers b List.mem_cons_self d groups
    obtain ⟨d₂, held⟩ := inside.append members d₁
    obtain ⟨d₃, after⟩ := beside d₂
    refine ⟨d₃, ?_⟩
    have closed := held.append (.cons (fun k => addLine_end d₂ groups b.name k) after)
    have lines : ((Forest.cons b inner ms rest).statements colors).map prepareForRendering =
        prepareForRendering (blockHeader b) ::
          ((inner.statements colors).map prepareForRendering ++
            (ms.map (nodeLine colors)).map prepareForRendering ++
            "end".toList :: (rest.statements colors).map prepareForRendering) := by
      rw [Forest.statements, List.cons_append, List.map_cons, List.map_append, List.map_append,
        List.map_append, List.map_singleton, ending, List.append_assoc, List.singleton_append]
    rw [lines]
    exact .cons opened closed

end FlowchartReader

/-! ## Flowcharts -/

section Flowcharts

variable {g : Graph} {blocks : List Block}

/-- Where titles and colours break no line, every line of a flowchart is a row. -/
theorem rows_flowchart (h : g.Sound) (names : ∀ b ∈ blocks, IsName b.name) (colors : Bool)
    (titles : ∀ b ∈ (forestOf g.nodes blocks).blocks, Unbroken b.label)
    (colours : colors = true → ∀ s ∈ g.styles,
      Unbroken (writtenColour s.fill) ∧ Unbroken (writtenColour s.stroke)) :
    Rows IsRow (linesWith (styleRows colors g) colors g blocks)
      (statementsWith (styleRows colors g) colors g blocks) := by
  apply rows_linesWith
  · intro n hn
    obtain ⟨id, style, label⟩ := h.nodes n hn
    exact isRow_nodeLine id style label colors
  · intro e he
    obtain ⟨source, target, label⟩ := h.edges e he
    exact isRow_edgeText source target label
  · exact fun b hb => isRow_blockHeader (names b (mem_forestOf.mp hb).1) (titles b hb)
  · exact isStatement_end.toIsLine.isRow
  · intro s hs
    unfold styleRows at hs
    split at hs
    · rename_i coloured
      obtain ⟨c, hc, rfl⟩ := List.mem_map.mp hs
      obtain ⟨fill, stroke⟩ := colours coloured c hc
      exact isRow_styleRow (h.styles c hc) fill stroke
    · cases hs

/-- Prepared, the statements of a flowchart are taken in. -/
theorem exists_reads_flowchart (h : g.Sound) (names : ∀ b ∈ blocks, IsName b.name)
    (colors : Bool) :
    ∃ d, FlowchartReader.Reads {}
      ((statementsWith (styleRows colors g) colors g blocks).map prepareForRendering) ⟨d, []⟩ := by
  have nodes : ∀ n ∈ g.nodes,
      FlowchartReader.Accepted (prepareForRendering (nodeLine colors n)) :=
    fun n hn => FlowchartReader.accepted_nodeLine (h.nodes n hn).1 (h.nodes n hn).2.1 colors
  have headers : ∀ b ∈ (forestOf g.nodes blocks).blocks,
      FlowchartReader.Opens (prepareForRendering (blockHeader b)) b.name :=
    fun b hb => FlowchartReader.opens_blockHeader (names b (mem_forestOf.mp hb).1)
  have forest := FlowchartReader.runs_forest (t := forestOf g.nodes blocks)
    (fun n hn => nodes n (mem_written (List.mem_append_left _ hn))) headers []
  have others : FlowchartReader.Runs [] (((looseNodes g.nodes blocks).map (nodeLine colors) ++
      (g.edges.map edgeText ++ styleRows colors g)).map prepareForRendering) := by
    apply FlowchartReader.Runs.of_accepted
    intro s hs
    obtain ⟨t, ht, rfl⟩ := List.mem_map.mp hs
    rcases List.mem_append.mp ht with ht | ht
    · obtain ⟨n, hn, rfl⟩ := List.mem_map.mp ht
      exact nodes n (mem_written (List.mem_append_right _ hn))
    rcases List.mem_append.mp ht with ht | ht
    · obtain ⟨e, he, rfl⟩ := List.mem_map.mp ht
      exact FlowchartReader.accepted_edgeText (h.edges e he).1 (h.edges e he).2.1
    · unfold styleRows at ht
      split at ht
      · obtain ⟨c, hc, rfl⟩ := List.mem_map.mp ht
        exact FlowchartReader.accepted_styleRow (h.styles c hc)
      · cases ht
  obtain ⟨d, run⟩ := forest.append others {}
  rw [← List.map_append, ← List.append_assoc] at run
  exact ⟨d, run⟩

/-- **A flowchart whose titles and colours break no line is read.** -/
theorem readDiagram_flowRows (h : g.Sound) (names : ∀ b ∈ blocks, IsName b.name) {colors : Bool}
    {direction : Text} (hd : direction ∈ directions)
    (rows : Rows IsRow (linesWith (styleRows colors g) colors g blocks)
      (statementsWith (styleRows colors g) colors g blocks)) :
    ∃ d, readDiagram (joinLines (flowchartHeader direction ::
      linesWith (styleRows colors g) colors g blocks)) = .ok d := by
  have header := isLine_header hd
  obtain ⟨d, run⟩ := exists_reads_flowchart h names colors
  refine ⟨d, readDiagram_of_reads hd ?_ run⟩
  rw [diagramLines_rows header.isRow rows, List.map_cons, header.prepare_eq]

end Flowcharts

end Drawbridge
