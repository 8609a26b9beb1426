import Drawbridge.Proofs.Diagram.Writer

/-!
Reading a written flowchart. Each kind of statement is read as what it was written for
(`readStatement_name`, `readStatement_styleText`) and adds just that to the draft
(`addLine_nodeLine`, `addLine_edgeText`, `addLine_styleText`), so the statements of a graph make up
its draft (`readDiagram_written`).
-/

namespace Drawbridge

/-! ## Statements -/

namespace FlowchartReader

theorem dropRightWhile_semicolon {s : Text} (h : s.getLast? ≠ some ';') :
    dropRightWhile (· = ';') s = s := by
  rw [dropRightWhile_eq, List.rdropWhile_eq_self_iff]
  intro hne hlast
  have last := List.getLast?_eq_some_getLast hne
  rw [of_decide_eq_true hlast] at last
  exact h last

theorem addLine_trimmed {s : Text} (trimmed : strip s = s) (closed : s.getLast? ≠ some ';')
    (st : State) (k : Nat) : st.addLine k s = st.add k s (readStatement s) := by
  have whole : strip (dropRightWhile (· = ';') s) = s := by
    rw [dropRightWhile_semicolon closed, trimmed]
  rw [State.addLine, whole]

/-- A semicolon behind it does not count. -/
theorem addLine_semicolon {s : Text} (trimmed : strip s = s) (closed : s.getLast? ≠ some ';')
    (st : State) (k : Nat) : st.addLine k (s ++ [';']) = st.add k s (readStatement s) := by
  have whole : strip (dropRightWhile (· = ';') (s ++ [';'])) = s := by
    have once : dropRightWhile (· = ';') (s ++ [';']) = dropRightWhile (· = ';') s :=
      List.rdropWhile_concat_pos _ s ';' rfl
    rw [once, dropRightWhile_semicolon closed, trimmed]
  rw [State.addLine, whole]

theorem addLine_statement {s : Text} (h : IsStatement s) (st : State) (k : Nat) :
    st.addLine k s = st.add k s (readStatement s) :=
  addLine_trimmed h.strip_eq h.closed st k

theorem not_isPrefixOf {w p : Text} {a c : Char} (hw : w = a :: p) (h : a ≠ c) (s : Text) :
    ¬ w.isPrefixOf (c :: s) = true := by
  rw [hw]
  simp [h]

/-- No keyword begins with a capital letter. -/
theorem readStatement_chain {c : Char} (hc : c.isUpper = true) (r : Text) :
    readStatement (c :: r) = .chain (splitChain (c :: r)) := by
  have other : ∀ d, d.isUpper = false → d ≠ c := by
    rintro d hd rfl
    rw [hd] at hc
    cases hc
  have e : 'e' ≠ c := other 'e' (by decide)
  have s : 's' ≠ c := other 's' (by decide)
  have d : 'd' ≠ c := other 'd' (by decide)
  have k : 'c' ≠ c := other 'c' (by decide)
  have unended : c :: r ≠ "end".toList := fun h => e (List.cons.inj h).1.symm
  have unopened : ¬ "subgraph".toList.isPrefixOf (c :: r) = true := not_isPrefixOf rfl s r
  have undirected : ¬ "direction ".toList.isPrefixOf (c :: r) = true := not_isPrefixOf rfl d r
  have undefined : readStyleDef? (c :: r) = none := by
    have start : afterPrefix? "classDef".toList (c :: r) = none := if_neg k
    unfold readStyleDef? afterKeyword?
    rw [start]
    rfl
  have unused : readStyleUse? (c :: r) = none := by
    have start : afterPrefix? "class".toList (c :: r) = none := if_neg k
    unfold readStyleUse?
    rw [start]
    rfl
  unfold readStatement
  rw [if_neg unended, if_neg unopened, if_neg undirected, undefined, unused]
  rfl

theorem readStatement_name {id : Text} (h : IsName id) {line : Text}
    (first : ∃ s, line = id ++ s) : readStatement line = .chain (splitChain line) := by
  obtain ⟨c, r, rfl, capital⟩ := h.capital
  obtain ⟨s, rfl⟩ := first
  exact readStatement_chain capital (r ++ s)

theorem readStatement_classDef {name : Text} (hn : IsName name) {body : Text}
    (starts : ∃ c r, body = c :: r ∧ isBlank c = false) (closed : body.getLast? ≠ some ';') :
    readStatement ("classDef ".toList ++ name ++ [' '] ++ body) = .defineStyle name body := by
  have line : "classDef ".toList ++ name ++ [' '] ++ body =
      "classDef".toList ++ (' ' :: (name ++ ' ' :: body)) := by
    rw [List.append_assoc, List.append_assoc]
    rfl
  have keyword : afterKeyword? "classDef".toList ("classDef".toList ++
      (' ' :: (name ++ ' ' :: body))) = some (name ++ ' ' :: body) := by
    obtain ⟨c, r, hc, ident⟩ := hn.starts
    have solid : stripLeft (name ++ ' ' :: body) = name ++ ' ' :: body := by
      rw [hc]
      exact List.dropWhile_cons_of_neg (by simp [not_blank_of_isIdentChar ident])
    unfold afterKeyword?
    rw [afterPrefix?_append]
    exact congrArg some solid
  obtain ⟨c, r, hb, solid⟩ := starts
  have here := takeWhile_piece hn.ident (show isIdentChar ' ' = false by decide) body
  have rest := dropWhile_piece hn.ident (show isIdentChar ' ' = false by decide) body
  have properties : stripLeft (' ' :: body) = body := by
    show stripLeft body = body
    rw [hb]
    exact List.dropWhile_cons_of_neg (by simp [solid])
  have whole : dropSemicolon body = body := by
    rw [dropSemicolon, decide_eq_false closed]
    rfl
  have defined : readStyleDef? ("classDef".toList ++ (' ' :: (name ++ ' ' :: body))) =
      some (.defineStyle name body) := by
    unfold readStyleDef?
    rw [keyword]
    show (if _ then _ else _) = _
    rw [here, rest, properties, whole]
    have gap : (' ' :: body).takeWhile isBlank ≠ [] := List.cons_ne_nil _ _
    have full : body ≠ [] := hb ▸ List.cons_ne_nil c r
    simp [hn.ne_nil, gap, full]
  obtain ⟨r, hr⟩ : ∃ r, "classDef".toList ++ (' ' :: (name ++ ' ' :: body)) = 'c' :: r := ⟨_, rfl⟩
  rw [line]
  rw [hr] at defined ⊢
  have unended : 'c' :: r ≠ "end".toList := fun h => absurd (List.cons.inj h).1 (by decide)
  have unopened : ¬ "subgraph".toList.isPrefixOf ('c' :: r) = true :=
    not_isPrefixOf rfl (by decide) r
  have undirected : ¬ "direction ".toList.isPrefixOf ('c' :: r) = true :=
    not_isPrefixOf rfl (by decide) r
  unfold readStatement
  rw [if_neg unended, if_neg unopened, if_neg undirected, defined]
  rfl

theorem styleBody_last (s : StyleClass) : (styleBody s).getLast? = some 'x' := by
  unfold styleBody
  rw [List.getLast?_append]
  rfl

theorem readStatement_styleText {s : StyleClass} (hn : IsName s.name) :
    readStatement (styleText s) = .defineStyle s.name (styleBody s) := by
  have starts : ∃ c r, styleBody s = c :: r ∧ isBlank c = false := ⟨'f', _, rfl, by decide⟩
  have closed : (styleBody s).getLast? ≠ some ';' := by
    rw [styleBody_last]
    decide
  exact readStatement_classDef hn starts closed

/-! ## Styles -/

theorem insideParens_eq_false {s : Text} (h : ')' ∉ s) : insideParens s = false := by
  induction s with
  | nil => rfl
  | cons c s ih =>
    rw [List.mem_cons, not_or] at h
    simp [insideParens, Ne.symm h.1, ih h.2]

theorem splitProperties_eq {s : Text} (h : ')' ∉ s) :
    splitProperties s = splitWhere (fun c => c = ',') s := by
  induction s with
  | nil => rfl
  | cons c s ih =>
    rw [List.mem_cons, not_or] at h
    simp only [splitProperties, splitWhere, insideParens_eq_false h.2, ih h.2, Bool.not_false,
      Bool.and_true]

def styleProperties (s : StyleClass) : Dictionary Text :=
  [("fill".toList, colourName s.fill), ("stroke".toList, colourName s.stroke),
    ("stroke-width".toList, "2px".toList)]

theorem strip_solid {s : Text} (h : ∀ c ∈ s, isBlank c = false) : strip s = s :=
  strip_eq_self (fun c hc => h c (List.mem_of_mem_head? hc))
    fun c hc => h c (List.mem_of_getLast? hc)

theorem readProperty (key value : Text) (hk : ∀ c ∈ key, isBlank c = false ∧ c ≠ ':')
    (hv : ∀ c ∈ value, isBlank c = false) :
    ((cutAt? ':' (key ++ ':' :: value)).map fun (k, v) => (strip k, strip v)) =
      some (key, value) := by
  have cut := cutAt?_append (fun hm => (hk ':' hm).2 rfl) value
  have trimmed := strip_solid fun c hc => (hk c hc).1
  rw [cut, Option.map_some]
  show some (strip key, strip value) = some (key, value)
  rw [trimmed, strip_solid hv]

theorem colourName_plain {j : Json} (h : IsColour j) :
    ∀ c ∈ colourName j, isColourChar c = true := by
  obtain ⟨s, rfl, -, plain⟩ := h
  exact plain

theorem property_plain {key value : Text} (hk : ',' ∉ key)
    (hv : ∀ c ∈ value, isColourChar c = true) :
    ∀ c ∈ key ++ ':' :: value, decide (c = ',') = false := by
  intro c hc
  rw [decide_eq_false_iff_not]
  rintro rfl
  rcases List.mem_append.mp hc with hc | hc
  · exact hk hc
  · rcases List.mem_cons.mp hc with hc | hc
    · revert hc
      decide
    · exact absurd (hv _ hc) (by decide)

theorem not_paren_mem_styleBody {s : StyleClass} (hf : IsColour s.fill) (hs : IsColour s.stroke) :
    ')' ∉ styleBody s := by
  intro hm
  unfold styleBody at hm
  simp only [List.mem_append] at hm
  rcases hm with (((hm | hm) | hm) | hm) | hm
  · revert hm
    decide
  · exact absurd (colourName_plain hf _ hm) (by decide)
  · revert hm
    decide
  · exact absurd (colourName_plain hs _ hm) (by decide)
  · revert hm
    decide

/-- The properties of a style class are told apart. -/
theorem splitProperties_styleBody {s : StyleClass} (hf : IsColour s.fill)
    (hs : IsColour s.stroke) :
    splitProperties (styleBody s) = ["fill".toList ++ ':' :: colourName s.fill,
      "stroke".toList ++ ':' :: colourName s.stroke,
      "stroke-width".toList ++ ':' :: "2px".toList] := by
  have line : styleBody s = ("fill".toList ++ ':' :: colourName s.fill) ++
      ',' :: (("stroke".toList ++ ':' :: colourName s.stroke) ++
        ',' :: ("stroke-width".toList ++ ':' :: "2px".toList)) := by
    unfold styleBody
    simp only [List.append_assoc]
    rfl
  rw [splitProperties_eq (not_paren_mem_styleBody hf hs), line,
    splitWhere_piece (property_plain (by decide) (colourName_plain hf)) (by decide),
    splitWhere_piece (property_plain (by decide) (colourName_plain hs)) (by decide),
    splitWhere_plain (by decide)]

/-- The properties of a style class are read back as they are. -/
theorem readStyle_styleBody {s : StyleClass} (hf : IsColour s.fill) (hs : IsColour s.stroke) :
    readStyle (styleBody s) = styleProperties s := by
  have closed : (styleBody s).getLast? ≠ some ';' := by
    rw [styleBody_last]
    decide
  have solid : ∀ {j : Json}, IsColour j → ∀ c ∈ colourName j, isBlank c = false :=
    fun hj c hc => not_blank_of_isColourChar (colourName_plain hj c hc)
  have first := readProperty "fill".toList _ (by decide) (solid hf)
  have second := readProperty "stroke".toList _ (by decide) (solid hs)
  have third := readProperty "stroke-width".toList "2px".toList (by decide) (by decide)
  rw [readStyle, dropRightWhile_semicolon closed, splitProperties_styleBody hf hs]
  simp only [List.filterMap_cons, first, second, third, List.filterMap_nil]
  rfl

end FlowchartReader

/-! ## Drafts -/

theorem Dictionary.insert_new {α : Type} {d : Dictionary α} {key : Text}
    (h : key ∉ d.map Prod.fst) (value : α) : d.insert key value = d ++ [(key, value)] := by
  induction d with
  | nil => rfl
  | cons p d ih =>
    rw [List.map_cons, List.mem_cons, not_or] at h
    have first : p.1 ≠ key := Ne.symm h.1
    rw [Dictionary.insert, if_neg first, ih h.2]
    rfl

namespace Draft

theorem touch_known {d : Draft} {id : Text} (h : id ∈ d.nodes.map (·.id)) : d.touch id [] = d := by
  obtain ⟨m, hm, rfl⟩ := List.mem_map.mp h
  have known : (d.nodes.any fun n => n.id = m.id) = true :=
    List.any_eq_true.mpr ⟨m, hm, decide_eq_true rfl⟩
  have same : d.nodes.map (fun n =>
      if n.id = m.id then (if n.groups = [] then { n with groups := [] } else n) else n) =
        d.nodes := by
    apply map_eq_self
    intro n _
    split
    · split
      · rename_i hg
        rw [← hg]
      · rfl
    · rfl
  rw [touch, if_pos known, update, same]

theorem touch_new {d : Draft} {id : Text} (h : id ∉ d.nodes.map (·.id)) (groups : List Text) :
    d.touch id groups = { d with nodes := d.nodes ++ [{ id, label := id, groups }] } := by
  have unknown : ¬ (d.nodes.any fun n => n.id = id) = true := by
    rw [List.any_eq_true]
    rintro ⟨n, hn, heq⟩
    exact h (List.mem_map.mpr ⟨n, hn, of_decide_eq_true heq⟩)
  rw [touch, if_neg unknown]

theorem map_update_of_not_mem {ns : List DraftNode} {id : Text} (h : id ∉ ns.map (·.id))
    (f : DraftNode → DraftNode) : ns.map (fun n => if n.id = id then f n else n) = ns := by
  apply map_eq_self
  intro n hn
  apply if_neg
  rintro rfl
  exact h (List.mem_map_of_mem hn)

theorem addToken_known {d : Draft} {id : Text} (h : id ∈ d.nodes.map (·.id)) :
    d.addToken ⟨id, none, none⟩ [] = d := by
  have same : d.nodes.map (fun n => if n.id = id then n else n) = d.nodes := by simp
  unfold addToken
  rw [touch_known h]
  show d.update id (fun n => n) = d
  rw [update, same]

theorem addToken_new {d : Draft} {id : Text} (h : id ∉ d.nodes.map (·.id)) (shape : Shape)
    (label : Text) (style : Option Text) (groups : List Text) :
    d.addToken ⟨id, some (shape, label), style⟩ groups =
      { d with
        nodes := d.nodes ++ [{ id, label, shape, styleClass := style.getD [], groups }] } := by
  unfold addToken
  rw [touch_new h, update]
  simp only [List.map_append, map_update_of_not_mem h]
  cases style <;> simp

end Draft

/-- A node as it is read back. -/
def draftNode (colors : Bool) (n : Node) : DraftNode where
  id := n.id
  label := n.shownLabel
  shape := n.shape
  styleClass := if colors then n.styleClass else []

def draftNodeIn (colors : Bool) (groups : List Text) (n : Node) : DraftNode :=
  { draftNode colors n with groups }

/-- The diagram of a graph as it is read back. -/
def draftOf (colors : Bool) (g : Graph) : Draft where
  nodes := g.nodes.map (draftNode colors)
  edges := g.edges
  classDefs :=
    if colors then g.styles.map fun s => (s.name, FlowchartReader.styleProperties s) else []

namespace FlowchartReader

variable {g : Graph}

theorem styleAfter?_styleMark {n : Node} (h : IsName n.styleClass) (colors : Bool) :
    NodeToken.styleAfter? (styleMark colors n) =
      some (if colors then some n.styleClass else none) := by
  cases colors with
  | false => rfl
  | true =>
    have valid : (n.styleClass ≠ [] && n.styleClass.all isIdentChar) = true := by
      rw [Bool.and_eq_true, List.all_eq_true]
      exact ⟨decide_eq_true h.ne_nil, h.ident⟩
    exact if_pos valid

theorem styleMark_token {n : Node} (h : IsName n.styleClass) (colors : Bool) :
    ∀ c ∈ styleMark colors n, isTokenChar c = true := by
  intro c hc
  cases colors with
  | false => cases hc
  | true =>
    rcases List.mem_append.mp hc with hc | hc
    · have colons : ∀ c ∈ ":::".toList, isTokenChar c = true := by decide
      exact colons c hc
    · exact isTokenChar_of_isIdentChar (h.ident c hc)

theorem add_chain {st : State} {k : Nat} {line : Text} {c : Chain} {d : Draft}
    (h : st.draft.addChain k st.enclosing c = .ok d) :
    st.add k line (.chain c) = .ok { st with draft := d } := by
  simp only [State.add, h]
  rfl

/-- **The line of a new node adds the node.** -/
theorem addLine_nodeLine (h : g.Writable) (colors : Bool) {n : Node} (hn : n ∈ g.nodes) {d : Draft}
    (new : n.id ∉ d.nodes.map (·.id)) (groups : List Text) (k : Nat) :
    State.addLine ⟨d, groups⟩ k (nodeLine colors n) =
      .ok ⟨{ d with nodes := d.nodes ++ [draftNodeIn colors groups n] }, groups⟩ := by
  obtain ⟨name, style⟩ := h.names n hn
  have line := h.isStatement_nodeLine colors hn
  have label := h.shownLabel hn
  have token := NodeToken.read?_shaped name n.shape label.tidy label.entity
    (styleAfter?_styleMark style colors)
  have chain := splitChain_shaped name (isWritten_quoteLabel n.shownLabel) n.shape
    (styleMark_token style colors)
  rw [← nodeLine_eq] at token chain
  have statement : readStatement (nodeLine colors n) = .chain ⟨nodeLine colors n, []⟩ := by
    rw [← chain]
    apply readStatement_name name
    rw [nodeLine_eq]
    simp only [List.append_assoc]
    exact ⟨_, rfl⟩
  have entered : d.addTokenText k groups (nodeLine colors n) =
      .ok ({ d with nodes := d.nodes ++ [draftNodeIn colors groups n] }, n.id) := by
    rw [Draft.addTokenText, line.strip_eq, token]
    show Except.ok _ = Except.ok _
    rw [Draft.addToken_new new]
    cases colors <;> rfl
  have added : d.addChain k groups ⟨nodeLine colors n, []⟩ =
      .ok { d with nodes := d.nodes ++ [draftNodeIn colors groups n] } := by
    simp only [Draft.addChain, List.map_nil, Draft.addTokens, entered]
    rfl
  rw [addLine_statement line, statement]
  exact add_chain added

theorem addTokenText_known {d : Draft} {id : Text} (hid : IsName id)
    (known : id ∈ d.nodes.map (·.id)) (k : Nat) : d.addTokenText k [] id = .ok (d, id) := by
  rw [Draft.addTokenText, strip_solid hid.solid, NodeToken.read?_name hid]
  show Except.ok _ = Except.ok _
  rw [Draft.addToken_known known]

theorem unquote_linkOf {l : Text} (h : IsLabel l) : unquote ((linkOf l).label.getD []) = l := by
  by_cases hl : l = []
  · subst hl
    rfl
  · have label : (linkOf l).label = some (quoteLabel l) := if_neg hl
    rw [label]
    exact unquote_quoteLabel h.tidy.strip_eq h.entity

/-- **The line of an edge between known nodes adds the edge.** -/
theorem addLine_edgeText (h : g.Writable) {e : Edge} (he : e ∈ g.edges) {d : Draft}
    (source : e.source ∈ d.nodes.map (·.id)) (target : e.target ∈ d.nodes.map (·.id)) (k : Nat) :
    State.addLine ⟨d, []⟩ k (edgeText e) = .ok ⟨{ d with edges := d.edges ++ [e] }, []⟩ := by
  have line := h.isStatement_edgeText he
  have sourceName := h.end_isName (h.ends e he).1
  have targetName := h.end_isName (h.ends e he).2
  have chain : splitChain (edgeText e) = ⟨e.source, [(linkOf e.label, e.target)]⟩ :=
    splitChain_edge sourceName targetName e.label
  have statement : readStatement (edgeText e) = .chain (splitChain (edgeText e)) := by
    apply readStatement_name sourceName
    unfold edgeText
    simp only [List.append_assoc]
    exact ⟨_, rfl⟩
  have added : d.addChain k [] ⟨e.source, [(linkOf e.label, e.target)]⟩ =
      .ok { d with edges := d.edges ++ [e] } := by
    have last : d.addTokens k [] [e.target] = .ok (d, [e.target]) := by
      simp only [Draft.addTokens, addTokenText_known targetName target]
      rfl
    have both : d.addTokens k [] [e.source, e.target] = .ok (d, [e.source, e.target]) := by
      rw [Draft.addTokens, addTokenText_known sourceName source]
      show (d.addTokens k [] [e.target] >>= fun p => pure (p.1, e.source :: p.2)) = _
      rw [last]
      rfl
    simp only [Draft.addChain, List.map_cons, List.map_nil, both]
    show Except.ok (d.addEdge e.source e.target (unquote ((linkOf e.label).label.getD []))) = _
    rw [unquote_linkOf (h.edgeLabels e he)]
    rfl
  rw [addLine_statement line, statement, chain]
  exact add_chain added

/-- **The line of a new style class adds its properties.** -/
theorem addLine_styleText (h : g.Writable) {s : StyleClass} (hs : s ∈ g.styles) {d : Draft}
    (new : s.name ∉ d.classDefs.map Prod.fst) (k : Nat) :
    State.addLine ⟨d, []⟩ k (styleText s ++ [';']) =
      .ok ⟨{ d with classDefs := d.classDefs ++ [(s.name, styleProperties s)] }, []⟩ := by
  obtain ⟨name, fill, stroke⟩ := h.styles s hs
  have inserted : d.classDefs.insert s.name (styleProperties s) =
      d.classDefs ++ [(s.name, styleProperties s)] := Dictionary.insert_new new _
  have line := h.isStatement_styleText hs
  rw [addLine_semicolon line.strip_eq line.closed, readStatement_styleText name]
  show Except.ok _ = Except.ok _
  rw [readStyle_styleBody fill stroke, inserted]

/-! ## Runs -/

/-- Lines lead from one state of a flowchart to another. -/
abbrev Reads := Drawbridge.Reads State.addLine

theorem reads_nodes (h : g.Writable) (colors : Bool) {ns : List Node} (hns : ∀ n ∈ ns, n ∈ g.nodes)
    (d : Draft) (distinct : (d.nodes.map (·.id) ++ ns.map (·.id)).Nodup) (groups : List Text) :
    Reads ⟨d, groups⟩ (ns.map (nodeLine colors))
      ⟨{ d with nodes := d.nodes ++ ns.map (draftNodeIn colors groups) }, groups⟩ := by
  induction ns generalizing d with
  | nil =>
    rw [List.map_nil, List.map_nil, List.append_nil]
    exact .nil _
  | cons n ns ih =>
    have new : n.id ∉ d.nodes.map (·.id) := by
      intro hm
      exact (List.nodup_append.mp distinct).2.2 _ hm _ List.mem_cons_self rfl
    have rest := ih (fun m hm => hns m (List.mem_cons_of_mem n hm))
      { d with nodes := d.nodes ++ [draftNodeIn colors groups n] }
      (by simpa [draftNodeIn, draftNode] using distinct)
    rw [List.append_assoc] at rest
    exact .cons (addLine_nodeLine h colors (hns n List.mem_cons_self) new groups) rest

theorem reads_edges (h : g.Writable) {es : List Edge} (hes : ∀ e ∈ es, e ∈ g.edges) (d : Draft)
    (known : ∀ e ∈ es, e.source ∈ d.nodes.map (·.id) ∧ e.target ∈ d.nodes.map (·.id)) :
    Reads ⟨d, []⟩ (es.map edgeText) ⟨{ d with edges := d.edges ++ es }, []⟩ := by
  induction es generalizing d with
  | nil =>
    rw [List.map_nil, List.append_nil]
    exact .nil _
  | cons e es ih =>
    obtain ⟨source, target⟩ := known e List.mem_cons_self
    have rest := ih (fun m hm => hes m (List.mem_cons_of_mem e hm))
      { d with edges := d.edges ++ [e] } fun m hm => known m (List.mem_cons_of_mem e hm)
    rw [List.append_assoc] at rest
    exact .cons (addLine_edgeText h (hes e List.mem_cons_self) source target) rest

theorem reads_styles (h : g.Writable) {ss : List StyleClass} (hss : ∀ s ∈ ss, s ∈ g.styles)
    (d : Draft) (distinct : (d.classDefs.map Prod.fst ++ ss.map (·.name)).Nodup) :
    Reads ⟨d, []⟩ (ss.map fun s => styleText s ++ [';'])
      ⟨{ d with classDefs := d.classDefs ++ ss.map fun s => (s.name, styleProperties s) }, []⟩ := by
  induction ss generalizing d with
  | nil =>
    rw [List.map_nil, List.map_nil, List.append_nil]
    exact .nil _
  | cons s ss ih =>
    have new : s.name ∉ d.classDefs.map Prod.fst := by
      intro hm
      exact (List.nodup_append.mp distinct).2.2 _ hm _ List.mem_cons_self rfl
    have rest := ih (fun m hm => hss m (List.mem_cons_of_mem s hm))
      { d with classDefs := d.classDefs ++ [(s.name, styleProperties s)] } (by simpa using distinct)
    rw [List.append_assoc] at rest
    exact .cons (addLine_styleText h (hss s List.mem_cons_self) new) rest

/-- What comes after the nodes adds the edges and style classes. -/
theorem reads_afterNodes (h : g.Writable) (colors : Bool) {d : Draft}
    (known : ∀ id ∈ g.nodes.map (·.id), id ∈ d.nodes.map (·.id)) (unstyled : d.classDefs = []) :
    Reads ⟨d, []⟩ (g.edges.map edgeText ++ styleTexts colors g)
      ⟨{ d with edges := d.edges ++ g.edges, classDefs := (draftOf colors g).classDefs }, []⟩ := by
  have edges := reads_edges h (fun e he => he) d fun e he =>
    ⟨known _ (h.ends e he).1, known _ (h.ends e he).2⟩
  cases colors with
  | false =>
    have plain : (draftOf false g).classDefs = d.classDefs := unstyled.symm
    rw [styleTexts, if_neg Bool.false_ne_true, List.append_nil, plain]
    exact edges
  | true =>
    have styles := reads_styles h (fun s hs => hs) { d with edges := d.edges ++ g.edges }
      (by rw [unstyled]; simpa using h.distinctStyles)
    rw [styleTexts, if_pos rfl]
    refine edges.append ?_
    simpa [unstyled, draftOf] using styles

/-- The statements of a graph make up its draft. -/
theorem reads_statements (h : g.Writable) (colors : Bool) :
    Reads {} (statements colors g) ⟨draftOf colors g, []⟩ := by
  have nodes := reads_nodes h colors (fun n hn => hn) {} (by simpa using h.distinct) []
  have known : ∀ id ∈ g.nodes.map (·.id),
      id ∈ (([] : List DraftNode) ++ g.nodes.map (draftNodeIn colors [])).map (·.id) := by
    rw [List.nil_append, List.map_map]
    exact fun _ hid => hid
  rw [statements, List.append_assoc]
  exact nodes.append (reads_afterNodes h colors known rfl)

end FlowchartReader

theorem words_header {direction : Text} (h : direction ∈ directions) :
    words (flowchartHeader direction) = ["flowchart".toList, direction] := by
  have name := direction_isName direction h
  have read : ∀ w ∈ ["flowchart".toList, direction], IsWord w := by
    intro w hw
    simp only [List.mem_cons, List.not_mem_nil, or_false] at hw
    rcases hw with rfl | rfl
    · exact ⟨by decide, by decide⟩
    · exact ⟨name.ne_nil, name.solid⟩
  exact words_joinWith read

theorem readDiagram_of_reads {direction : Text} (hd : direction ∈ directions) {text : Text}
    {ss : List Text}
    (seen : diagramLines (prepareForRendering text) = flowchartHeader direction :: ss)
    {d : Draft} (run : FlowchartReader.Reads {} ss ⟨d, []⟩) : readDiagram text = .ok d := by
  have read : FlowchartReader.read ss = .ok d := by
    show takeIn FlowchartReader.State.addLine 2 {} ss >>= _ = .ok d
    rw [run 2]
    rfl
  have keyword : (words (flowchartHeader direction)).headD [] = "flowchart".toList := by
    rw [words_header hd]
    rfl
  unfold readDiagram
  rw [seen]
  simp only [keyword]
  exact read

/-- **A written flowchart is read as the diagram of its graph.** -/
theorem readDiagram_written {g : Graph} (h : g.Writable) {direction : Text}
    (hd : direction ∈ directions) (colors : Bool) :
    readDiagram (joinLines (writtenLines direction colors g)) = .ok (draftOf colors g) :=
  readDiagram_of_reads hd (h.diagramLines_written hd colors)
    (FlowchartReader.reads_statements h colors)

end Drawbridge
