import Drawbridge.Proofs.Diagram.Rows
import Drawbridge.Proofs.Graph.Soundness

/-!
Written class diagrams, line by line. A declaration holds the label of its class in quotes, and a
label holds none itself, so that whatever else it holds the declaration is read as it was meant
(`readStatement?_classText`); the same goes for inheritances (`readStatement?_inheritText`). A class
diagram is read whatever the graph, as what its statements add up to (`classDraft`,
`readDiagram_classLines`).
-/

namespace Drawbridge

/-! ## What is written -/

/-- What stands behind the name of a class: a label in brackets and quotes, if there is one. -/
def classMark : Option Text → Text
  | none => []
  | some t => "[\"".toList ++ (t ++ "\"]".toList)

def classText (id : Text) (label : Option Text) : Text :=
  "class ".toList ++ id ++ classMark label

def inheritText (e : Edge) : Text :=
  e.source ++ " <|-- ".toList ++ e.target

theorem classText_none (id : Text) : classText id none = "class ".toList ++ id :=
  List.append_nil _

theorem classText_some (id t : Text) :
    classText id (some t) = "class ".toList ++ id ++ "[\"".toList ++ (t ++ "\"]".toList) :=
  (List.append_assoc ("class ".toList ++ id) "[\"".toList _).symm

/-- The label that a class is declared with, if anything is left of it. -/
def declaredLabel? (n : Node) : Option Text :=
  if classLabel n.label = [] then none else some (classLabel n.label)

def declaration (n : Node) : Text :=
  classText n.id (declaredLabel? n)

def classTexts (g : Graph) : List Text :=
  g.nodes.map declaration ++ g.edges.map inheritText

theorem classLine_eq (n : Node) : classLine n = indent ++ declaration n := by
  have line (m : Text) : indent ++ "class ".toList ++ n.id ++ m =
      indent ++ ("class ".toList ++ n.id ++ m) := by
    simp only [List.append_assoc]
  unfold declaration declaredLabel? classText
  split
  · rename_i empty
    rw [classLine, if_pos empty]
    exact line []
  · rename_i some_left
    rw [classLine, if_neg some_left, List.append_assoc "[\"".toList]
    exact line _

theorem classLines_eq (g : Graph) :
    classLines g = DiagramType.classDiagram.name :: (classTexts g).map (indent ++ ·) := by
  have nodes : g.nodes.map classLine = (g.nodes.map declaration).map (indent ++ ·) := by
    rw [List.map_map]
    exact List.map_congr_left fun n _ => classLine_eq n
  have edges : g.edges.map (fun e => indent ++ e.source ++ " <|-- ".toList ++ e.target) =
      (g.edges.map inheritText).map (indent ++ ·) := by
    rw [List.map_map]
    apply List.map_congr_left
    intro e _
    show _ = indent ++ (e.source ++ " <|-- ".toList ++ e.target)
    simp only [List.append_assoc]
  rw [classLines, nodes, edges, classTexts, List.map_append]

/-- A label holds what was in the text, and single quotes for the double ones. -/
theorem mem_classLabel {s : Text} {c : Char} (h : c ∈ classLabel s) :
    c = '\'' ∨ c ∈ s ∧ c ≠ '"' := by
  obtain ⟨d, hd, rfl⟩ := List.mem_map.mp ((strip_isInfix _).subset h)
  split
  · exact .inl rfl
  · rename_i other
    exact .inr ⟨(List.mem_filter.mp hd).1, other⟩

theorem not_quote_mem_classLabel (s : Text) : '"' ∉ classLabel s := by
  intro h
  rcases mem_classLabel h with h | ⟨-, h⟩
  · revert h
    decide
  · exact h rfl

theorem unbroken_classLabel {s : Text} (h : IsTidy s) : Unbroken (classLabel s) := by
  intro c hc
  rcases mem_classLabel hc with rfl | ⟨hc, -⟩
  · decide
  · exact h.unbroken c hc

/-! ## Rows -/

section Rows

variable {id : Text} (hid : IsName id)

theorem classText_starts (id : Text) (label : Option Text) :
    ∃ c r, classText id label = c :: r ∧ isIdentChar c = true :=
  ⟨'c', _, rfl, by decide⟩

include hid

theorem isInline_classHead : IsInline ("class ".toList ++ id ++ "[\"".toList) := by
  have keyword : IsInline "class ".toList := isInline_of_all (by decide)
  have bracket : IsInline "[\"".toList := isInline_of_all (by decide)
  exact (keyword.append hid.isInline).append bracket

theorem isRow_classText {label : Option Text} (h : ∀ t ∈ label, Unbroken t) :
    IsRow (classText id label) := by
  refine ⟨?_, classText_starts id label⟩
  cases label with
  | none =>
    have keyword : IsInline "class ".toList := isInline_of_all (by decide)
    rw [classText_none]
    exact (keyword.append hid.isInline).unbroken
  | some t =>
    have closing : IsInline "\"]".toList := isInline_of_all (by decide)
    rw [classText_some]
    exact (isInline_classHead hid).unbroken.append ((h t rfl).append closing.unbroken)

theorem prepare_classText (label : Option Text) :
    prepareForRendering (classText id label) = classText id (label.map unmarked) := by
  cases label with
  | none =>
    have keyword : IsInline "class ".toList := isInline_of_all (by decide)
    apply IsLine.prepare_eq
    obtain ⟨c, hc, solid, -⟩ := hid.closes.append "class ".toList
    rw [classText_none]
    exact ⟨keyword.append hid.isInline, ⟨'c', _, rfl, by decide⟩, c, hc, solid⟩
  | some t =>
    have quote : Seals "\"]".toList := .of_char (by decide) (by decide) (by decide) [']']
    have closing : IsInline "\"]".toList := isInline_of_all (by decide)
    have between := prepare_between (isInline_classHead hid).toIsPrepared closing.toIsPrepared quote
      ⟨'c', _, rfl, by decide⟩ ⟨']', rfl, by decide⟩ t
    rwa [← classText_some, ← classText_some] at between

end Rows

/-- The arrow of an inheritance begins with an angle bracket, but no tag. -/
theorem isInline_inheritMark : IsInline " <|-- ".toList := by
  have fence : Inert fenceSize " <|-- ".toList :=
    .of_not_mem (fun _ s => fenceSize_cons s) (by decide)
  have rest : Inert breakTagSize "|-- ".toList :=
    .of_not_mem (fun _ s => breakTagSize_cons s) (by decide)
  have tag : Inert breakTagSize " <|-- ".toList :=
    (rest.cons (c := '<') fun _ => rfl).cons fun _ => breakTagSize_cons _ (by decide)
  refine ⟨⟨fence, tag⟩, ?_⟩
  unfold Unbroken
  decide

theorem isLine_inheritText {e : Edge} (source : IsName e.source) (target : IsName e.target) :
    IsLine (inheritText e) := by
  obtain ⟨c, r, hc, ident⟩ := source.starts
  obtain ⟨d, hd, solid, -⟩ := target.closes.append (e.source ++ " <|-- ".toList)
  refine ⟨(source.isInline.append isInline_inheritMark).append target.isInline, ?_, d, hd, solid⟩
  exact ⟨c, _, by rw [inheritText, hc]; rfl, ident⟩

theorem isRow_classTexts {g : Graph} (h : g.Sound) : ∀ s ∈ classTexts g, IsRow s := by
  intro s hs
  rcases List.mem_append.mp hs with hs | hs
  · obtain ⟨n, hn, rfl⟩ := List.mem_map.mp hs
    obtain ⟨name, -, tidy⟩ := h.nodes n hn
    apply isRow_classText name
    intro t ht
    unfold declaredLabel? at ht
    split at ht
    · cases ht
    · cases ht
      exact unbroken_classLabel tidy
  · obtain ⟨e, he, rfl⟩ := List.mem_map.mp hs
    obtain ⟨source, target, -⟩ := h.edges e he
    exact (isLine_inheritText source target).isRow

/-! ## Reading -/

namespace ClassReader

theorem afterPrefix?_classText (id : Text) (label : Option Text) :
    afterPrefix? "class".toList (classText id label) = some (' ' :: (id ++ classMark label)) := by
  have word : "class ".toList = "class".toList ++ [' '] := by decide
  have line : classText id label = "class".toList ++ (' ' :: (id ++ classMark label)) := by
    unfold classText
    rw [word, List.append_assoc, List.append_assoc]
    rfl
  rw [line, afterPrefix?_append]

/-- What a declaration is marked with is read as its label, if it holds no quote. -/
theorem takeLabel?_classMark {t : Text} (h : '"' ∉ t) :
    takeLabel? (classMark (some t)) = some (t, []) := by
  have mark : classMark (some t) = '[' :: ('"' :: (t ++ '"' :: [']'])) := rfl
  rw [mark]
  unfold takeLabel?
  show (cutAt? '"' (t ++ '"' :: [']']) >>= _) = _
  rw [cutAt?_append h]
  rfl

theorem readDeclaration?_classText {id : Text} (hid : IsName id) {label : Option Text}
    (h : ∀ t ∈ label, '"' ∉ t) :
    readDeclaration? (classText id label) = some (.declare id label false) := by
  have solid : stripLeft (' ' :: (id ++ classMark label)) = id ++ classMark label := by
    obtain ⟨c, r, hc, ident⟩ := hid.starts
    show stripLeft (id ++ classMark label) = _
    rw [hc]
    exact List.dropWhile_cons_of_neg (by simp [not_blank_of_isIdentChar ident])
  unfold readDeclaration?
  rw [afterPrefix?_classText]
  show (if _ then _ else _) = _
  rw [solid]
  cases label with
  | none =>
    have all : id.takeWhile isIdentChar = id := List.takeWhile_eq_self_iff.mpr hid.ident
    have rest : id.dropWhile isIdentChar = [] := List.dropWhile_eq_nil_iff.mpr hid.ident
    rw [classMark, List.append_nil, all, rest]
    simp [hid.ne_nil, stripLeft, takeLabel?, afterPrefix?]
  | some t =>
    have bracket : isIdentChar '[' = false := by decide
    have mark : ∃ r, classMark (some t) = '[' :: r := ⟨_, rfl⟩
    have taken := takeLabel?_classMark (h t rfl)
    obtain ⟨r, hr⟩ := mark
    rw [hr] at taken ⊢
    have start : stripLeft ('[' :: r) = '[' :: r := List.dropWhile_cons_of_neg (by decide)
    rw [takeWhile_piece hid.ident bracket, dropWhile_piece hid.ident bracket, start]
    simp [hid.ne_nil, taken, stripLeft]

/-- **A declaration is read by its name and its label.** -/
theorem readStatement?_classText {id : Text} (hid : IsName id) {label : Option Text}
    (h : ∀ t ∈ label, '"' ∉ t) :
    readStatement? (classText id label) = some (.declare id label false) := by
  rw [readStatement?, readDeclaration?_classText hid h]
  rfl

/-- A line that begins with a capital letter declares nothing. -/
theorem readDeclaration?_capital {c : Char} (hc : c.isUpper = true) (r : Text) :
    readDeclaration? (c :: r) = none := by
  have other : 'c' ≠ c := by
    rintro rfl
    exact absurd hc (by decide)
  have start : afterPrefix? "class".toList (c :: r) = none := if_neg other
  rw [readDeclaration?, start]
  rfl

theorem readTarget?_name {target : Text} (ht : IsName target) :
    readTarget? (' ' :: target) = some (target, []) := by
  have all : target.takeWhile isIdentChar = target := List.takeWhile_eq_self_iff.mpr ht.ident
  have rest : target.dropWhile isIdentChar = [] := List.dropWhile_eq_nil_iff.mpr ht.ident
  have plain : dropMultiplicity? (' ' :: target) = some target := by
    have solid : stripLeft (' ' :: target) = target := ht.stripLeft_eq
    obtain ⟨c, r, hc, capital⟩ := ht.capital
    rw [dropMultiplicity?, solid, hc]
    split
    · rename_i quote
      cases quote
      exact absurd capital (by decide)
    · rfl
  rw [readTarget?, plain]
  show (if _ then _ else _) = _
  rw [all, rest, if_neg ht.ne_nil]

/-- **An inheritance is read by its ends.** -/
theorem readStatement?_inheritText {e : Edge} (hs : IsName e.source) (ht : IsName e.target) :
    readStatement? (inheritText e) = some (.relate e.source e.target []) := by
  have undeclared : readDeclaration? (inheritText e) = none := by
    obtain ⟨c, r, hc, capital⟩ := hs.capital
    rw [inheritText, hc]
    exact readDeclaration?_capital capital _
  have line : inheritText e = e.source ++ ' ' :: ("<|--".toList ++ ' ' :: e.target) := by
    rw [inheritText, List.append_assoc]
    rfl
  have space : isIdentChar ' ' = false := by decide
  have arrow : dropMultiplicity? (' ' :: ("<|--".toList ++ ' ' :: e.target)) =
      some ("<|--".toList ++ ' ' :: e.target) := (rfl)
  have related : readRelation? (inheritText e) = some (.relate e.source e.target []) := by
    rw [readRelation?, line, takeWhile_piece hs.ident space, dropWhile_piece hs.ident space, arrow]
    show (if _ then _ else _) = _
    rw [if_neg hs.ne_nil, relations, List.findSome?_cons, afterPrefix?_append, Option.bind_some,
      readTarget?_name ht]
    rfl
  rw [readStatement?, undeclared, related]
  rfl

/-- Outside a body, what can be read is taken in. -/
theorem addLine_statement {st : State} (outside : st.inBody = false) {s : Text} {c : Statement}
    (h : readStatement? s = some c) (k : Nat) : st.addLine k s = .ok (st.add c) := by
  rw [State.addLine, if_neg (by simp [outside]), h]

/-- Statements that open no body are taken in, one by one. -/
theorem reads_statements {α : Type} {l : List α} {line : α → Text} {statement : α → Statement}
    (read : ∀ a ∈ l, readStatement? (line a) = some (statement a))
    (closed : ∀ a ∈ l, ∀ st : State, st.inBody = false → (st.add (statement a)).inBody = false)
    {st : State} (outside : st.inBody = false) :
    Reads State.addLine st (l.map line) ((l.map statement).foldl State.add st) ∧
      ((l.map statement).foldl State.add st).inBody = false := by
  induction l generalizing st with
  | nil => exact ⟨.nil st, outside⟩
  | cons a l ih =>
    have next := closed a List.mem_cons_self st outside
    obtain ⟨run, left⟩ := ih (fun b hb => read b (List.mem_cons_of_mem a hb))
      (fun b hb => closed b (List.mem_cons_of_mem a hb)) next
    exact ⟨.cons (addLine_statement outside (read a List.mem_cons_self)) run, left⟩

def declare (n : Node) : Statement :=
  .declare n.id ((declaredLabel? n).map unmarked) false

def inherit (e : Edge) : Statement :=
  .relate e.source e.target []

theorem readStatement?_declaration {n : Node} (name : IsName n.id) :
    readStatement? (prepareForRendering (declaration n)) = some (declare n) := by
  have unquoted : ∀ t ∈ (declaredLabel? n).map unmarked, '"' ∉ t := by
    intro t ht
    obtain ⟨l, hl, rfl⟩ := Option.map_eq_some_iff.mp ht
    unfold declaredLabel? at hl
    split at hl
    · cases hl
    · cases hl
      exact fun hm => not_quote_mem_classLabel n.label (mem_of_mem_unmarked hm)
  rw [declaration, prepare_classText name, readStatement?_classText name unquoted]
  rfl

theorem readStatement?_inheritance {e : Edge} (source : IsName e.source)
    (target : IsName e.target) :
    readStatement? (prepareForRendering (inheritText e)) = some (inherit e) := by
  rw [(isLine_inheritText source target).prepare_eq]
  exact readStatement?_inheritText source target

end ClassReader

theorem diagramLines_classLines {g : Graph} (h : g.Sound) :
    diagramLines (prepareForRendering (joinLines (classLines g))) =
      DiagramType.classDiagram.name :: (classTexts g).map prepareForRendering := by
  have header := DiagramType.classDiagram.isLine_name
  have rows := Rows.level 1 (isRow_classTexts h)
  rw [indentBy_one] at rows
  rw [classLines_eq, diagramLines_rows header.isRow rows, List.map_cons, header.prepare_eq]

/-- The diagram of a graph as its declarations and inheritances are read back. -/
def classDraft (g : Graph) : Draft :=
  ((g.nodes.map ClassReader.declare ++ g.edges.map ClassReader.inherit).foldl
    ClassReader.State.add {}).draft

/-- **A class diagram is read, whatever the graph.** -/
theorem readDiagram_classLines {g : Graph} (h : g.Sound) :
    readDiagram (joinLines (classLines g)) = .ok (classDraft g) := by
  obtain ⟨declarations, outside⟩ := ClassReader.reads_statements
    (fun n hn => ClassReader.readStatement?_declaration (h.nodes n hn).1)
    (fun _ _ _ _ => rfl) (show ({} : ClassReader.State).inBody = false from rfl)
  obtain ⟨inheritances, -⟩ := ClassReader.reads_statements
    (fun e he => ClassReader.readStatement?_inheritance (h.edges e he).1 (h.edges e he).2.1)
    (fun _ _ _ outside => outside) outside
  have run := declarations.append inheritances
  rw [← List.foldl_append] at run
  have statements : (classTexts g).map prepareForRendering =
      (g.nodes.map fun n => prepareForRendering (declaration n)) ++
        g.edges.map fun e => prepareForRendering (inheritText e) := by
    rw [classTexts, List.map_append, List.map_map, List.map_map]
    rfl
  have read : ClassReader.read ((classTexts g).map prepareForRendering) = .ok (classDraft g) := by
    show takeIn ClassReader.State.addLine 2 {} _ >>= _ = .ok (classDraft g)
    rw [statements, run 2]
    rfl
  have keyword : (words DiagramType.classDiagram.name).headD [] = "classDiagram".toList := by
    decide
  unfold readDiagram
  rw [diagramLines_classLines h]
  simp only [keyword]
  exact read

end Drawbridge
