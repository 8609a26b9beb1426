import Drawbridge.Diagram.Renderer
import Drawbridge.Proofs.Diagram.StrictChain
import Drawbridge.Proofs.Diagram.FlowchartReader
import Drawbridge.Proofs.Text.Words

/-!
Strict reading of diagrams. A flowchart gives up the last of the open subgraphs at an `end` and
names it if one stays open; the value of a style property is what follows its first colon; a
sequence diagram looks at the first word of a line; the header is the first word of the first line.
Whatever the text is, strict reading ends as reading does: with the diagram, or with a rejection.

* `Flowchart.addLine_eq`, `Classes.addLine_eq`, `Sequence.addLine_eq`: a line is taken in alike, in a
  sequence diagram if it is not blank;
* `Flowchart.read_eq`, `Classes.read_eq`, `Sequence.read_eq`: and so are all the lines;
* `readDiagram_eq`: every text is read alike.
-/

namespace Drawbridge.Strict

/-! ## Lines -/

theorem foldlM_numberLines {σ : Type} {ls : List Text} {strict : σ → Nat → Text → Except Failure σ}
    {step : σ → Nat → Text → Except Rejection σ}
    (same : ∀ l ∈ ls, ∀ st k, strict st k l = rejecting (step st k l)) (st : σ) :
    (numberLines ls).foldlM (fun st (k, l) => strict st k l) st =
      rejecting ((numberLines ls).foldlM (fun st (k, l) => step st k l) st) := by
  apply foldlM_rejecting
  rintro ⟨k, l⟩ numbered st
  obtain ⟨i, hi, pair⟩ := List.mem_mapIdx.mp numbered
  cases pair
  exact same _ (List.getElem_mem hi) st _

/-! ## Flowcharts -/

def cutOnce (c : Char) (s : Text) : List Text :=
  match cutAt? c s with
  | some (a, b) => [a, b]
  | none => [s]

theorem cutAt?_isSome_iff {c : Char} {s : Text} : (cutAt? c s).isSome = true ↔ c ∈ s := by
  induction s with
  | nil => simp [cutAt?]
  | cons d s ih =>
    rw [cutAt?]
    split
    · rename_i here
      simp [here]
    · rename_i other
      rw [Option.isSome_map, ih, List.mem_cons, or_iff_right (Ne.symm other)]

def property (part : Text) : Except Failure (Text × Text) := do
  let (key, value) ← pair (cutOnce ':' part)
  return (strip key, strip value)

def readStyle (body : Text) : Except Failure (Dictionary Text) := do
  let pieces := FlowchartReader.splitProperties (dropRightWhile (· = ';') body)
  let properties ← (pieces.filter fun part => part.contains ':').mapM property
  return Dictionary.ofList properties

theorem readStyle_eq (body : Text) : readStyle body = .ok (FlowchartReader.readStyle body) := by
  unfold readStyle FlowchartReader.readStyle
  dsimp only
  generalize FlowchartReader.splitProperties (dropRightWhile (· = ';') body) = pieces
  have colon : ∀ part : Text, part.contains ':' = (cutAt? ':' part).isSome := by
    intro part
    rw [Bool.eq_iff_iff, List.contains_iff_mem, cutAt?_isSome_iff]
  have properties : (pieces.filter fun part => part.contains ':').mapM property =
      .ok (pieces.filterMap fun part =>
        (cutAt? ':' part).map fun (key, value) => (strip key, strip value)) := by
    apply mapM_filter_ok
    · intro part _ without
      rw [colon, Option.isSome_eq_false_iff, Option.isNone_iff_eq_none] at without
      rw [without]
      rfl
    · intro part _ within
      rw [colon, Option.isSome_iff_exists] at within
      obtain ⟨⟨key, value⟩, cut⟩ := within
      refine ⟨(strip key, strip value), ?_, by rw [cut]; rfl⟩
      rw [property, cutOnce, cut]
      rfl
  rw [properties]
  rfl

namespace Flowchart

open FlowchartReader (Statement State)

/-- What a line does, unless it holds nodes. -/
def readCommand (s : Text) : Except Failure (Option Statement) :=
  if s = "end".toList then .ok (some .closeSubgraph)
  else if "subgraph".toList.isPrefixOf s then
    match FlowchartReader.readNamed? s with
    | some named => .ok (some named)
    | none => do
      let title ← unquote ((FlowchartReader.afterKeyword? "subgraph".toList s).getD [])
      return some (.openTitled title)
  else if "direction ".toList.isPrefixOf s then .ok (some .direction)
  else .ok ((FlowchartReader.readStyleDef? s).or (FlowchartReader.readStyleUse? s))

theorem readCommand_ok (s : Text) : ∃ command, readCommand s = .ok command ∧
    FlowchartReader.readStatement s = command.getD (.chain (splitChain s)) := by
  unfold readCommand FlowchartReader.readStatement
  split
  · exact ⟨_, rfl, rfl⟩
  split
  · unfold FlowchartReader.readSubgraph
    cases FlowchartReader.readNamed? s with
    | some named => exact ⟨_, rfl, rfl⟩
    | none =>
      dsimp only
      rw [unquote_eq]
      exact ⟨_, rfl, rfl⟩
  split
  · exact ⟨_, rfl, rfl⟩
  · exact ⟨_, rfl, rfl⟩

def assignStyle (d : Draft) (groups : List Text) (name : Text) (ids : List Text) :
    Except Failure Draft :=
  ids.foldlM (fun d id =>
    change (d.touch id groups) id fun n => { n with styleClass := name }) d

theorem assignStyle_eq (d : Draft) (groups : List Text) (name : Text) (ids : List Text) :
    assignStyle d groups name ids = .ok (FlowchartReader.assignStyle d groups name ids) := by
  unfold assignStyle FlowchartReader.assignStyle
  induction ids generalizing d with
  | nil => rfl
  | cons id ids ih =>
    rw [List.foldlM_cons, change_touch]
    exact ih _

def add (st : State) (number : Nat) (line : Text) : Statement → Except Failure State
  | .closeSubgraph =>
    if st.enclosing = [] then .error (.rejected (.unexpectedEnd number line))
    else do
      let enclosing ← withoutLast st.enclosing
      return { st with enclosing }
  | .openNamed id title =>
    if title.getD [] = [] then .ok (st.enter id id)
    else do
      let written ← given title
      let title ← unquote written
      return st.enter id title
  | .openTitled title => .ok (st.enter (FlowchartReader.titleId st.draft title) title)
  | .direction => .ok st
  | .defineStyle name body => do
    let style ← readStyle body
    let defs := st.draft.classDefs.insert name style
    return { st with draft := { st.draft with classDefs := defs } }
  | .assignStyle ids name => do
    let draft ← assignStyle st.draft st.enclosing name ids
    return { st with draft }
  | .chain c => do
    let draft ← addParts st.draft number st.enclosing c.parts line
    return { st with draft }

/-- **A statement is taken in alike.** -/
theorem add_eq (st : State) (number : Nat) (line : Text) (s : Statement) :
    add st number line s = rejecting (st.add number line s) := by
  cases s with
  | closeSubgraph =>
    rw [add, State.add]
    split
    · rfl
    · rename_i isOpen
      rw [withoutLast_ok isOpen]
      rfl
  | openNamed id title =>
    rcases title with _ | _ | ⟨c, t⟩
    · rfl
    · rfl
    · show (unquote (c :: t) >>= _) = _
      rw [unquote_eq]
      rfl
  | openTitled title => rfl
  | direction => rfl
  | defineStyle name body =>
    rw [add, readStyle_eq]
    rfl
  | assignStyle ids name =>
    rw [add, assignStyle_eq]
    rfl
  | chain c =>
    rw [add, addParts_eq, State.add, rejecting_bind]
    rfl

def addLine (st : State) (number : Nat) (line : Text) : Except Failure State := do
  let line := strip (dropRightWhile (· = ';') line)
  match ← readCommand line with
  | some command => add st number line command
  | none =>
    let parts ← scan line
    if 1 < parts.length then
      let draft ← addParts st.draft number st.enclosing parts line
      return { st with draft }
    else
      let (draft, _) ← addNode st.draft number st.enclosing line
      return { st with draft }

/-- A character belongs to the first token unless a link begins with it. -/
theorem splitFrom_cons_cases (depth : Nat) (quoted : Bool) (c : Char) (s : Text) :
    (∃ depth' quoted',
      splitFrom 0 depth quoted (c :: s) = (splitFrom 0 depth' quoted' s).cons c) ∨
      ∃ l rest, splitFrom 0 depth quoted (c :: s) = ⟨[], l :: rest⟩ := by
  rw [splitFrom_cons]
  split
  · exact .inl ⟨_, _, rfl⟩
  split
  · exact .inl ⟨_, _, rfl⟩
  split
  · exact .inl ⟨_, _, rfl⟩
  split
  · exact .inl ⟨_, _, rfl⟩
  split
  · split
    · exact .inr ⟨_, _, rfl⟩
    · exact .inl ⟨_, _, rfl⟩
  · exact .inl ⟨_, _, rfl⟩

/-- A line without links is a single token, the line itself. -/
theorem splitFrom_unlinked {s : Text} {depth : Nat} {quoted : Bool}
    (h : (splitFrom 0 depth quoted s).rest = []) : splitFrom 0 depth quoted s = ⟨s, []⟩ := by
  induction s generalizing depth quoted with
  | nil => rfl
  | cons c s ih =>
    rcases splitFrom_cons_cases depth quoted c s with ⟨d, q, passed⟩ | ⟨l, rest, linked⟩
    · rw [passed] at h ⊢
      rw [ih h]
      rfl
    · rw [linked] at h
      cases h

theorem addLine_eq (st : State) (number : Nat) (line : Text) :
    addLine st number line = rejecting (st.addLine number line) := by
  unfold addLine State.addLine
  dsimp only
  generalize strip (dropRightWhile (· = ';') line) = line
  obtain ⟨command, read, statement⟩ := readCommand_ok line
  rw [read, statement]
  cases command with
  | some command => exact add_eq st number line command
  | none =>
    show (scan line >>= _) = rejecting (st.draft.addChain number st.enclosing (splitChain line) >>= _)
    rw [scan_eq, rejecting_bind]
    show (if 1 < (splitChain line).parts.length then _ else _) = _
    split
    · rw [addParts_eq]
      rfl
    · rename_i short
      rw [length_parts] at short
      have none : (splitChain line).rest = [] := List.length_eq_zero_iff.mp (by omega)
      have unlinked : splitChain line = ⟨line, []⟩ := splitFrom_unlinked none
      rw [unlinked, addNode_eq, Draft.addChain, Draft.addTokens]
      cases st.draft.addTokenText number st.enclosing line <;> rfl

def read (ls : List Text) : Except Failure Draft := do
  let st ← (numberLines ls).foldlM (fun st (number, line) => addLine st number line) {}
  if st.enclosing = [] then return st.draft
  else
    let innermost ← last st.enclosing
    .error (.rejected (.missingEnd innermost))

theorem read_eq (ls : List Text) : read ls = rejecting (FlowchartReader.read ls) := by
  unfold read FlowchartReader.read
  rw [rejecting_bind, foldlM_numberLines fun line _ st number => addLine_eq st number line]
  congr 1
  funext st
  cases isOpen : st.enclosing.getLast? with
  | none =>
    rw [if_pos (List.getLast?_eq_none_iff.mp isOpen)]
    rfl
  | some innermost =>
    have some_open : st.enclosing ≠ [] := fun none => by
      rw [none] at isOpen
      cases isOpen
    rw [if_neg some_open, last_ok isOpen]
    rfl

end Flowchart

/-! ## Class diagrams -/

namespace Classes

open ClassReader (Statement State)

def add (st : State) : Statement → Except Failure State
  | .declare id label opensBody => do
    let draft := st.draft.touch id []
    if label = none then return { draft, inBody := opensBody }
    else
      let l ← given label
      let draft ← change draft id fun n =>
        { n with label := if strip l = [] then n.id else strip l }
      return { draft, inBody := opensBody }
  | .relate source target label =>
    .ok { st with draft := ((st.draft.touch source []).touch target []).addEdge source target label }
  | .skip => .ok st

theorem add_eq (st : State) (s : Statement) : add st s = .ok (st.add s) := by
  cases s with
  | declare id label opensBody =>
    cases label with
    | none => rfl
    | some l =>
      show (change (st.draft.touch id []) id _ >>= _) = _
      rw [change_touch]
      rfl
  | relate source target label => rfl
  | skip => rfl

def addLine (st : State) (number : Nat) (line : Text) : Except Failure State :=
  if st.inBody then .ok { st with inBody := line ≠ ['\x7d'] }
  else
    match ClassReader.readStatement? line with
    | some s => add st s
    | none => .error (.rejected (.badLine number line))

theorem addLine_eq (st : State) (number : Nat) (line : Text) :
    addLine st number line = rejecting (st.addLine number line) := by
  unfold addLine State.addLine
  split
  · rfl
  · cases ClassReader.readStatement? line with
    | none => rfl
    | some s => exact add_eq st s

def read (ls : List Text) : Except Failure Draft := do
  let st ← (numberLines ls).foldlM (fun st (number, line) => addLine st number line) {}
  return st.draft

theorem read_eq (ls : List Text) : read ls = rejecting (ClassReader.read ls) := by
  unfold read ClassReader.read
  rw [rejecting_bind, foldlM_numberLines fun line _ st number => addLine_eq st number line]
  rfl

end Classes

/-! ## Sequence diagrams -/

namespace Sequence

open SequenceReader (Statement)

def add (d : Draft) : Statement → Except Failure Draft
  | .participant id label =>
    if label.getD [] = [] then .ok (d.touch id [])
    else do
      let l ← given label
      change (d.touch id []) id fun n => { n with label := strip l }
  | .message source target label =>
    .ok (((d.touch source []).touch target []).addEdge source target label)
  | .skip => .ok d

/-- Takes a line in. A line that is neither participant nor message goes by its first word. -/
def addLine (d : Draft) (number : Nat) (line : Text) : Except Failure Draft :=
  match (SequenceReader.readParticipant? line).or (SequenceReader.readMessage? line) with
  | some s => add d s
  | none => do
    let word ← item (words line) 0
    if SequenceReader.keywords.contains (lowerKeyword word) then return d
    else .error (.rejected (.badLine number line))

theorem label_ne_nil {line id : Text} {label : Option Text}
    (h : SequenceReader.readParticipant? line = some (.participant id label)) :
    label ≠ some [] := by
  unfold SequenceReader.readParticipant? at h
  obtain ⟨r₁, -, h⟩ := Option.bind_eq_some_iff.mp h
  obtain ⟨r₂, -, h⟩ := Option.bind_eq_some_iff.mp h
  dsimp only at h
  split at h
  · cases h
  split at h
  · cases h
    exact Option.some_ne_none [] ∘ Eq.symm
  · obtain ⟨r₃, -, h⟩ := Option.bind_eq_some_iff.mp h
    obtain ⟨r₄, -, h⟩ := Option.bind_eq_some_iff.mp h
    obtain ⟨l, -, h⟩ := Option.bind_eq_some_iff.mp h
    split at h
    · cases h
    · rename_i filled
      cases h
      exact fun empty => filled (Option.some.inj empty)

theorem add_eq (d : Draft) {line : Text} {s : Statement}
    (h : (SequenceReader.readParticipant? line).or (SequenceReader.readMessage? line) = some s) :
    add d s = .ok (SequenceReader.addStatement d s) := by
  cases s with
  | participant id label =>
    rcases label with _ | _ | ⟨c, l⟩
    · rfl
    · rcases Option.or_eq_some_iff.mp h with participant | ⟨-, message⟩
      · exact (label_ne_nil participant rfl).elim
      · unfold SequenceReader.readMessage? at message
        dsimp only at message
        split at message
        · cases message
        · obtain ⟨_, -, other⟩ := Option.map_eq_some_iff.mp message
          cases other
    · show (change (d.touch id []) id _) = _
      rw [change_touch]
      rfl
  | message source target label => rfl
  | skip => rfl

theorem exists_word {line : Text} (h : strip line ≠ []) : ∃ w ws, words line = w :: ws := by
  apply List.exists_cons_of_ne_nil
  intro none
  exact h (strip_eq_nil_iff.mpr (words_eq_nil_iff.mp none))

theorem addLine_eq (d : Draft) (number : Nat) {line : Text} (h : strip line ≠ []) :
    addLine d number line = rejecting (SequenceReader.addLine d number line) := by
  unfold addLine SequenceReader.addLine SequenceReader.readStatement?
  cases read : (SequenceReader.readParticipant? line).or (SequenceReader.readMessage? line) with
  | some s => exact add_eq d read
  | none =>
    obtain ⟨w, ws, first⟩ := exists_word h
    rw [Option.none_or, SequenceReader.isSkipped, first]
    show (if SequenceReader.keywords.contains (lowerKeyword w) then _ else _) = _
    split <;> rfl

def read (ls : List Text) : Except Failure Draft :=
  (numberLines ls).foldlM (fun d (number, line) => addLine d number line) {}

theorem read_eq {ls : List Text} (h : ∀ l ∈ ls, strip l ≠ []) :
    read ls = rejecting (SequenceReader.read ls) :=
  foldlM_numberLines (fun l hl d number => addLine_eq d number (h l hl)) {}

end Sequence

/-! ## Diagrams -/

/-- Reads a diagram: the first word of its first line tells the kind. -/
def readDiagram (s : Text) : Except Failure Draft :=
  let ls := diagramLines (prepareForRendering s)
  if ls = [] then .error (.rejected .empty)
  else do
    let header ← item ls 0
    let keyword ← item (words header) 0
    if keyword = "flowchart".toList || keyword = "graph".toList then Flowchart.read ls.tail
    else if keyword = "classDiagram".toList then Classes.read ls.tail
    else if keyword = "sequenceDiagram".toList then Sequence.read ls.tail
    else .error (.rejected (.unsupported keyword header))

theorem strip_ne_nil_of_mem_diagramLines {s l : Text} (h : l ∈ diagramLines s) : strip l ≠ [] := by
  obtain ⟨trimmed, kept⟩ := List.mem_filter.mp h
  obtain ⟨raw, -, rfl⟩ := List.mem_map.mp trimmed
  rw [strip_strip]
  have filled := (Bool.and_eq_true_iff.mp kept).1
  exact of_decide_eq_true filled

/-- **Every text is read alike.** -/
theorem readDiagram_eq (s : Text) : readDiagram s = rejecting (Drawbridge.readDiagram s) := by
  unfold readDiagram Drawbridge.readDiagram
  have filled : ∀ l ∈ diagramLines (prepareForRendering s), strip l ≠ [] :=
    fun _ => strip_ne_nil_of_mem_diagramLines
  dsimp only
  generalize diagramLines (prepareForRendering s) = ls at filled
  cases ls with
  | nil => rfl
  | cons header ls =>
    obtain ⟨keyword, rest, first⟩ := Sequence.exists_word (filled header List.mem_cons_self)
    have others : ∀ l ∈ ls, strip l ≠ [] := fun l hl => filled l (List.mem_cons_of_mem header hl)
    have head : (words header).headD [] = keyword := by rw [first, List.headD_cons]
    rw [if_neg (List.cons_ne_nil header ls), item_ok rfl]
    show (item (words header) 0 >>= _) = _
    rw [first, item_ok rfl]
    show (if _ then Flowchart.read ls else if _ then Classes.read ls else
      if _ then Sequence.read ls else _) = _
    rw [Flowchart.read_eq, Classes.read_eq, Sequence.read_eq others, apply_ite rejecting,
      apply_ite rejecting, apply_ite rejecting, head]
    rfl

end Drawbridge.Strict
