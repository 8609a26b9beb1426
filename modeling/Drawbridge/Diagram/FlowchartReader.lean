import Drawbridge.Diagram.Chain

/-!
Reading a flowchart line by line: subgraphs and their ends, style definitions, style assignments,
edge chains and single nodes. Directions inside subgraphs are passed over.
-/

namespace Drawbridge.FlowchartReader

inductive Statement where
  | closeSubgraph
  /-- A subgraph with an identifier and perhaps a title in brackets. -/
  | openNamed (id : Text) (title : Option Text)
  /-- A subgraph with a title only. -/
  | openTitled (title : Text)
  | direction
  | defineStyle (name : Text) (body : Text)
  | assignStyle (ids : List Text) (name : Text)
  | chain (c : Chain)
  deriving DecidableEq, Repr

/-- The rest of a text that starts with a word and at least one blank, after the blanks. -/
def afterKeyword? (word s : Text) : Option Text := do
  let r ← afterPrefix? word s
  if r.takeWhile isBlank = [] then none else some (stripLeft r)

/-- A title in brackets: a quoted one, or any text without a closing bracket. -/
def bracketedTitle? : Text → Option Text
  | '[' :: s =>
    if s.getLast? = some ']' then
      let title := s.dropLast
      let quoted :=
        match NodeToken.takeQuoted? title with
        | some (_, []) => true
        | _ => false
      if quoted || !title.contains ']' then some title else none
    else none
  | _ => none

/-- A subgraph line with an identifier, and perhaps a title in brackets that ends the line. -/
def readNamed? (s : Text) : Option Statement := do
  let r ← afterKeyword? "subgraph".toList s
  let id := r.takeWhile isIdentChar
  if id = [] then none
  else
    match stripLeft (r.dropWhile isIdentChar) with
    | [] => some (.openNamed id none)
    | r => (bracketedTitle? r).map fun title => .openNamed id (some title)

def readSubgraph (s : Text) : Statement :=
  (readNamed? s).getD (.openTitled (unquote ((afterKeyword? "subgraph".toList s).getD [])))

/-- A text without one semicolon at its end, unless it is nothing else. -/
def dropSemicolon (s : Text) : Text :=
  if s.getLast? = some ';' && s.dropLast ≠ [] then s.dropLast else s

/-- A style definition: a name, and properties up to the end of the line. -/
def readStyleDef? (s : Text) : Option Statement := do
  let r ← afterKeyword? "classDef".toList s
  let name := r.takeWhile isIdentChar
  let r := r.dropWhile isIdentChar
  if name = [] || r.takeWhile isBlank = [] || stripLeft r = [] then none
  else some (.defineStyle name (dropSemicolon (stripLeft r)))

def isListChar (c : Char) : Bool :=
  isIdentChar c || c = ',' || isBlank c

/--
A style assignment: identifiers between commas and blanks, and after blanks the name of the style.
Without identifiers three blanks have to stand between the word and the name.
-/
def readStyleUse? (s : Text) : Option Statement := do
  let r ← afterPrefix? "class".toList s
  let r := if r.getLast? = some ';' then r.dropLast else r
  let name := (r.reverse.takeWhile isIdentChar).reverse
  let gap := dropRightWhile isIdentChar r
  let blankEnds := (gap.head?.any isBlank) && (gap.getLast?.any isBlank)
  if name ≠ [] && 3 ≤ gap.length && blankEnds && gap.all isListChar then
    some (.assignStyle ((splitWhere (fun c => c = ',' || isBlank c) gap).filter (· ≠ [])) name)
  else none

/-- Reads a line, which has been trimmed and holds no line break. -/
def readStatement (s : Text) : Statement :=
  if s = "end".toList then .closeSubgraph
  else if "subgraph".toList.isPrefixOf s then readSubgraph s
  else if "direction ".toList.isPrefixOf s then .direction
  else ((readStyleDef? s).or (readStyleUse? s)).getD (.chain (splitChain s))

/-! ## Styles -/

/-- Whether a comma belongs to a value: the next bracket after it, if any, closes one. -/
def insideParens : Text → Bool
  | [] => false
  | c :: s => if c = ')' then true else if c = '(' then false else insideParens s

/-- The properties of a style: the pieces between commas outside brackets. -/
def splitProperties : Text → List Text
  | [] => [[]]
  | c :: s =>
    if c = ',' && !insideParens s then [] :: splitProperties s else consHead c (splitProperties s)

/-- Reads the properties of a style. A piece without a colon is none. -/
def readStyle (body : Text) : Dictionary Text :=
  Dictionary.ofList <| (splitProperties (dropRightWhile (· = ';') body)).filterMap fun part =>
    (cutAt? ':' part).map fun (key, value) => (strip key, strip value)

/-! ## Diagrams -/

/-- What has been read so far, and the open subgraphs, outermost first. -/
structure State where
  draft : Draft := {}
  enclosing : List Text := []
  deriving DecidableEq, Repr

def State.enter (st : State) (id title : Text) : State :=
  { draft := { st.draft with titles := st.draft.titles.insert id title }
    enclosing := st.enclosing ++ [id] }

/-- An identifier made of a title, or of the number of subgraphs before. -/
def titleId (d : Draft) (title : Text) : Text :=
  match title.map fun c => if isIdentChar c then c else '_' with
  | [] => "subgraph".toList ++ decimal (d.titles.length + 1)
  | id => id

def assignStyle (d : Draft) (groups : List Text) (name : Text) (ids : List Text) : Draft :=
  ids.foldl (fun d id => (d.touch id groups).update id fun n => { n with styleClass := name }) d

/-- Takes a statement in; `line` is the line it was read from. -/
def State.add (st : State) (number : Nat) (line : Text) : Statement → Except Rejection State
  | .closeSubgraph =>
    if st.enclosing = [] then .error (.unexpectedEnd number line)
    else .ok { st with enclosing := st.enclosing.dropLast }
  | .openNamed id title =>
    .ok (st.enter id (match title with
      | some (c :: t) => unquote (c :: t)
      | _ => id))
  | .openTitled title => .ok (st.enter (titleId st.draft title) title)
  | .direction => .ok st
  | .defineStyle name body =>
    let defs := st.draft.classDefs.insert name (readStyle body)
    .ok { st with draft := { st.draft with classDefs := defs } }
  | .assignStyle ids name => .ok { st with draft := assignStyle st.draft st.enclosing name ids }
  | .chain c => do
    return { st with draft := ← st.draft.addChain number st.enclosing c }

/-- Takes a line in. Semicolons at its end do not count. -/
def State.addLine (st : State) (number : Nat) (line : Text) : Except Rejection State :=
  let line := strip (dropRightWhile (· = ';') line)
  st.add number line (readStatement line)

def read (ls : List Text) : Except Rejection Draft := do
  let st ← (numberLines ls).foldlM (fun st (number, line) => State.addLine st number line) {}
  match st.enclosing.getLast? with
  | some id => .error (.missingEnd id)
  | none => .ok st.draft

end Drawbridge.FlowchartReader
