import Drawbridge.Diagram.NodeToken

/-!
Reading a class diagram line by line: declarations with a label or a body, relations, and lines that
are passed over (members, directions and notes). The lines of a body are passed over up to its
closing brace.
-/

namespace Drawbridge.ClassReader

/-- A line by what it does. -/
inductive Statement where
  | declare (id : Text) (label : Option Text) (opensBody : Bool)
  | relate (source target label : Text)
  | skip
  deriving DecidableEq, Repr

/-- The relations between classes, in the order in which they are tried. -/
def relations : List Text :=
  ["<|--".toList, "--|>".toList, "*--".toList, "--*".toList, "o--".toList, "--o".toList,
    "<..".toList, "..>".toList, "<|..".toList, "..|>".toList, "-->".toList, "<--".toList,
    "--".toList, "..".toList]

/-- A label in brackets and quotes at the start of a text, and the rest. -/
def takeLabel? (s : Text) : Option (Text × Text) := do
  let r ← afterPrefix? ['[', '"'] s
  let (label, r) ← cutAt? '"' r
  let r ← afterPrefix? [']'] r
  return (label, r)

/-- A declaration: an identifier, perhaps a label, and perhaps an opening brace. -/
def readDeclaration? (s : Text) : Option Statement := do
  let r ← afterPrefix? "class".toList s
  if r.takeWhile isBlank = [] then none
  else
    let r := stripLeft r
    let id := r.takeWhile isIdentChar
    let r := stripLeft (r.dropWhile isIdentChar)
    let (label, r) :=
      match takeLabel? r with
      | some (label, r) => (some label, stripLeft r)
      | none => (none, r)
    if id = [] then none
    else if r = [] then some (.declare id label false)
    else if r = ['{'] then some (.declare id label true)
    else none

/-- A text without blanks and a quoted multiplicity at its start; the quote has to be closed. -/
def dropMultiplicity? (s : Text) : Option Text :=
  match stripLeft s with
  | '"' :: r => (cutAt? '"' r).map fun (_, r) => stripLeft r
  | r => some r

/-- The target of a relation and its label after a colon, if that is all there is. -/
def readTarget? (s : Text) : Option (Text × Text) := do
  let r ← dropMultiplicity? s
  let id := r.takeWhile isIdentChar
  if id = [] then none
  else
    match r.dropWhile isIdentChar with
    | [] => some (id, [])
    | r =>
      match stripLeft r with
      | ':' :: label => some (id, strip label)
      | _ => none

/-- A relation: two identifiers, perhaps with multiplicities, around an arrow. -/
def readRelation? (s : Text) : Option Statement := do
  let source := s.takeWhile isIdentChar
  let r ← dropMultiplicity? (s.dropWhile isIdentChar)
  if source = [] then none
  else
    let (target, label) ← relations.findSome? fun arrow => (afterPrefix? arrow r).bind readTarget?
    return .relate source target label

/-- A member: an identifier, a colon and some text. -/
def isMember (s : Text) : Bool :=
  s.takeWhile isIdentChar ≠ [] &&
    match stripLeft (s.dropWhile isIdentChar) with
    | ':' :: r => r ≠ []
    | _ => false

def isSkipped (s : Text) : Bool :=
  isMember s || "direction ".toList.isPrefixOf s || "note ".toList.isPrefixOf s

/-- Reads a line outside a body. -/
def readStatement? (s : Text) : Option Statement :=
  ((readDeclaration? s).or (readRelation? s)).or (if isSkipped s then some .skip else none)

/-- What has been read so far, and whether a body is open. -/
structure State where
  draft : Draft := {}
  inBody : Bool := false
  deriving DecidableEq, Repr

/-- Takes a statement in. An empty label does not count. -/
def State.add (st : State) : Statement → State
  | .declare id label opensBody =>
    let draft := st.draft.touch id []
    let draft :=
      match label with
      | none => draft
      | some l =>
        draft.update id fun n => { n with label := if strip l = [] then n.id else strip l }
    { draft, inBody := opensBody }
  | .relate source target label =>
    { st with draft := ((st.draft.touch source []).touch target []).addEdge source target label }
  | .skip => st

def State.addLine (st : State) (number : Nat) (line : Text) : Except Rejection State :=
  if st.inBody then .ok { st with inBody := line ≠ ['}'] }
  else
    match readStatement? line with
    | some c => .ok (st.add c)
    | none => .error (.badLine number line)

def read (ls : List Text) : Except Rejection Draft := do
  let st ← (numberLines ls).foldlM (fun st (number, line) => State.addLine st number line) {}
  return st.draft

end Drawbridge.ClassReader
