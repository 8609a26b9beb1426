import Drawbridge.Diagram.Draft
import Drawbridge.Text.Blank
import Drawbridge.Text.Upper

/-!
Reading a sequence diagram line by line: participants, messages, and lines that are passed over
because they start with a word of the language such as `loop` or `note`.
-/

namespace Drawbridge.SequenceReader

inductive Statement where
  | participant (id : Text) (label : Option Text)
  | message (source target label : Text)
  | skip
  deriving DecidableEq, Repr

/-- The arrows of messages, in the order in which they are tried. -/
def arrows : List Text :=
  ["-->>".toList, "->>".toList, "-->".toList, "->".toList, "--x".toList, "-x".toList, "--)".toList,
    "-)".toList]

/-- The words whose lines are passed over. -/
def keywords : List Text :=
  ["note".toList, "loop".toList, "alt".toList, "else".toList, "opt".toList, "par".toList,
    "and".toList, "rect".toList, "critical".toList, "break".toList, "end".toList,
    "activate".toList, "deactivate".toList, "autonumber".toList, "title".toList, "box".toList]

def afterBlanks? (s : Text) : Option Text :=
  if s.takeWhile isBlank = [] then none else some (stripLeft s)

/-- A participant: a name without blanks, and perhaps a label after `as`. -/
def readParticipant? (s : Text) : Option Statement := do
  let r ← (afterPrefix? "participant".toList s).or (afterPrefix? "actor".toList s)
  let r ← afterBlanks? r
  let id := r.takeWhile fun c => !isBlank c
  if id = [] then none
  else
    match r.dropWhile fun c => !isBlank c with
    | [] => some (.participant id none)
    | r =>
      let r ← afterBlanks? r
      let r ← afterPrefix? "as".toList r
      let label ← afterBlanks? r
      if label = [] then none else some (.participant id (some label))

/-- The target of a message and its text after a colon. -/
def readTarget? (s : Text) : Option (Text × Text) :=
  let isPart := fun c => !isBlank c && c ≠ ':'
  let id := s.takeWhile isPart
  if id = [] then none
  else
    match stripLeft (s.dropWhile isPart) with
    | ':' :: label => some (id, strip label)
    | _ => none

/-- The target of a message, which may have an activation mark in front. -/
def readMarkedTarget? (s : Text) : Option (Text × Text) :=
  match stripLeft s with
  | c :: r => (if c = '+' || c = '-' then readTarget? r else none).or (readTarget? (c :: r))
  | [] => none

/-- A message: a sender, an arrow, a receiver, and a text after a colon. -/
def readMessage? (s : Text) : Option Statement :=
  let isPart := fun c => !isBlank c && c ≠ ':' && c ≠ '>' && c ≠ '-'
  let source := s.takeWhile isPart
  let r := stripLeft (s.dropWhile isPart)
  if source = [] then none
  else
    (arrows.findSome? fun a => (afterPrefix? a r).bind readMarkedTarget?).map fun (target, label) =>
      .message source target label

def isSkipped (s : Text) : Bool :=
  match words s with
  | w :: _ => keywords.contains (lowerKeyword w)
  | [] => false

def readStatement? (s : Text) : Option Statement :=
  ((readParticipant? s).or (readMessage? s)).or (if isSkipped s then some .skip else none)

def addStatement (d : Draft) : Statement → Draft
  | .participant id label =>
    let d := d.touch id []
    match label with
    | some l => d.update id fun n => { n with label := strip l }
    | none => d
  | .message source target label =>
    ((d.touch source []).touch target []).addEdge source target label
  | .skip => d

def addLine (d : Draft) (number : Nat) (line : Text) : Except Rejection Draft :=
  match readStatement? line with
  | some c => .ok (addStatement d c)
  | none => .error (.badLine number line)

def read (ls : List Text) : Except Rejection Draft :=
  (numberLines ls).foldlM (fun d (number, line) => addLine d number line) {}

end Drawbridge.SequenceReader
