import Drawbridge.Text.Blank
import Drawbridge.Text.WordChar

/-!
Diagram headers. `detectType` names the kind of diagram that the first header line announces, and
`toggleDirection` turns a flowchart between vertical and horizontal.
-/

namespace Drawbridge

def headerWords : List Text :=
  ["flowchart".toList, "graph".toList, "classDiagram".toList, "sequenceDiagram".toList]

/-- The header word at the start of a text, after blanks. -/
def headerWord? (s : Text) : Option Text :=
  headerWords.find? fun w =>
    match afterPrefix? w (stripLeft s) with
    | some r => atWordEnd r
    | none => false

/-- The first header word at the start of a line; the flag tells whether a line starts here. -/
def findHeader? (lineStart : Bool) : Text → Option Text
  | [] => none
  | c :: s =>
    match if lineStart then headerWord? (c :: s) else none with
    | some w => some w
    | none => findHeader? (c = '\n') s

/-- The kind of diagram a text announces, empty if none; both flowchart words are one kind. -/
def detectType (s : Text) : Text :=
  match findHeader? true s with
  | some w => if w = "graph".toList then "flowchart".toList else w
  | none => []

/-- The rest of a text that starts with a word, whatever its case, and the word as it stands. -/
def afterWordAnyCase? : Text → Text → Option (Text × Text)
  | [], s => some ([], s)
  | _ :: _, [] => none
  | a :: w, c :: s =>
    if c.toLower = a.toLower then (afterWordAnyCase? w s).map fun (x, r) => (c :: x, r) else none

def directions : List Text :=
  ["TD".toList, "TB".toList, "LR".toList, "RL".toList, "BT".toList]

/-- The other of the two main directions: horizontal for a vertical one, vertical for the rest. -/
def flipDirection (d : Text) : Text :=
  if d = "TD".toList || d = "TB".toList then "LR".toList else "TD".toList

/-- A flowchart header line with its direction turned, none if the line is no such header. -/
def flipHeader? (line : Text) : Option Text := do
  let indent := line.takeWhile isBlank
  let (word, r) ← ["flowchart".toList, "graph".toList].findSome? fun w =>
    afterWordAnyCase? w (line.dropWhile isBlank)
  if r.takeWhile isBlank = [] then none
  else
    let (direction, tail) ← directions.findSome? fun d =>
      (afterWordAnyCase? d (r.dropWhile isBlank)).filter fun (_, t) => atWordEnd t
    return indent ++ word ++ ' ' :: (flipDirection (direction.map Char.toUpper) ++ tail)

/-- The lines with the first one that is not blank turned, none if that is no flowchart header. -/
def flipFirst? : List Text → Option (List Text)
  | [] => none
  | l :: ls =>
    if strip l = [] then (flipFirst? ls).map (l :: ·) else (flipHeader? l).map (· :: ls)

/-- Turns a flowchart between vertical and horizontal; any other text stays as it is. -/
def toggleDirection (s : Text) : Text :=
  match flipFirst? (lines s) with
  | some ls => joinLines ls
  | none => s

end Drawbridge
