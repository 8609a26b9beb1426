import Drawbridge.Diagram.Draft
import Drawbridge.Diagram.Label
import Drawbridge.Text.WordChar

/-!
Node tokens of a flowchart: an identifier, perhaps a shape in brackets around a label, and perhaps a
style class after three colons. A label that starts with a quote may hold the closing bracket
up to the next quote; otherwise the label ends at the first closing bracket.
-/

namespace Drawbridge

structure NodeToken where
  id : Text
  body : Option (Shape × Text)
  styleClass : Option Text
  deriving DecidableEq, Repr

namespace NodeToken

def takeQuoted? : Text → Option (Text × Text)
  | '"' :: s => (cutAt? '"' s).map fun (a, b) => ('"' :: (a ++ ['"']), b)
  | _ => none

/--
The ways to read a label up to a closing bracket: as a quoted label, and as plain text without the
last character of the bracket. Each gives the label and what follows the bracket.
-/
def labelsBefore (closing : Char) (bracket : Text) (s : Text) : List (Text × Text) :=
  let plain := (s.takeWhile (· ≠ closing), s.dropWhile (· ≠ closing))
  ((takeQuoted? s).toList ++ [plain]).filterMap fun (label, r) =>
    (afterPrefix? bracket r).map fun r => (label, r)

/-- The ways to read a shape at the start of a text, in order of preference, with what follows. -/
def shapesAt (s : Text) : List ((Shape × Text) × Text) :=
  let read (shape : Shape) (opening : Text) (closing : Char) (bracket : Text) :=
    match afterPrefix? opening s with
    | some r => (labelsBefore closing bracket r).map fun (label, r) => ((shape, label), r)
    | none => []
  read .ellipse ['(', '('] ')' [')', ')'] ++ read .box ['['] ']' [']'] ++
    read .diamond ['{'] '}' ['}'] ++ read .box ['('] ')' [')']

/-- The style class after a shape: nothing, or three colons and a name. -/
def styleAfter? : Text → Option (Option Text)
  | [] => some none
  | ':' :: ':' :: ':' :: name =>
    if name ≠ [] && name.all isIdentChar then some (some name) else none
  | _ => none

/-- Reads a node token. The label is given without its quotes. -/
def read? (s : Text) : Option NodeToken :=
  let id := s.takeWhile isIdentChar
  let r := s.dropWhile isIdentChar
  if id = [] then none
  else
    let shaped := (shapesAt r).findSome? fun (body, r) =>
      (styleAfter? r).map fun style => { id, body := some body, styleClass := style : NodeToken }
    (shaped.or ((styleAfter? r).map fun style => ⟨id, none, style⟩)).map fun t =>
      { t with body := t.body.map fun (shape, label) => (shape, unquote label) }

end NodeToken

namespace Draft

/-- Enters a node token: the node takes its shape, label and style class, if it gives them. -/
def addToken (d : Draft) (t : NodeToken) (groups : List Text) : Draft :=
  (d.touch t.id groups).update t.id fun n =>
    let n :=
      match t.body with
      | some (shape, label) => { n with shape, label }
      | none => n
    match t.styleClass with
    | some c => { n with styleClass := c }
    | none => n

end Draft

end Drawbridge
