import Drawbridge.Graph.Basic

/-!
What has been read of a diagram: nodes in the order of first mention, edges, style definitions and
titled subgraphs. `Rejection` says why a text is no diagram that can be read.
-/

namespace Drawbridge

/-- Why a text was rejected. -/
inductive Rejection where
  | empty
  | unsupported (keyword line : Text)
  | badLine (number : Nat) (line : Text)
  | unexpectedEnd (number : Nat) (line : Text)
  | missingEnd (subgraph : Text)
  /-- A rejection in the words of another renderer. -/
  | other (message code : Text)
  deriving DecidableEq, Repr

namespace Rejection

def message : Rejection → Text
  | empty => "Diagram text is empty".toList
  | unsupported keyword _ => "Unsupported diagram type: ".toList ++ keyword
  | badLine n line => "Parse error on line ".toList ++ decimal n ++ ": ".toList ++ line
  | unexpectedEnd n _ =>
    "Parse error on line ".toList ++ decimal n ++ ": unexpected 'end'".toList
  | missingEnd s => "Parse error: subgraph '".toList ++ s ++ "' is missing 'end'".toList
  | other m _ => m

/-- The piece of text that was rejected, empty if it is not a matter of one piece. -/
def code : Rejection → Text
  | empty | missingEnd _ => []
  | unsupported _ line | badLine _ line | unexpectedEnd _ line => line
  | other _ c => c

end Rejection

/-- A node as it has been read so far. -/
structure DraftNode where
  id : Text
  label : Text
  shape : Shape := .box
  styleClass : Text := []
  /-- The subgraphs around the first mention, outermost first. -/
  groups : List Text := []
  deriving DecidableEq, Repr

/-- A diagram as it has been read so far. -/
structure Draft where
  nodes : List DraftNode := []
  edges : List Edge := []
  classDefs : Dictionary (Dictionary Text) := []
  /-- Subgraphs with their titles. -/
  titles : Dictionary Text := []
  deriving DecidableEq, Repr

namespace Draft

def update (d : Draft) (id : Text) (f : DraftNode → DraftNode) : Draft :=
  { d with nodes := d.nodes.map fun n => if n.id = id then f n else n }

/--
Mentions a node inside some subgraphs, outermost first. A new node shows its name; a node belongs to
the subgraphs around its first mention inside any.
-/
def touch (d : Draft) (id : Text) (groups : List Text) : Draft :=
  if d.nodes.any fun n => n.id = id then
    d.update id fun n => if n.groups = [] then { n with groups } else n
  else { d with nodes := d.nodes ++ [{ id, label := id, groups }] }

def addEdge (d : Draft) (source target label : Text) : Draft :=
  { d with edges := d.edges ++ [{ source, target, label }] }

end Draft

/-- Numbers the lines after a header: the first of them is line 2. -/
def numberLines (ls : List Text) : List (Nat × Text) :=
  ls.mapIdx fun i l => (i + 2, l)

end Drawbridge
