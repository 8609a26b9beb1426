import Drawbridge.Text.Blank

/-!
Frames of a server-sent event stream. A frame ends with an empty line; its payload are the lines
that start with `data:`.
-/

namespace Drawbridge

/-- The length of a line end followed by an empty line, at the start of a text. -/
def emptyLineSize : Text → Nat
  | '\r' :: '\n' :: '\r' :: '\n' :: _ => 4
  | '\r' :: '\n' :: '\n' :: _ => 3
  | '\n' :: '\r' :: '\n' :: _ => 3
  | '\n' :: '\n' :: _ => 2
  | _ => 0

/-- The number of characters through the first empty line. -/
def frameLength? : Text → Option Nat
  | [] => none
  | c :: s =>
    match emptyLineSize (c :: s) with
    | 0 => (frameLength? s).map (· + 1)
    | n => some n

/-- The offset after the first frame that ends at `start` or later; before the text means at its
start. -/
def frameEnd? (s : Text) (start : Int) : Option Nat :=
  (frameLength? (s.drop start.toNat)).map (start.toNat + ·)

def dataMark : Text := "data:".toList

def hasData (frame : Text) : Bool :=
  (lines frame).any dataMark.isPrefixOf

/-- The payload of a frame: its payload lines without marks and outer blanks. -/
def frameData (frame : Text) : Text :=
  strip (joinLines ((lines frame).filterMap fun l => (afterPrefix? dataMark l).map strip))

end Drawbridge
