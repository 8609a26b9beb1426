import Drawbridge.Text.Blank

/-!
Code fences. `unfence` takes the body of the first fenced block out of an answer, and
`prepareForRendering` drops fences and line-break tags, which a diagram cannot hold.
-/

namespace Drawbridge

def afterTicks? : Text → Option Text
  | '\x60' :: '\x60' :: '\x60' :: s => some s
  | _ => none

def beforeTicks? : Text → Option Text
  | [] => none
  | c :: s =>
    match afterTicks? (c :: s) with
    | some _ => some []
    | none => (beforeTicks? s).map (c :: ·)

/--
What follows an opening fence line: blanks, three backticks, an info text without backticks, and
the line feed.
-/
def afterOpening? (s : Text) : Option Text :=
  match afterTicks? (s.dropWhile fun c => c = ' ' || c = '\t') with
  | none => none
  | some r =>
    match r.dropWhile fun c => c ≠ '\n' && c ≠ '\x60' with
    | '\n' :: body => some body
    | _ => none

/-- What follows the first opening fence line; the flag tells whether a line starts here. -/
def findOpening? (lineStart : Bool) : Text → Option Text
  | [] => none
  | c :: s =>
    match if lineStart then afterOpening? (c :: s) else none with
    | some body => some body
    | none => findOpening? (c = '\n') s

/-- The body of the first fenced block, trimmed; a text without a complete fence as it is. -/
def unfence (s : Text) : Text :=
  match (findOpening? true s).bind beforeTicks? with
  | some body => strip body
  | none => s

/-- The characters of the name that may follow three backticks. -/
def isFenceName (c : Char) : Bool :=
  c.isAlphanum || c = '_' || c = '-'

/-- The length of three backticks and the name after them at the start of a text. -/
def fenceSize (s : Text) : Nat :=
  match afterTicks? s with
  | some r => 3 + (r.takeWhile isFenceName).length
  | none => 0

def breakTagSize : Text → Nat
  | '<' :: b :: r :: s =>
    if (b = 'b' || b = 'B') && (r = 'r' || r = 'R') then
      let gap := (s.takeWhile isBlank).length
      match s.dropWhile isBlank with
      | '>' :: _ => gap + 4
      | '/' :: '>' :: _ => gap + 5
      | _ => 0
    else 0
  | _ => 0

/-- The text without fences and line-break tags, trimmed. -/
def prepareForRendering (s : Text) : Text :=
  strip (erase breakTagSize (erase fenceSize s))

end Drawbridge
