import Drawbridge.Text.Basic

/-!
Finding the end of a JSON object by its braces. A `Cursor` remembers how far a growing text has
been examined, so that every character is looked at once however the text arrives. Braces inside
strings do not count, nor does a character after a backslash inside a string.
-/

namespace Drawbridge

/-- Where a scan stands: how deep in braces, inside a string or not, after a backslash or not. -/
structure Nesting where
  depth : Int
  quoted : Bool
  escaped : Bool
  deriving DecidableEq, Repr

namespace Nesting

/-- The state before any character. -/
def outside : Nesting := ⟨0, false, false⟩

def step (σ : Nesting) (c : Char) : Nesting :=
  if σ.escaped then { σ with escaped := false }
  else if c = '\\' && σ.quoted then { σ with escaped := true }
  else if c = '"' then { σ with quoted := !σ.quoted }
  else if σ.quoted then σ
  else if c = '{' then { σ with depth := σ.depth + 1 }
  else if c = '}' then { σ with depth := σ.depth - 1 }
  else σ

/-- Whether a character closes the object that the scan is in. -/
def closes (σ : Nesting) (c : Char) : Bool :=
  !σ.escaped && !σ.quoted && c = '}' && σ.depth = 1

/-- Scans a text: the number of characters through the closing brace, if there is one, and the
state afterwards. -/
def scan (σ : Nesting) : Text → Option Nat × Nesting
  | [] => (none, σ)
  | c :: s =>
    if σ.closes c then (some 1, outside)
    else
      let (n, τ) := (σ.step c).scan s
      (n.map (· + 1), τ)

end Nesting

/--
Progress of the search for one object: the next offset to examine, the offset of the opening brace
(negative until it is found), and the state of the scan.
-/
structure Cursor where
  pos : Int
  start : Int
  nesting : Nesting
  deriving DecidableEq, Repr

namespace Cursor

def startingAt (pos : Int) : Cursor := ⟨pos, -1, .outside⟩

def findBrace? : Text → Option Nat
  | [] => none
  | c :: s => if c = '{' then some 0 else (findBrace? s).map (· + 1)

/-- The offset that a search position stands for: a negative one counts from the end. -/
def clamp (length : Nat) (pos : Int) : Nat :=
  if 0 ≤ pos then pos.toNat else (pos + length).toNat

/-- The cursor inside an object: as it is, or after the first opening brace of the text from the
cursor on, if there is one. -/
def enter? (cur : Cursor) (s : Text) : Option Cursor :=
  if 0 ≤ cur.start then some cur
  else
    let offset := clamp s.length cur.pos
    (findBrace? (s.drop offset)).map fun i : Nat =>
      ⟨(offset + i + 1 : Nat), (offset + i : Nat), { cur.nesting with depth := 1 }⟩

/--
Examines a text, of which the part before the cursor has been examined already. Gives the offset
after the closing brace, or none if the object is not complete yet.
-/
def advance (cur : Cursor) (s : Text) : Option Nat × Cursor :=
  match cur.enter? s with
  | none => (none, { cur with pos := max cur.pos s.length })
  | some cur =>
    match cur.nesting.scan (s.drop cur.pos.toNat) with
    | (some n, σ) => (some (cur.pos.toNat + n), { cur with pos := cur.pos + n, nesting := σ })
    | (none, σ) => (none, { cur with pos := max cur.pos s.length, nesting := σ })

/-- The cursor after characters have been cut off at the front of the text. -/
def shift (cur : Cursor) (offset : Int) : Cursor :=
  { cur with
    pos := max 0 (cur.pos - offset)
    start := if 0 ≤ cur.start then cur.start - offset else cur.start }

end Cursor

/-- The offset after the first complete JSON object that begins at `start` or later. -/
def objectEnd? (s : Text) (start : Int) : Option Nat :=
  if s.length ≤ start then none else ((Cursor.startingAt start).advance s).1

end Drawbridge
