import Drawbridge.Stream.Cursor
import Drawbridge.Stream.Frame

/-!
The buffer of one stream. Chunks are fed in as they arrive; `next` takes the first complete message
out, `take` a limited number and `drain` all of them. What is not complete stays, together with the
progress of the search through it, and `flush` returns it at the end of the stream.
-/

namespace Drawbridge

/-- How messages are delimited: JSON objects back to back, or server-sent events. -/
inductive WireFormat where
  | json
  | sse
  deriving DecidableEq, Repr

/-- What has arrived and not been taken, and how far it has been searched. -/
structure Buffer where
  format : WireFormat
  pending : Text
  seen : Nat
  cursor : Cursor
  searchFrom : Nat
  deriving DecidableEq, Repr

namespace Buffer

def empty (format : WireFormat) : Buffer :=
  ⟨format, [], 0, .startingAt 0, 0⟩

def feed (b : Buffer) (chunk : Text) : Buffer :=
  { b with pending := b.pending ++ chunk }

/-- An empty line may have been cut: so many characters of it can stand at the end already. -/
def overlap : Nat := 3

def nextObject (b : Buffer) : Option Text × Buffer :=
  match b.cursor.advance b.pending with
  | (none, cur) => (none, { b with cursor := cur })
  | (some stop, cur) =>
    (some ((b.pending.take stop).drop cur.start.toNat),
      { b with pending := b.pending.drop stop, seen := b.seen + 1, cursor := .startingAt 0 })

/--
Takes the first complete frame with a payload out; complete frames before it carry none and are
dropped. The first argument bounds the number of frames.
-/
def nextFrame : Nat → Buffer → Option Text × Buffer
  | 0, b => (none, b)
  | fuel + 1, b =>
    match frameEnd? b.pending b.searchFrom with
    | none => (none, { b with searchFrom := b.pending.length - overlap })
    | some stop =>
      let frame := b.pending.take stop
      let b := { b with pending := b.pending.drop stop, searchFrom := 0 }
      if hasData frame then (some frame, { b with seen := b.seen + 1 }) else nextFrame fuel b

def next (b : Buffer) : Option Text × Buffer :=
  match b.format with
  | .json => b.nextObject
  | .sse => nextFrame (b.pending.length + 1) b

def take : Nat → Buffer → List Text × Buffer
  | 0, b => ([], b)
  | n + 1, b =>
    match b.next with
    | (none, b) => ([], b)
    | (some m, b) =>
      let (ms, b) := b.take n
      (m :: ms, b)

def drain (b : Buffer) : List Text × Buffer :=
  b.take (b.pending.length + 1)

/-- Empties the buffer at the end of the stream and returns the rest, if it can hold a message. -/
def flush (b : Buffer) : Option Text × Buffer :=
  let tail := b.pending
  let b := { empty b.format with seen := b.seen }
  if strip tail = [] then (none, b)
  else if b.format = .sse && !hasData tail then (none, b)
  else (some tail, b)

end Buffer

end Drawbridge
