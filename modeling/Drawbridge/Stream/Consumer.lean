import Drawbridge.Markup.Fence
import Drawbridge.Stream.Event
import Drawbridge.Text.Utf8

/-!
Consuming a stream. A `Session` takes the chunks of one response as they arrive, as text or as
bytes, and collects the pieces of the answer; the first final or error event ends it. Messages that
cannot be read are skipped, and a stream that ends without such an event comes to nothing.
-/

namespace Drawbridge

inductive Chunk where
  | text (s : Text)
  | bytes (bs : List UInt8)
  deriving DecidableEq, Repr

/-- What a stream came to: the answer, or an error, or neither. -/
structure StreamResult where
  content : Text := []
  error : Text := []
  deriving DecidableEq, Repr

namespace StreamResult

def isOk (r : StreamResult) : Bool :=
  r.error.isEmpty

end StreamResult

structure Session where
  buffer : Buffer
  decoder : Utf8.Decoder
  deltas : List Text
  result : Option StreamResult
  deriving DecidableEq, Repr

namespace Session

def start (format : WireFormat) : Session :=
  ⟨.empty format, .ready, [], none⟩

/-- Takes an event in, unless the stream has ended. -/
def absorb (s : Session) (e : Event) : Session :=
  match s.result with
  | some _ => s
  | none =>
    match e with
    | .delta t => { s with deltas := s.deltas ++ [t] }
    | .final t => { s with result := some { content := unfence t } }
    | .error m => { s with result := some { error := m } }
    | .ignored => s

/-- Takes a message in; one that cannot be read is skipped. -/
def handle (s : Session) (message : Text) : Session :=
  match Event.decode s.buffer.format message with
  | .ok e => s.absorb e
  | .error _ => s

/-- The text of a chunk. Bytes of an unfinished character wait for the next chunk of bytes. -/
def decodeChunk (s : Session) : Chunk → Text × Session
  | .text t => (t, s)
  | .bytes bs =>
    let (d, t) := s.decoder.feed bs
    (t, { s with decoder := d })

/-- Takes a chunk in, unless the stream has ended. -/
def push (s : Session) (chunk : Chunk) : Session :=
  match s.result with
  | some _ => s
  | none =>
    let (t, s) := s.decodeChunk chunk
    let (messages, b) := (s.buffer.feed t).drain
    if t = [] then s else messages.foldl handle { s with buffer := b }

/-- The response has ended: a last event may stand there without its empty line. -/
def finish (s : Session) : Session :=
  match s.result with
  | some _ => s
  | none =>
    match (s.buffer.feed s.decoder.finish).flush with
    | (some tail, b) =>
      let s := { s with buffer := b }
      if b.format = .sse then s.handle tail else s
    | (none, b) => { s with buffer := b }

/-- The result of a session: nothing at all if no terminal event came. -/
def outcome (s : Session) : StreamResult :=
  s.result.getD {}

end Session

/-- The pieces of an answer and what the stream came to, for the chunks of a whole response. -/
def consume (format : WireFormat) (chunks : List Chunk) : List Text × StreamResult :=
  let s := (chunks.foldl Session.push (Session.start format)).finish
  (s.deltas, s.outcome)

end Drawbridge
