import Drawbridge.Failure
import Drawbridge.Stream.Consumer

/-!
Requests and the answers to them, as values. A `Transport` says what comes of each request; a
`Trace` is what a call did with it.
-/

namespace Drawbridge

structure Request where
  url : Text
  headers : Dictionary Text
  body : Json
  /-- Whether the answer is read piece by piece. -/
  streamed : Bool

/-- An answer. Lines or chunks arrive one after the other, and the transport may fail after them. -/
structure Response where
  status : Int := 200
  /-- Whether the transport takes the status for a success. -/
  ok : Bool
  text : Text := []
  /-- What it comes to to read the body as JSON. The body may be no JSON, and it may break off. -/
  json : Except Failure Json
  lines : List Text := []
  chunks : List Chunk := []
  failure : Option Failure := none

/-- What comes of a request. -/
abbrev Transport := Request → Except Failure Response

/-- What a call came to and what it did: requests sent, pieces received, answer closed or not. -/
structure Trace (α : Type) where
  result : Except Failure α
  sent : List Request := []
  deltas : List Json := []
  closed : Bool := false
  /-- Whether the answer was declared to be UTF-8. -/
  declaredUtf8 : Bool := false

/-- Consumes the chunks of an answer after which the transport may fail. -/
def consumeBody (format : WireFormat) (r : Response) : List Text × Except Failure StreamResult :=
  let s := r.chunks.foldl Session.push (Session.start format)
  match s.result, r.failure with
  | none, some (.reported m) => (s.deltas, .ok { error := m })
  | none, some e => (s.deltas, .error e)
  | _, _ =>
    let s := s.finish
    (s.deltas, .ok s.outcome)

end Drawbridge
