import Drawbridge.Json.Display
import Drawbridge.Json.Reader
import Drawbridge.Stream.Buffer

/-!
Messages of a stream. A message is a piece of the answer, the whole answer, an error report, or
nothing of interest; one whose JSON cannot be read is refused.
-/

namespace Drawbridge

inductive Event where
  | delta (text : Text)
  | final (text : Text)
  | error (message : Text)
  | ignored
  deriving DecidableEq, Repr

namespace Event

def isTerminal : Event → Bool
  | final _ | error _ => true
  | delta _ | ignored => false

def text : Event → Text
  | delta t | final t | error t => t
  | ignored => []

def defaultError : Text := "The AI service reported an error".toList

/-- A non-empty piece of text; anything else is of no interest. -/
def ofPiece : Json → Event
  | .str [] => ignored
  | .str t => delta t
  | _ => ignored

/-- The event of an object of the JSON stream. -/
def ofObject (payload : Json) : Event :=
  let report := payload.fieldOrNull "error".toList
  let done : Bool :=
    match payload.fieldOrNull "done".toList with
    | .bool true => true
    | _ => false
  if report.isTruthy then error report.display
  else if done then
    match payload.fieldOrNull "mermaidCode".toList with
    | .str code => final code
    | _ => ignored
  else ofPiece (payload.fieldOrNull "chunk".toList)

def ofPayload (payload : Json) : Event :=
  let kind := payload.fieldOrNull "type".toList
  if kind.isText "chunk".toList then ofPiece (payload.fieldOrNull "data".toList)
  else if kind.isText "final".toList && (payload.fieldOrNull "ok".toList).isTruthy then
    final (((payload.fieldOrNull "data".toList).text?).getD [])
  else if kind.isText "error".toList then
    let message := payload.fieldOrNull "message".toList
    error (if message.isTruthy then message.display else defaultError)
  else ignored

/-- Reads a text as JSON, keeping the text if that is not possible. -/
def readJson (s : Text) : Except Text Json :=
  match Json.parse s with
  | some j => .ok j
  | none => .error s

/-- Decodes a message; the error is the text that could not be read. -/
def decode (format : WireFormat) (message : Text) : Except Text Event :=
  match format with
  | .json => (readJson message).map ofObject
  | .sse =>
    let data := frameData message
    if data = [] || data = "[DONE]".toList then .ok ignored else (readJson data).map ofPayload

end Event

end Drawbridge
