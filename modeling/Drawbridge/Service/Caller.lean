import Drawbridge.Markup.Tidy
import Drawbridge.Service.Http
import Drawbridge.Service.Settings

/-!
The caller's side of the service. Each call checks its input, sends at most one request and turns
what comes of it into a result; failures of the transport and errors of the service end up in the
result as a short message.
-/

namespace Drawbridge

/-- A value, or what went wrong. -/
structure CallResult (α : Type) where
  value : α
  error : Option Text := none
  deriving DecidableEq, Repr

/-- A caller of the service, with what it sends along. -/
structure Caller where
  baseUrl : Text := "http://localhost:8000".toList
  aiConfig : Json := .null
  accessPassword : Json := .null
  selectedModel : Json := .null

namespace Caller

/-- What is shown when the transport failed without words. -/
def communicationError : Text := "Error communicating with the AI service".toList

def failed (message : Text) : CallResult Text := ⟨[], some message⟩

/-- A request to an endpoint; what the caller sends along comes after the fields of the call. -/
def request (c : Caller) (path : String) (fields : List (Text × Json)) (streamed : Bool)
    (accept : Text := []) : Request :=
  { url := dropRightWhile (· = '/') c.baseUrl ++ path.toList
    headers := ("Content-Type".toList, "application/json".toList) ::
      (if accept = [] then [] else [("Accept".toList, accept)])
    body := .obj (fields ++ [("aiConfig".toList, c.aiConfig),
      ("accessPassword".toList, c.accessPassword), ("selectedModel".toList, c.selectedModel)])
    streamed }

def reportedError? (j : Json) : Option Text :=
  let e := j.fieldOrNull "error".toList
  if e.isTruthy then some e.display else none

/-- The message of an answer with an error status. Its body is read now, and that may fail. -/
def errorMessage (r : Response) (default : Text) : Except Failure Text :=
  match r.json with
  | .ok j => .ok ((reportedError? j).getD default)
  | .error e => if e.isValue then .ok default else .error e

def ofStream (r : StreamResult) : CallResult Text :=
  if r.error = [] then ⟨r.content, none⟩ else failed r.error

/-- Sends a request whose answer is a stream of messages. -/
def callStream (send : Transport) (request : Request) (format : WireFormat) (default : Text) :
    Trace (CallResult Text) :=
  let settle (r : Except Failure (CallResult Text)) : Except Failure (CallResult Text) :=
    match r with
    | .error e => if e.isTransport then .ok (failed (e.describe communicationError)) else .error e
    | ok => ok
  match send request with
  | .error e => { result := settle (.error e), sent := [request] }
  | .ok r =>
    if r.ok then
      let (deltas, result) := consumeBody format r
      { result := settle (result.map ofStream), sent := [request], deltas := deltas.map .str,
        closed := true }
    else
      { result := settle ((errorMessage r default).map failed), sent := [request], closed := true }

/-- A failure that a plain call turns into its error. -/
def isExpected (e : Failure) : Bool :=
  e.isTransport || e.isValue

/-- Sends a request whose answer is one JSON value. -/
def callPlain {α : Type} (send : Transport) (request : Request) (default : Text) (empty : α)
    (read : Json → Except Failure (CallResult α)) : Trace (CallResult α) :=
  let settle (e : Failure) : Except Failure (CallResult α) :=
    if isExpected e then .ok ⟨empty, some (e.describe communicationError)⟩ else .error e
  let result :=
    match send request with
    | .error e => settle e
    | .ok r =>
      if r.ok then
        match r.json with
        | .error e => settle e
        | .ok j => read j
      else
        match errorMessage r default with
        | .error e => settle e
        | .ok message => .ok ⟨empty, some message⟩
  { result, sent := [request] }

/-- The diagram text in an answer. -/
def readCode (j : Json) : Except Failure (CallResult Text) :=
  match reportedError? j with
  | some e => .ok (failed e)
  | none =>
    let code := j.fieldOrNull "mermaidCode".toList
    if code.isTruthy then
      match code with
      | .str s => .ok ⟨unfence s, none⟩
      | _ => .error (.fault .wrongKind)
    else .ok ⟨[], none⟩

/-- Asks for a diagram of a text, in pieces or as a whole. -/
def generate (c : Caller) (settings : Settings) (send : Transport) (text : Text)
    (diagramType : Json) (streamed : Bool) : Trace (CallResult Text) :=
  if text = [] then { result := .ok (failed "Please provide text content".toList) }
  else
    let cleaned := cleanText text
    if settings.maxChars < cleaned.length then
      { result := .ok (failed ("Text exceeds the ".toList ++ decimalInt settings.maxChars ++
          " character limit".toList)) }
    else
      let request := c.request "/api/generate-mermaid"
        [("text".toList, .str cleaned), ("diagramType".toList, diagramType),
          ("stream".toList, .bool streamed)] streamed
      let default := "Error while generating the diagram".toList
      if streamed then callStream send request .json default
      else callPlain send request default [] readCode

def optimize (c : Caller) (send : Transport) (code : Text) (instruction : Json)
    (groups : Option (List Json)) : Trace (CallResult Text) :=
  if code = [] then
    { result := .ok (failed "Please provide the Mermaid code to optimize".toList) }
  else
    let fields := [("mermaidCode".toList, .str code), ("instruction".toList, instruction)] ++
      (match groups with
        | some gs => [("groupList".toList, Json.arr gs)]
        | none => [])
    let request := c.request "/api/optimize-mermaid" fields true "text/event-stream".toList
    callStream send request .sse "Error while optimizing the code".toList

def readSuggestions (j : Json) : CallResult (List Text) :=
  match j.fieldOrNull "suggestions".toList with
  | .arr xs => ⟨xs.map Json.display, none⟩
  | _ => ⟨[], none⟩

def suggest (c : Caller) (send : Transport) (code : Text) : Trace (CallResult (List Text)) :=
  if code = [] then { result := .ok ⟨[], some "Please provide Mermaid code".toList⟩ }
  else
    let request := c.request "/api/optimize-mermaid/suggestions"
      [("mermaidCode".toList, .str code)] false
    callPlain send request "Failed to fetch suggestions".toList [] fun j => .ok (readSuggestions j)

end Caller

end Drawbridge
