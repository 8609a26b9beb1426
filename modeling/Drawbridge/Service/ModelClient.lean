import Drawbridge.Service.Credentials
import Drawbridge.Service.Http
import Drawbridge.Service.Prompt

/-!
The client of a chat model. `generate` asks for a whole answer and `stream` for its pieces, which
arrive as lines of a server-sent event stream; lines that carry no piece are passed over.
-/

namespace Drawbridge

structure ModelClient where
  url : Text
  model : Text
  apiKey : Text := []
  temperature : Json := .float 0.2

/-- The address for completions under a base address, with a version unless it names one. -/
def completionsUrl (base : Text) : Text :=
  let base := dropRightWhile (· = '/') base
  let versioned := occursIn "v1".toList base || occursIn "v3".toList base
  base ++ (if versioned then [] else "/v1".toList) ++ "/chat/completions".toList

/-- An item of a list or a character of a text, by its place. -/
def itemAt (i : Nat) : Json → Except Failure Json
  | .arr xs =>
    match xs[i]? with
    | some x => .ok x
    | none => .error (.general .index [])
  | .str s =>
    match s[i]? with
    | some c => .ok (.str [c])
    | none => .error (.general .index [])
  | .obj _ => .error (.general .key [.int i])
  | _ => .error (.fault .wrongKind)

def fieldAt (key : Text) : Json → Except Failure Json
  | .obj fs =>
    match Dictionary.get? fs key with
    | some x => .ok x
    | none => .error (.general .key [.str key])
  | _ => .error (.fault .wrongKind)

/-- The content of a line's first choice, none if the line is not of that form. -/
def deltaContent? (j : Json) : Option Json := do
  let choice ← ((fieldAt "choices".toList j).bind (itemAt 0)).toOption
  let delta := (choice.field? "delta".toList).getD (.obj [])
  if choice.isObject && delta.isObject then some (delta.fieldOrNull "content".toList) else none

/-- The piece that a line of the stream carries; the empty text stands for none. -/
def parseStreamLine (line : Text) : Json :=
  match afterPrefix? dataMark line with
  | none => .str []
  | some r =>
    let data := strip r
    if data = [] || data = "[DONE]".toList then .str []
    else (((Json.parse data).bind deltaContent?).getD .null).orElse (.str [])

namespace ModelClient

def ofCredentials (c : Credentials) (temperature : Json) : ModelClient :=
  { url := completionsUrl c.apiUrl, model := c.modelName, apiKey := c.apiKey, temperature }

def request (c : ModelClient) (messages : Json) (streamed : Bool) : Request :=
  { url := c.url
    headers := ("Content-Type".toList, "application/json".toList) ::
      (if c.apiKey = [] then [] else [("Authorization".toList, "Bearer ".toList ++ c.apiKey)])
    body := .obj [("model".toList, .str c.model), ("messages".toList, messages),
      ("temperature".toList, c.temperature), ("stream".toList, .bool streamed)]
    streamed }

/-- Asks for a whole answer. -/
def generate (c : ModelClient) (send : Transport) (messages : Json) : Trace Json :=
  let request := c.request messages false
  match send request with
  | .error e => { result := .error e, sent := [request] }
  | .ok r =>
    if r.ok then
      let content := do
        let choice ← itemAt 0 (← fieldAt "choices".toList (← r.json))
        fieldAt "content".toList (← fieldAt "message".toList choice)
      { result := content, sent := [request] }
    else { result := .error (.badStatus r.status r.text), sent := [request], closed := true }

def pieces (lines : List Text) : List Json :=
  (lines.map parseStreamLine).filter Json.isTruthy

/-- Asks for an answer in pieces. -/
def stream (c : ModelClient) (send : Transport) (messages : Json) : Trace Unit :=
  let request := c.request messages true
  match send request with
  | .error e => { result := .error e, sent := [request] }
  | .ok r =>
    if r.ok then
      { result := match r.failure with
          | some e => .error e
          | none => .ok ()
        sent := [request], deltas := pieces r.lines, closed := true, declaredUtf8 := true }
    else { result := .error (.badStatus r.status r.text), sent := [request], closed := true }

end ModelClient

end Drawbridge
