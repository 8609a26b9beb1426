import Drawbridge.Diagram.Writer
import Drawbridge.Markup.EmbeddedJson
import Drawbridge.Service.Body
import Drawbridge.Service.ModelClient

/-!
The handlers of the service. The endpoints for generation and optimization answer with a stream of
messages, one JSON object per line and server-sent events; either stream ends with exactly one
terminal message, whatever the model does. The other answers are plain JSON.
-/

namespace Drawbridge

/-- A model as the handlers see it: an answer in one piece or in several, or a failure. -/
structure Model where
  reply : Json := .str []
  deltas : List Json := []
  failure : Option Failure := none

def Model.generate (m : Model) : Except Failure Json :=
  match m.failure with
  | some e => .error e
  | none => .ok m.reply

inductive Answer where
  /-- The body of the request was not understood. -/
  | refused
  | plain (status : Int) (body : Json)
  | streamed (mediaType : Text) (parts : List Text)

/-- An answer, the clients created for it, and what the model was asked. -/
structure Handled where
  answer : Except Failure Answer
  clients : List (Credentials × Json) := []
  calls : List (List Message) := []

namespace Service

def streamHeaders : Dictionary Text :=
  [("Cache-Control".toList, "no-cache".toList), ("Connection".toList, "keep-alive".toList)]

def errorAnswer (message : Text) (status : Int) : Answer :=
  .plain status (.obj [("error".toList, .str message)])

def fieldAnswer (key : String) (value : Json) : Answer :=
  .plain 200 (.obj [(key.toList, value)])

def invalid : Handled := { answer := .ok .refused }

/-! ## Streams -/

def kindName : Json → Text
  | .null => "NoneType".toList
  | .bool _ => "bool".toList
  | .int _ => "int".toList
  | .float _ => "float".toList
  | .str _ => "str".toList
  | .arr _ => "list".toList
  | .obj _ => "dict".toList

/-- The pieces of an answer put together; the error words the first one that is no text. -/
def joinDeltas (i : Nat) : List Json → Except Text Text
  | [] => .ok []
  | .str s :: ds => (joinDeltas (i + 1) ds).map (s ++ ·)
  | d :: _ =>
    .error ("sequence item ".toList ++ decimal i ++ ": expected str instance, ".toList ++
      kindName d ++ " found".toList)

/-- How a stream ends: with the whole answer, or with an error that has been worded. -/
def ending (failureText : Text → Text) (m : Model) : Except Text Text :=
  match m.failure with
  | some (.badStatus status body) => .error (Failure.badStatusText status body)
  | some e => .error (failureText e.text)
  | none =>
    match joinDeltas 0 m.deltas with
    | .ok s => .ok (unfence s)
    | .error e => .error (failureText e)

def jsonLine (fields : List (Text × Json)) : Text :=
  (Json.obj fields).render ++ ['\n']

def generationParts (m : Model) : List Text :=
  m.deltas.map (fun d => jsonLine [("chunk".toList, d), ("done".toList, .bool false)]) ++
    [match ending ("Error while processing the request: ".toList ++ ·) m with
      | .ok code => jsonLine [("mermaidCode".toList, .str code), ("done".toList, .bool true)]
      | .error e => jsonLine [("error".toList, .str e), ("done".toList, .bool true)]]

def frame (fields : List (Text × Json)) : Text :=
  "data: ".toList ++ (Json.obj fields).render ++ "\n\n".toList

def optimizationParts (m : Model) : List Text :=
  m.deltas.map (fun d => frame [("type".toList, .str "chunk".toList), ("data".toList, d)]) ++
    [match ending ("Error while optimizing the code: ".toList ++ ·) m with
      | .ok code =>
        frame [("type".toList, .str "final".toList), ("ok".toList, .bool true),
          ("data".toList, .str code)]
      | .error e => frame [("type".toList, .str "error".toList), ("message".toList, .str e)]]

/-! ## Handlers -/

/-- Runs a handler with a client for the model that a request chooses. -/
def withClient (settings : Settings) (choice : ModelChoice) (temperature : Float)
    (next : Except Failure Answer) (messages : List Message) : Handled :=
  match Credentials.resolve settings choice.aiConfig choice.accessPassword choice.selectedModel with
  | .error (.misconfigured m status) => { answer := .ok (errorAnswer m status) }
  | .error e => { answer := .error e }
  | .ok c => { answer := next, clients := [(c, .float temperature)], calls := [messages] }

def unfenceReply (reply : Json) : Except Failure Text :=
  if reply.isTruthy then
    match reply with
    | .str s => .ok (unfence s)
    | _ => .error (.fault .wrongKind)
  else .ok []

def generationAnswer (m : Model) : Except Failure Answer :=
  match m.generate with
  | .error (.badStatus status body) => .ok (errorAnswer (Failure.badStatusText status body) 502)
  | .error e => .ok (errorAnswer ("Error while processing the request: ".toList ++ e.text) 500)
  | .ok reply => (unfenceReply reply).map fun code => fieldAnswer "mermaidCode" (.str code)

def generate (settings : Settings) (m : Model) (r : GenerateRequest) : Handled :=
  let text := cleanText r.text
  if r.text = [] then { answer := .ok (errorAnswer "Please provide text content".toList 400) }
  else if settings.maxChars < text.length then
    { answer := .ok (errorAnswer ("Text exceeds the ".toList ++ decimalInt settings.maxChars ++
        " character limit".toList) 400) }
  else
    withClient settings r.toModelChoice 0.2
      (if r.stream then .ok (.streamed "application/json".toList (generationParts m))
        else generationAnswer m)
      (Prompt.forGeneration text r.diagramType r.language)

def optimize (settings : Settings) (m : Model) (r : OptimizeRequest) : Handled :=
  if r.code = [] then
    { answer := .ok (errorAnswer "Please provide the Mermaid code to optimize".toList 400) }
  else
    withClient settings r.toModelChoice 0.2
      (.ok (.streamed "text/event-stream".toList (optimizationParts m)))
      (Prompt.forOptimization r.code r.instruction r.groups)

/-- The suggestions in a model's answer: trimmed, without empty ones. -/
def readSuggestions (reply : Json) : List Text :=
  let found :=
    match extractJsonFrom reply with
    | .obj fs => (Dictionary.get? fs "suggestions".toList).getD (.arr [])
    | j => j
  match found with
  | .arr xs => (xs.map fun x => strip x.display).filter (· ≠ [])
  | _ => []

def suggestionsAnswer (m : Model) : Answer :=
  match m.generate with
  | .error (.misconfigured message status) => errorAnswer message status
  | .error (.badStatus status body) => errorAnswer (Failure.badStatusText status body) 502
  | .error e => errorAnswer ("Failed to fetch suggestions: ".toList ++ e.text) 500
  | .ok reply => fieldAnswer "suggestions" (.arr ((readSuggestions reply).map .str))

def suggest (settings : Settings) (m : Model) (r : SuggestionsRequest) : Handled :=
  if r.code = [] then { answer := .ok (errorAnswer "Please provide Mermaid code".toList 400) }
  else
    withClient settings r.toModelChoice 0.3 (.ok (suggestionsAnswer m))
      (Prompt.forSuggestions r.code)

/-- Handles a request to convert a scene. A fault in a value is reported to the caller. -/
def convert (r : ConvertRequest) : Except Failure Answer :=
  let options : ConvertOptions :=
    { diagramType := .str r.diagramType, direction := .str r.direction,
      includeColors := r.includeColors, includeGroups := r.includeGroups,
      groupLabels := r.groupLabels }
  match (r.elements.mapM Element.ofJson).bind fun scene => convertScene scene options with
  | .ok code => .ok (fieldAnswer "mermaidCode" (.str code))
  | .error f =>
    match f.message? with
    | some m => .ok (errorAnswer m 400)
    | none => .error (.fault f)

/-- Handles a request to the endpoint with a path, none if there is no such endpoint. -/
def handle? (truths : TruthReader) (settings : Settings) (m : Model) (path : Text) (body : Json) :
    Option Handled :=
  if path = "/api/generate-mermaid".toList then
    some (((GenerateRequest.ofJson? truths body).map (generate settings m)).getD invalid)
  else if path = "/api/optimize-mermaid".toList then
    some (((OptimizeRequest.ofJson? body).map (optimize settings m)).getD invalid)
  else if path = "/api/optimize-mermaid/suggestions".toList then
    some (((SuggestionsRequest.ofJson? body).map (suggest settings m)).getD invalid)
  else if path = "/api/excalidraw-to-mermaid".toList then
    some (((ConvertRequest.ofJson? truths body).map fun r => { answer := convert r }).getD invalid)
  else none

end Service

end Drawbridge
