import Drawbridge.Proofs.Service.Generation
import Drawbridge.Proofs.Text.Cutting
import Drawbridge.Service.Caller

/-!
A caller and the handlers put together. A transport hands the caller's requests to the handlers and
what they answer back to the caller, the bytes of a stream cut anywhere (`serve`). Which statuses
it takes for a success is known of the usual ones alone (`Receiver`). Asked for a diagram in pieces
or as a whole, the caller comes to the same result:

* `exists_errorMessage`: an answer with an error status is always told;
* `generate_settled`: a handler that refuses does so whether pieces are asked for or not;
* `callStream_refused`, `callPlain_refused`: a refusal comes to the error that it reports, on both
  ways;
* `callStream_answered`, `callPlain_answered`: an answer of the model comes to the code without its
  fence, and its failure to the same words;
* `generate_agrees`: so the two ways agree, whatever is asked.
-/

namespace Drawbridge

namespace Service

/-! ## A transport to the service -/

/-- What a transport makes of answers: which statuses it takes for a success, and how it fails to
read a body that is no JSON. -/
structure Receiver where
  ok : Int → Bool
  noJson : Failure
  ok_success : ∀ status, 200 ≤ status → status < 400 → ok status = true
  ok_error : ∀ status, 400 ≤ status → status < 600 → ok status = false
  noJson_isValue : noJson.isValue = true

def Receiver.receive (receiver : Receiver) (status : Int) (json : Except Failure Json) :
    Response :=
  { status, ok := receiver.ok status, json }

/-- What arrives of an answer. A fault of the handler arrives as a status without a report. -/
def deliver (receiver : Receiver) (cut : List UInt8 → List (List UInt8)) :
    Except Failure Answer → Response
  | .ok .refused => receiver.receive 422 (.ok (.obj [("detail".toList, .arr [])]))
  | .ok (.plain status body) => receiver.receive status (.ok body)
  | .ok (.streamed _ parts) =>
    { receiver.receive 200 (.error receiver.noJson) with
      chunks := (cut (Utf8.encode parts.flatten)).map .bytes }
  | .error _ => receiver.receive 500 (.error receiver.noJson)

/-- What the service at an address makes of a request, none if it is not there. -/
def handled? (truths : TruthReader) (settings : Settings) (m : Model) (site : Text)
    (request : Request) : Option Handled :=
  (afterPrefix? site request.url).bind fun path => handle? truths settings m path request.body

/-- A transport to the service at an address. It cuts the bytes of a stream into chunks. -/
def serve (truths : TruthReader) (settings : Settings) (m : Model) (site : Text)
    (receiver : Receiver) (cut : List UInt8 → List (List UInt8)) : Transport := fun request =>
  .ok <|
    match handled? truths settings m site request with
    | some h => deliver receiver cut h.answer
    | none =>
      deliver receiver cut
        (.ok (.plain 404 (.obj [("detail".toList, .str "Not Found".toList)])))

/-- A model that gives a reply in one piece or in several, or fails. -/
def replyModel (reply : Text) (ds : List Text) (failure : Option Failure) : Model :=
  { textModel ds failure with reply := .str reply }

/-! ## Requests -/

def generationRequest (c : Caller) (text : Text) (diagramType : Json) (streamed : Bool) : Request :=
  c.request "/api/generate-mermaid"
    [("text".toList, .str text), ("diagramType".toList, diagramType),
      ("stream".toList, .bool streamed)] streamed

/-- What the caller says if the service says nothing. -/
def generationDefault : Text := "Error while generating the diagram".toList

theorem generate_eq (c : Caller) {own : Settings} (send : Transport) {text : Text}
    (nonempty : text ≠ []) (short : ¬ own.maxChars < (cleanText text).length)
    (diagramType : Json) (streamed : Bool) :
    c.generate own send text diagramType streamed =
      if streamed then
        Caller.callStream send (generationRequest c (cleanText text) diagramType streamed) .json
          generationDefault
      else
        Caller.callPlain send (generationRequest c (cleanText text) diagramType streamed)
          generationDefault [] Caller.readCode := by
  rw [Caller.generate, if_neg nonempty]
  dsimp only
  rw [if_neg short]
  rfl

/-- How the handler reads the request. Only the last field says how the answer is wanted. -/
theorem ofJson?_generationRequest (truths : TruthReader) (c : Caller) (text : Text)
    (diagramType : Json) (streamed : Bool) :
    GenerateRequest.ofJson? truths (generationRequest c text diagramType streamed).body =
      (ModelChoice.ofJson? (generationRequest c text diagramType true).body).bind fun choice =>
        diagramType.text?.map fun kind =>
          { choice with text := text, diagramType := kind, stream := streamed } := by
  have choice : ModelChoice.ofJson? (generationRequest c text diagramType streamed).body =
      ModelChoice.ofJson? (generationRequest c text diagramType true).body := rfl
  have kind : Body.text (generationRequest c text diagramType streamed).body "diagramType"
      "diagram_type" "auto".toList = diagramType.text? := rfl
  have wanted : Body.truth truths (generationRequest c text diagramType streamed).body "stream"
      "stream" true = some streamed := truths.read_bool streamed
  rw [GenerateRequest.ofJson?, choice, kind, wanted]
  cases ModelChoice.ofJson? (generationRequest c text diagramType true).body <;>
    cases diagramType.text? <;> rfl

theorem handled?_generationRequest (truths : TruthReader) (settings : Settings) (m : Model)
    (c : Caller) (text : Text) (diagramType : Json) (streamed : Bool) :
    handled? truths settings m (dropRightWhile (· = '/') c.baseUrl)
        (generationRequest c text diagramType streamed) =
      some (((GenerateRequest.ofJson? truths
        (generationRequest c text diagramType streamed).body).map
          (generate settings m)).getD invalid) := by
  have path : (generationRequest c text diagramType streamed).url =
      dropRightWhile (· = '/') c.baseUrl ++ "/api/generate-mermaid".toList := rfl
  rw [handled?, path, afterPrefix?_append, Option.bind_some, handle?, if_pos rfl]

/-! ## Refusals -/

/-- An answer with an error status comes to a message, be its body JSON or not. -/
theorem exists_errorMessage (receiver : Receiver) (cut : List UInt8 → List (List UInt8))
    (answer : Except Failure Answer) (default : Text) :
    ∃ message, Caller.errorMessage (deliver receiver cut answer) default = .ok message := by
  match answer with
  | .ok .refused | .ok (.plain ..) => exact ⟨_, rfl⟩
  | .ok (.streamed ..) | .error _ => exact ⟨_, if_pos receiver.noJson_isValue⟩

/-- A client is missing because a password is wrong, a configuration is incomplete, or the
configuration is no configuration. -/
theorem resolve_error {settings : Settings} {requested : Json} {password model : Option Text}
    {e : Failure} (h : Credentials.resolve settings requested password model = .error e) :
    e = Credentials.wrongPassword ∨ e = Credentials.incomplete ∨ ∃ f, e = .fault f := by
  unfold Credentials.resolve at h
  cases own : Credentials.ofJson requested with
  | error f =>
    rw [own] at h
    cases h
    exact .inr (.inr ⟨f, rfl⟩)
  | ok c =>
    rw [own] at h
    dsimp only [Except.mapError, Except.bind, bind, pure, Except.pure] at h
    split at h
    · cases h
    · split at h
      · cases h
        exact .inl rfl
      · split at h
        · cases h
        · cases h
          exact .inr (.inl rfl)

theorem withClient_error {settings : Settings} {choice : ModelChoice} {e : Failure}
    (h : Credentials.resolve settings choice.aiConfig choice.accessPassword choice.selectedModel =
      .error e) (receiver : Receiver) (cut : List UInt8 → List (List UInt8)) :
    ∃ refusal, (deliver receiver cut refusal).ok = false ∧ ∀ temperature next messages,
      withClient settings choice temperature next messages = { answer := refusal } := by
  rcases resolve_error h with rfl | rfl | ⟨f, rfl⟩
  · refine ⟨.ok (errorAnswer "Invalid access password".toList 401),
      receiver.ok_error 401 (by decide) (by decide), fun _ _ _ => ?_⟩
    rw [withClient, h]
    rfl
  · refine ⟨.ok (errorAnswer
      "AI configuration is incomplete: set the API URL, API key and model name".toList 400),
      receiver.ok_error 400 (by decide) (by decide), fun _ _ _ => ?_⟩
    rw [withClient, h]
    rfl
  · refine ⟨.error (.fault f), receiver.ok_error 500 (by decide) (by decide), fun _ _ _ => ?_⟩
    rw [withClient, h]

/-- A handler that asks the model answers in the way that is wanted; one that does not refuses
whatever is wanted. -/
theorem generate_settled (settings : Settings) (m : Model) (r : GenerateRequest)
    (receiver : Receiver) (cut : List UInt8 → List (List UInt8)) :
    (∃ refusal, (deliver receiver cut refusal).ok = false ∧
      ∀ streamed, generate settings m { r with stream := streamed } = { answer := refusal }) ∨
    ∀ streamed, (generate settings m { r with stream := streamed }).answer =
      if streamed then .ok (.streamed "application/json".toList (generationParts m))
      else generationAnswer m := by
  by_cases empty : r.text = []
  · left
    refine ⟨.ok (errorAnswer "Please provide text content".toList 400),
      receiver.ok_error 400 (by decide) (by decide), fun streamed => ?_⟩
    simp only [generate, if_pos empty]
  · by_cases long : settings.maxChars < (cleanText r.text).length
    · left
      refine ⟨.ok (errorAnswer ("Text exceeds the ".toList ++ decimalInt settings.maxChars ++
        " character limit".toList) 400), receiver.ok_error 400 (by decide) (by decide),
        fun streamed => ?_⟩
      simp only [generate, if_neg empty, if_pos long]
    · have asks (streamed : Bool) : generate settings m { r with stream := streamed } =
          withClient settings r.toModelChoice 0.2
            (if streamed then .ok (.streamed "application/json".toList (generationParts m))
              else generationAnswer m)
            (Prompt.forGeneration (cleanText r.text) r.diagramType r.language) := by
        simp only [generate, if_neg empty, if_neg long]
      cases client : Credentials.resolve settings r.aiConfig r.accessPassword r.selectedModel with
      | error e =>
        left
        obtain ⟨refusal, status, same⟩ := withClient_error client receiver cut
        exact ⟨refusal, status, fun streamed => (asks streamed).trans (same ..)⟩
      | ok c =>
        right
        intro streamed
        rw [asks, withClient, client]

/-- The request is refused whatever is wanted, or answered in the way that is wanted. -/
theorem generationRequest_settled (truths : TruthReader) (settings : Settings) (m : Model)
    (c : Caller) (text : Text) (diagramType : Json) (receiver : Receiver)
    (cut : List UInt8 → List (List UInt8)) :
    ∃ h : Bool → Handled,
      (∀ streamed, handled? truths settings m (dropRightWhile (· = '/') c.baseUrl)
        (generationRequest c text diagramType streamed) = some (h streamed)) ∧
      ((∃ refusal, (deliver receiver cut refusal).ok = false ∧
          ∀ streamed, h streamed = { answer := refusal }) ∨
        ∀ streamed, (h streamed).answer =
          if streamed then .ok (.streamed "application/json".toList (generationParts m))
          else generationAnswer m) := by
  refine ⟨_, fun streamed =>
    handled?_generationRequest truths settings m c text diagramType streamed, ?_⟩
  have invalid_refused : (deliver receiver cut (.ok .refused)).ok = false :=
    receiver.ok_error 422 (by decide) (by decide)
  simp only [ofJson?_generationRequest]
  cases ModelChoice.ofJson? (generationRequest c text diagramType true).body with
  | none => exact .inl ⟨.ok .refused, invalid_refused, fun _ => rfl⟩
  | some choice =>
    cases diagramType.text? with
    | none => exact .inl ⟨.ok .refused, invalid_refused, fun _ => rfl⟩
    | some kind =>
      exact generate_settled settings m { choice with text := text, diagramType := kind } receiver
        cut

section Calls

variable {send : Transport} {request : Request} {r : Response} {default message : Text}

theorem callStream_refused (arrived : send request = .ok r) (refused : r.ok = false)
    (told : Caller.errorMessage r default = .ok message) (format : WireFormat) :
    (Caller.callStream send request format default).result = .ok (Caller.failed message) := by
  simp only [Caller.callStream, arrived, refused, told]
  rfl

theorem callStream_sent (send : Transport) (request : Request) (format : WireFormat)
    (default : Text) : (Caller.callStream send request format default).sent = [request] := by
  unfold Caller.callStream
  cases send request with
  | error e => rfl
  | ok r =>
    dsimp only
    split <;> rfl

theorem callPlain_refused (arrived : send request = .ok r) (refused : r.ok = false)
    (told : Caller.errorMessage r default = .ok message)
    (read : Json → Except Failure (CallResult Text)) :
    (Caller.callPlain send request default [] read).result = .ok (Caller.failed message) := by
  simp only [Caller.callPlain, arrived, refused, told]
  rfl

end Calls

/-! ## Answers -/

/-- What the caller is told when the model has been asked. -/
def answered (reply : Text) : Option Failure → CallResult Text
  | none => ⟨unfence reply, none⟩
  | some e => Caller.failed (failureText generationOpening e)

theorem consumeBody_unbroken (format : WireFormat) {r : Response} (unbroken : r.failure = none) :
    consumeBody format r =
      ((consume format r.chunks).1, .ok (consume format r.chunks).2) := by
  simp only [consumeBody, consume, unbroken]
  split
  · rename_i failed
    cases failed
  · rename_i failed
    cases failed
  · rfl

theorem consume_generationParts {ds : List Text} {failure : Option Failure}
    {bss : List (List UInt8)}
    (h : bss.flatten = Utf8.encode (generationParts (textModel ds failure)).flatten) :
    (consume .json (bss.map .bytes)).2 = delivered generationOpening ds failure := by
  have terminal := lastEvent_isTerminal generationOpening ds failure
  rw [consume_eq, Chunk.textOf_bytes, h, Utf8.decode_encode, readWhole, events_generationParts,
    resultOf?_pieceEvents_append ds terminal, lastEvent_result?]
  rfl

theorem ofStream_delivered {reply : Text} {ds : List Text} {failure : Option Failure}
    (whole : failure = none → ds.flatten = reply) :
    Caller.ofStream (delivered generationOpening ds failure) = answered reply failure := by
  cases failure with
  | none =>
    rw [delivered, whole rfl]
    rfl
  | some e =>
    have worded : failureText generationOpening e ≠ [] := failureText_ne_nil (by decide) e
    rw [delivered, Caller.ofStream, if_neg worded]
    rfl

/-- Asked for pieces, the model comes to its answer. -/
theorem callStream_answered {send : Transport} {request : Request} {default reply : Text}
    {ds : List Text} {failure : Option Failure} {receiver : Receiver}
    {cut : List UInt8 → List (List UInt8)}
    (kept : ∀ bs, (cut bs).flatten = bs) (whole : failure = none → ds.flatten = reply)
    (arrived : send request = .ok (deliver receiver cut (.ok (.streamed "application/json".toList
      (generationParts (replyModel reply ds failure)))))) :
    (Caller.callStream send request .json default).result = .ok (answered reply failure) := by
  have parts : generationParts (replyModel reply ds failure) =
      generationParts (textModel ds failure) := rfl
  have good : (deliver receiver cut (.ok (.streamed "application/json".toList
      (generationParts (replyModel reply ds failure))))).ok = true :=
    receiver.ok_success 200 (by decide) (by decide)
  simp only [Caller.callStream, arrived, good, if_true]
  rw [deliver, consumeBody_unbroken .json rfl, consume_generationParts (by rw [kept, parts])]
  exact congrArg Except.ok (ofStream_delivered whole)

/-- An error that is reported with a status of its own is what the caller is told. -/
theorem errorMessage_errorAnswer {message : Text} (h : message ≠ []) (status : Int)
    (receiver : Receiver) (cut : List UInt8 → List (List UInt8)) (default : Text) :
    Caller.errorMessage (deliver receiver cut (.ok (errorAnswer message status))) default =
      .ok message := by
  obtain ⟨c, message, rfl⟩ := List.exists_cons_of_ne_nil h
  rfl

theorem unfenceReply_text (reply : Text) : unfenceReply (.str reply) = .ok (unfence reply) := by
  cases reply <;> rfl

theorem readCode_field (code : Text) :
    Caller.readCode (.obj [("mermaidCode".toList, .str code)]) = .ok ⟨unfence code, none⟩ := by
  cases code <;> rfl

/-- Asked for the whole, the model comes to the same answer. -/
theorem callPlain_answered {send : Transport} {request : Request} {default reply : Text}
    {ds : List Text} {failure : Option Failure} {receiver : Receiver}
    {cut : List UInt8 → List (List UInt8)}
    (arrived : send request =
      .ok (deliver receiver cut (generationAnswer (replyModel reply ds failure)))) :
    (Caller.callPlain send request default [] Caller.readCode).result =
      .ok (answered reply failure) := by
  cases failure with
  | none =>
    have found : generationAnswer (replyModel reply ds none) =
        .ok (fieldAnswer "mermaidCode" (.str (unfence reply))) :=
      congrArg (Except.map fun code => fieldAnswer "mermaidCode" (.str code))
        (unfenceReply_text reply)
    rw [found] at arrived
    have good : (deliver receiver cut
        (.ok (fieldAnswer "mermaidCode" (.str (unfence reply))))).ok = true :=
      receiver.ok_success 200 (by decide) (by decide)
    simp only [Caller.callPlain, arrived, good, if_true]
    refine (readCode_field (unfence reply)).trans ?_
    rw [unfence_unfence]
    rfl
  | some e =>
    have worded : failureText generationOpening e ≠ [] := failureText_ne_nil (by decide) e
    obtain ⟨status, low, high, reported⟩ : ∃ status : Int, 400 ≤ status ∧ status < 600 ∧
        generationAnswer (replyModel reply ds (some e)) =
          .ok (errorAnswer (failureText generationOpening e) status) := by
      cases e with
      | badStatus status body => exact ⟨502, by decide, by decide, rfl⟩
      | _ => exact ⟨500, by decide, by decide, rfl⟩
    rw [reported] at arrived
    exact callPlain_refused arrived (receiver.ok_error status low high)
      (errorMessage_errorAnswer worded ..) _

/-! ## Agreement -/

/--
**Pieces and a whole answer come to the same.** A caller that asks the service for a diagram is told
the same whether the answer is to come in pieces or not. If the model has been asked, that is its
reply without the fence, or the words of its failure.
-/
theorem generate_agrees (c : Caller) (truths : TruthReader) (own settings : Settings)
    (reply : Text) (ds : List Text) (failure : Option Failure) (receiver : Receiver)
    (cut : List UInt8 → List (List UInt8)) (text : Text) (diagramType : Json)
    (kept : ∀ bs, (cut bs).flatten = bs) (whole : failure = none → ds.flatten = reply) :
    let m := replyModel reply ds failure
    let site := dropRightWhile (· = '/') c.baseUrl
    let send := serve truths settings m site receiver cut
    let inPieces := c.generate own send text diagramType true
    let asWhole := c.generate own send text diagramType false
    ∃ result, inPieces.result = .ok result ∧ asWhole.result = .ok result ∧
      ((∃ request ∈ inPieces.sent, ∃ h, handled? truths settings m site request = some h ∧
        h.calls ≠ []) → result = answered reply failure) := by
  intro m site send inPieces asWhole
  by_cases empty : text = []
  · have same (streamed : Bool) : c.generate own send text diagramType streamed =
        { result := .ok (Caller.failed "Please provide text content".toList) } := by
      rw [Caller.generate, if_pos empty]
    simp only [inPieces, asWhole, same]
    exact ⟨_, rfl, rfl, fun ⟨_, sent, _⟩ => absurd sent List.not_mem_nil⟩
  by_cases long : own.maxChars < (cleanText text).length
  · have same (streamed : Bool) : c.generate own send text diagramType streamed =
        { result := .ok (Caller.failed ("Text exceeds the ".toList ++ decimalInt own.maxChars ++
          " character limit".toList)) } := by
      simp only [Caller.generate, if_neg empty, if_pos long]
    simp only [inPieces, asWhole, same]
    exact ⟨_, rfl, rfl, fun ⟨_, sent, _⟩ => absurd sent List.not_mem_nil⟩
  let asked := generationRequest c (cleanText text) diagramType
  have pieces : inPieces = Caller.callStream send (asked true) .json generationDefault :=
    generate_eq c send empty long diagramType true
  have plain : asWhole =
      Caller.callPlain send (asked false) generationDefault [] Caller.readCode :=
    generate_eq c send empty long diagramType false
  obtain ⟨h, made, settled⟩ :=
    generationRequest_settled truths settings m c (cleanText text) diagramType receiver cut
  have arrived (streamed : Bool) :
      send (asked streamed) = .ok (deliver receiver cut (h streamed).answer) := by
    simp only [send, serve, asked, site, made]
  rw [pieces, plain]
  rcases settled with ⟨refusal, refused, same⟩ | answers
  · simp only [same] at arrived
    obtain ⟨message, told⟩ := exists_errorMessage receiver cut refusal generationDefault
    refine ⟨_, callStream_refused (arrived true) refused told .json,
      callPlain_refused (arrived false) refused told _, ?_⟩
    rintro ⟨request, sent, found, here, called⟩
    rw [callStream_sent, List.mem_singleton] at sent
    subst sent
    rw [made, same] at here
    cases here
    exact absurd rfl called
  · simp only [answers] at arrived
    exact ⟨_, callStream_answered kept whole (arrived true), callPlain_answered (arrived false),
      fun _ => rfl⟩

/-- A receiver that takes all statuses for a success but those for errors. -/
def usualReceiver : Receiver where
  ok status := !(decide (400 ≤ status) && decide (status < 600))
  noJson := .general .value [.str "Expecting value: line 1 column 1 (char 0)".toList]
  ok_success status _ low := by
    rw [decide_eq_false (Int.not_le.mpr low)]
    rfl
  ok_error status low high := by
    rw [decide_eq_true low, decide_eq_true high]
    rfl
  noJson_isValue := rfl

/-- A reply in a fence, given as a whole and in pieces that arrive one byte at a time. -/
theorem generate_agrees_fenced :
    let settings : Settings :=
      { apiUrl := "http://m".toList, apiKey := "k".toList, modelName := "x".toList }
    let m := replyModel "```\né-->\"b\"\n```".toList
      ["```\né--".toList, [], ">\"b\"\n```".toList] none
    let caller : Caller := {}
    let send := serve .strict settings m (dropRightWhile (· = '/') caller.baseUrl) usualReceiver
      fun bs => bs.map fun b => [b]
    (caller.generate {} send "é to b".toList (.str "flowchart".toList) true).result =
        .ok ⟨"é-->\"b\"".toList, none⟩ ∧
      (caller.generate {} send "é to b".toList (.str "flowchart".toList) false).result =
        .ok ⟨"é-->\"b\"".toList, none⟩ := by
  intro settings m caller send
  obtain ⟨result, inPieces, asWhole, answer⟩ := generate_agrees caller .strict {} settings
    "```\né-->\"b\"\n```".toList ["```\né--".toList, [], ">\"b\"\n```".toList] none
    usualReceiver (fun bs => bs.map fun b => [b]) "é to b".toList (.str "flowchart".toList)
    (fun bs => by rw [← List.flatMap_def, List.flatMap_singleton']) (fun _ => rfl)
  have code : result = ⟨"é-->\"b\"".toList, none⟩ := by
    refine answer ⟨generationRequest caller (cleanText "é to b".toList)
      (.str "flowchart".toList) true, ?_, _, handled?_generationRequest .., by decide +kernel⟩
    rw [generate_eq caller _ (by decide) (by decide +kernel), if_pos rfl, callStream_sent]
    exact List.mem_singleton_self _
  rw [← code]
  exact ⟨inPieces, asWhole⟩

end Service

end Drawbridge
