import Drawbridge.Proofs.Service.Validation

/-!
Whose credentials a request to a model carries. A caller sends along a configuration, a password and
the name of a model, any of which may be missing, and the three endpoints that ask a model look at
other things before these.

* `ModelChoice.resolve_cases`: the credentials are the caller's own or those of the service, and
  with a password that is not right they are none;
* `ModelRequest.handle_cases`: an endpoint has a client for the caller, or finds nothing to ask;
* `sent_carries`: a client sends its key to its own address only;
* `credentials_unmixed`: all of this for a request to any of the endpoints.
-/

namespace Drawbridge

namespace ModelClient

variable (client : ModelClient) (send : Transport) (messages : Json)

theorem generate_sent : (client.generate send messages).sent = [client.request messages false] := by
  unfold generate
  dsimp only
  cases send (client.request messages false) with
  | error e => rfl
  | ok r =>
    dsimp only
    split <;> rfl

theorem stream_sent : (client.stream send messages).sent = [client.request messages true] := by
  unfold stream
  dsimp only
  cases send (client.request messages true) with
  | error e => rfl
  | ok r =>
    dsimp only
    split <;> rfl

end ModelClient

namespace Credentials

theorem isComplete_iff {c : Credentials} :
    c.isComplete = true ↔ c.apiUrl ≠ [] ∧ c.apiKey ≠ [] ∧ c.modelName ≠ [] := by
  simp [isComplete, and_assoc]

/-- A request to the address of some credentials, with their key and for their model. -/
structure Carries (c : Credentials) (request : Request) : Prop where
  url : request.url = completionsUrl c.apiUrl
  key : request.headers.get? "Authorization".toList = some ("Bearer ".toList ++ c.apiKey)
  model : request.body.fieldOrNull "model".toList = .str c.modelName

/-- What a client sends, whatever comes of it, goes where its credentials say. -/
theorem sent_carries {c : Credentials} (complete : c.isComplete = true)
    (temperature messages : Json) (send : Transport) {request : Request}
    (sent : request ∈ ((ModelClient.ofCredentials c temperature).generate send messages).sent ∨
      request ∈ ((ModelClient.ofCredentials c temperature).stream send messages).sent) :
    c.Carries request := by
  obtain ⟨streamed, rfl⟩ : ∃ streamed,
      request = (ModelClient.ofCredentials c temperature).request messages streamed := by
    rcases sent with sent | sent
    · rw [ModelClient.generate_sent] at sent
      exact ⟨false, List.mem_singleton.mp sent⟩
    · rw [ModelClient.stream_sent] at sent
      exact ⟨true, List.mem_singleton.mp sent⟩
  obtain ⟨-, key, -⟩ := isComplete_iff.mp complete
  have headers : ((ModelClient.ofCredentials c temperature).request messages streamed).headers =
      [("Content-Type".toList, "application/json".toList),
        ("Authorization".toList, "Bearer ".toList ++ c.apiKey)] :=
    congrArg (_ :: ·) (if_neg key)
  exact ⟨rfl, by rw [headers]; rfl, rfl⟩

end Credentials

namespace ModelChoice

variable {settings : Settings} {choice : ModelChoice}

/-- The configuration that a caller sends along, each of its fields as text. -/
def own (choice : ModelChoice) : Credentials :=
  ⟨Credentials.readField choice.aiConfig "apiUrl", Credentials.readField choice.aiConfig "apiKey",
    Credentials.readField choice.aiConfig "modelName"⟩

/-- The caller gives a password, and it is not that of the service, or the service has none. -/
def WrongPassword (settings : Settings) (choice : ModelChoice) : Prop :=
  ∃ p, choice.accessPassword = some p ∧ p ≠ [] ∧
    (settings.accessPassword = [] ∨ p ≠ settings.accessPassword)

/-- The credentials of the service, with the model that the caller has chosen, if any. -/
structure IsLent (settings : Settings) (choice : ModelChoice) (c : Credentials) : Prop where
  url : c.apiUrl = settings.apiUrl
  key : c.apiKey = settings.apiKey
  chosen : ∀ name, choice.selectedModel = some name → name ≠ [] → c.modelName = name
  default : choice.selectedModel.getD [] = [] → c.modelName = settings.modelName

theorem isLent_ofSettings (settings : Settings) (choice : ModelChoice) :
    IsLent settings choice (Credentials.ofSettings settings choice.selectedModel) := by
  refine ⟨rfl, rfl, fun name chosen filled => ?_, fun unchosen => if_pos unchosen⟩
  simp only [Credentials.ofSettings, chosen, Option.getD_some, if_neg filled]

theorem isNullOrObject_of_optionalObject {j v : Json} {camel snake : String}
    (read : Body.optionalObject j camel snake = some v) : v = .null ∨ v.isObject = true := by
  unfold Body.optionalObject at read
  split at read
  · exact .inl (Option.some.inj read).symm
  · exact .inl (Option.some.inj read).symm
  · split at read
    · rename_i object
      exact .inr (Option.some.inj read ▸ object)
    · cases read

/-- The configuration of a request that was understood is read without a fault. -/
theorem ofJson_aiConfig {body : Json} (read : ofJson? body = some choice) :
    Credentials.ofJson choice.aiConfig = .ok choice.own := by
  have config : Body.optionalObject body "aiConfig" "ai_config" = some choice.aiConfig := by
    unfold ofJson? at read
    split at read
    · cases read
    · obtain ⟨config, found, read⟩ := Option.bind_eq_some_iff.mp read
      obtain ⟨_, -, read⟩ := Option.bind_eq_some_iff.mp read
      obtain ⟨_, -, read⟩ := Option.bind_eq_some_iff.mp read
      cases read
      exact found
  have formed : (choice.aiConfig.isTruthy && !choice.aiConfig.isObject) = false := by
    rcases isNullOrObject_of_optionalObject config with null | object
    · rw [null]
      rfl
    · rw [object, Bool.not_true, Bool.and_false]
  rw [Credentials.ofJson, formed]
  rfl

theorem wrongPassword_iff : choice.WrongPassword settings ↔
    (choice.accessPassword.getD [] ≠ [] && (settings.accessPassword = [] ||
      choice.accessPassword.getD [] ≠ settings.accessPassword)) = true := by
  unfold WrongPassword
  cases choice.accessPassword <;> simp

/--
**The credentials are the caller's own, or they are lent.** They are lent only to a caller whose own
are not complete and who gives no wrong password.
-/
theorem resolve_cases (settings : Settings)
    (read : Credentials.ofJson choice.aiConfig = .ok choice.own) :
    let resolved := Credentials.resolve settings choice.aiConfig choice.accessPassword
      choice.selectedModel
    (choice.own.isComplete = true ∧ resolved = .ok choice.own) ∨
    choice.own.isComplete = false ∧
      (choice.WrongPassword settings ∧ resolved = .error Credentials.wrongPassword ∨
        ¬ choice.WrongPassword settings ∧
          ((∃ c, IsLent settings choice c ∧ c.isComplete = true ∧ resolved = .ok c) ∨
            resolved = .error Credentials.incomplete)) := by
  intro resolved
  have steps : resolved = if choice.own.isComplete then .ok choice.own
      else if choice.accessPassword.getD [] ≠ [] && (settings.accessPassword = [] ||
          choice.accessPassword.getD [] ≠ settings.accessPassword) then
        .error Credentials.wrongPassword
      else if (Credentials.ofSettings settings choice.selectedModel).isComplete then
        .ok (Credentials.ofSettings settings choice.selectedModel)
      else .error Credentials.incomplete := by
    simp only [resolved, Credentials.resolve, read]
    rfl
  rw [steps]
  by_cases complete : choice.own.isComplete = true
  · exact .inl ⟨complete, if_pos complete⟩
  · refine .inr ⟨eq_false_of_ne_true complete, ?_⟩
    rw [if_neg complete]
    by_cases wrong : choice.WrongPassword settings
    · exact .inl ⟨wrong, if_pos (wrongPassword_iff.mp wrong)⟩
    · refine .inr ⟨wrong, ?_⟩
      rw [if_neg (mt wrongPassword_iff.mpr wrong)]
      by_cases filled : (Credentials.ofSettings settings choice.selectedModel).isComplete = true
      · exact .inl ⟨_, isLent_ofSettings settings choice, filled, if_pos filled⟩
      · exact .inr (if_neg filled)

end ModelChoice

namespace Service

/-- The endpoints that ask a model. -/
inductive Endpoint
  | generation
  | optimization
  | suggestions

inductive ModelRequest
  | generation (r : GenerateRequest)
  | optimization (r : OptimizeRequest)
  | suggestions (r : SuggestionsRequest)

namespace ModelRequest

def choice : ModelRequest → ModelChoice
  | generation r => r.toModelChoice
  | optimization r => r.toModelChoice
  | suggestions r => r.toModelChoice

/-- There is something to ask the model about: a text that is not too long, or some code. -/
def HasSubject (settings : Settings) : ModelRequest → Prop
  | generation r => r.text ≠ [] ∧ (cleanText r.text).length ≤ settings.maxChars
  | optimization r => r.code ≠ []
  | suggestions r => r.code ≠ []

def handle (settings : Settings) (m : Model) : ModelRequest → Handled
  | generation r => generate settings m r
  | optimization r => optimize settings m r
  | suggestions r => suggest settings m r

/-- **An endpoint refuses a request without a subject, and else has a client for the caller.** -/
theorem handle_cases (settings : Settings) (m : Model) (r : ModelRequest) :
    (¬ r.HasSubject settings ∧
      ∃ message, r.handle settings m = { answer := .ok (errorAnswer message 400) }) ∨
    (r.HasSubject settings ∧ ∃ temperature next messages,
      r.handle settings m = withClient settings r.choice temperature next messages) := by
  cases r with
  | generation r =>
    by_cases empty : r.text = []
    · exact .inl ⟨fun full => full.1 empty, _, generate_of_empty settings m empty⟩
    by_cases long : settings.maxChars < (cleanText r.text).length
    · exact .inl ⟨fun full => (Int.not_lt.mpr full.2) long, _,
        generate_of_long settings m empty long⟩
    · have fit := Int.not_lt.mp long
      exact .inr ⟨⟨empty, fit⟩, _, _, _, generate_of_fit settings m empty fit⟩
  | optimization r =>
    by_cases empty : r.code = []
    · exact .inl ⟨fun full => full empty, _, if_pos empty⟩
    · exact .inr ⟨empty, _, _, _, if_neg empty⟩
  | suggestions r =>
    by_cases empty : r.code = []
    · exact .inl ⟨fun full => full empty, _, if_pos empty⟩
    · exact .inr ⟨empty, _, _, _, if_neg empty⟩

end ModelRequest

namespace Endpoint

def path : Endpoint → Text
  | generation => "/api/generate-mermaid".toList
  | optimization => "/api/optimize-mermaid".toList
  | suggestions => "/api/optimize-mermaid/suggestions".toList

def read? (truths : TruthReader) : Endpoint → Json → Option ModelRequest
  | generation, body => (GenerateRequest.ofJson? truths body).map .generation
  | optimization, body => (OptimizeRequest.ofJson? body).map .optimization
  | suggestions, body => (SuggestionsRequest.ofJson? body).map .suggestions

theorem handle?_path (truths : TruthReader) (settings : Settings) (m : Model) (e : Endpoint)
    (body : Json) : handle? truths settings m e.path body =
      some (((e.read? truths body).map (ModelRequest.handle settings m)).getD invalid) := by
  have whole : ∀ {α : Type} (request : Option α) (kind : α → ModelRequest),
      (request.map fun r => (kind r).handle settings m).getD invalid =
        ((request.map kind).map (ModelRequest.handle settings m)).getD invalid := by
    intro α request kind
    rw [Option.map_map]
    rfl
  cases e with
  | generation => exact congrArg some (whole _ .generation)
  | optimization => exact congrArg some (whole _ .optimization)
  | suggestions => exact congrArg some (whole _ .suggestions)

theorem choice_of_read? {truths : TruthReader} {e : Endpoint} {body : Json} {r : ModelRequest}
    (read : e.read? truths body = some r) : ModelChoice.ofJson? body = some r.choice := by
  cases e with
  | generation =>
    obtain ⟨q, understood, rfl⟩ := Option.map_eq_some_iff.mp read
    obtain ⟨choice, found, rest⟩ := Option.bind_eq_some_iff.mp understood
    obtain ⟨_, -, rest⟩ := Option.bind_eq_some_iff.mp rest
    obtain ⟨_, -, rest⟩ := Option.bind_eq_some_iff.mp rest
    obtain ⟨_, -, rest⟩ := Option.bind_eq_some_iff.mp rest
    obtain ⟨_, -, rest⟩ := Option.bind_eq_some_iff.mp rest
    cases rest
    exact found
  | optimization =>
    obtain ⟨q, understood, rfl⟩ := Option.map_eq_some_iff.mp read
    obtain ⟨choice, found, rest⟩ := Option.bind_eq_some_iff.mp understood
    obtain ⟨_, -, rest⟩ := Option.bind_eq_some_iff.mp rest
    obtain ⟨_, -, rest⟩ := Option.bind_eq_some_iff.mp rest
    obtain ⟨_, -, rest⟩ := Option.bind_eq_some_iff.mp rest
    cases rest
    exact found
  | suggestions =>
    obtain ⟨q, understood, rfl⟩ := Option.map_eq_some_iff.mp read
    obtain ⟨choice, found, rest⟩ := Option.bind_eq_some_iff.mp understood
    obtain ⟨_, -, rest⟩ := Option.bind_eq_some_iff.mp rest
    cases rest
    exact found

end Endpoint

/--
**Credentials are not mixed, and a wrong password gets none.** Whatever a caller sends to an
endpoint that asks a model, a client that is created has a complete configuration, which is the
caller's own or, if that is not complete, the one of the service up to the name of the model; and
what the client sends goes to the address in this configuration with the key in it. A caller whose
own configuration is not complete and who gives a wrong password gets no client, the model is not
asked, and unless there is nothing to ask, the answer says so.
-/
theorem credentials_unmixed (truths : TruthReader) (settings : Settings) (m : Model) (e : Endpoint)
    (body : Json) :
    ∃ h, handle? truths settings m e.path body = some h ∧
      (e.read? truths body = none → h = invalid) ∧
      ∀ r, e.read? truths body = some r →
        (∀ c t, (c, t) ∈ h.clients → c.isComplete = true ∧
          (c = r.choice.own ∨ r.choice.own.isComplete = false ∧ r.choice.IsLent settings c) ∧
          ∀ messages send request,
            (request ∈ ((ModelClient.ofCredentials c t).generate send messages).sent ∨
              request ∈ ((ModelClient.ofCredentials c t).stream send messages).sent) →
            c.Carries request) ∧
        (r.choice.own.isComplete = false → r.choice.WrongPassword settings →
          h.clients = [] ∧ h.calls = [] ∧ (r.HasSubject settings →
            h.answer = .ok (errorAnswer "Invalid access password".toList 401))) := by
  refine ⟨_, e.handle?_path truths settings m body, fun unread => by rw [unread]; rfl,
    fun r read => ?_⟩
  rw [read, Option.map_some, Option.getD_some]
  rcases r.handle_cases settings m with ⟨unfit, message, handled⟩ |
    ⟨fit, temperature, next, messages, handled⟩
  · rw [handled]
    exact ⟨fun _ _ created => absurd created List.not_mem_nil,
      fun _ _ => ⟨rfl, rfl, fun fit => (unfit fit).elim⟩⟩
  rw [handled, withClient]
  rcases ModelChoice.resolve_cases settings
    (ModelChoice.ofJson_aiConfig (Endpoint.choice_of_read? read)) with ⟨complete, resolved⟩ |
    ⟨incomplete, ⟨wrong, resolved⟩ | ⟨right, ⟨c, lent, complete, resolved⟩ | resolved⟩⟩
  · rw [resolved]
    refine ⟨fun c t created => ?_, fun incomplete => ?_⟩
    · obtain ⟨rfl, rfl⟩ := Prod.mk.inj (List.mem_singleton.mp created)
      exact ⟨complete, .inl rfl, fun messages send request =>
        Credentials.sent_carries complete _ messages send⟩
    · rw [complete] at incomplete
      cases incomplete
  · rw [resolved]
    exact ⟨fun _ _ created => absurd created List.not_mem_nil,
      fun _ _ => ⟨rfl, rfl, fun _ => rfl⟩⟩
  · rw [resolved]
    refine ⟨fun c' t created => ?_, fun _ wrong => (right wrong).elim⟩
    obtain ⟨rfl, rfl⟩ := Prod.mk.inj (List.mem_singleton.mp created)
    exact ⟨complete, .inr ⟨incomplete, lent⟩, fun messages send request =>
      Credentials.sent_carries complete _ messages send⟩
  · rw [resolved]
    exact ⟨fun _ _ created => absurd created List.not_mem_nil,
      fun _ wrong => (right wrong).elim⟩

/-- A service with a configuration and a password. -/
def guardedSettings : Settings :=
  { strictSettings with accessPassword := "secret".toList }

/-- A request with an address and a key of its own, which is a number, but no model to go with them;
the caller chooses one and gives a password. -/
def partialBody (password : String) : Json :=
  .obj [("text".toList, .str "hi".toList),
    ("aiConfig".toList, .obj [("apiUrl".toList, .str "http://other".toList),
      ("apiKey".toList, .int 7)]),
    ("accessPassword".toList, .str password.toList), ("selectedModel".toList, .str "y".toList)]

/-- With a wrong password it is turned away. With the right one the address and the key are those of
the service, and only the model is the caller's. -/
theorem credentials_unmixed_partialBody :
    (∃ r h, Endpoint.generation.read? .strict (partialBody "guess") = some r ∧
      r.choice.own.isComplete = false ∧ r.choice.WrongPassword guardedSettings ∧
      r.HasSubject guardedSettings ∧
      handle? .strict guardedSettings {} Endpoint.generation.path (partialBody "guess") = some h ∧
      h.answer = .ok (errorAnswer "Invalid access password".toList 401) ∧ h.clients = [] ∧
      h.calls = []) ∧
    ∃ h,
      handle? .strict guardedSettings {} Endpoint.generation.path (partialBody "secret") = some h ∧
      h.clients = [(⟨"http://m".toList, "k".toList, "y".toList⟩, .float 0.2)] := by
  obtain ⟨h, handled, -, turned⟩ :=
    credentials_unmixed .strict guardedSettings {} .generation (partialBody "guess")
  obtain ⟨r, read⟩ : ∃ r, Endpoint.generation.read? .strict (partialBody "guess") = some r :=
    ⟨_, rfl⟩
  have incomplete : r.choice.own.isComplete = false := by
    cases read
    decide +kernel
  have wrong : r.choice.WrongPassword guardedSettings := by
    cases read
    exact ⟨"guess".toList, rfl, by decide, .inr (by decide)⟩
  have subject : r.HasSubject guardedSettings := by
    cases read
    exact ⟨by decide, by decide +kernel⟩
  obtain ⟨clients, calls, answer⟩ := (turned r read).2 incomplete wrong
  exact ⟨⟨r, h, read, incomplete, wrong, subject, handled, answer subject, clients, calls⟩,
    _, rfl, rfl⟩

end Service

end Drawbridge
