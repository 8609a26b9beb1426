import Drawbridge.Proofs.Markup.Cleaning
import Drawbridge.Proofs.Service.Calls

/-!
A text on both sides of the wire. The caller cleans a text and checks it, sends it, and the service
checks and cleans it again.

* `mem_sent_generate_iff`: what a caller sends, and for which texts;
* `cleaned_once`: the service finds nothing left to clean, so that its check of the length and the
  model are given the text as it was sent;
* `validation_agrees_iff`: what has been sent is served just if there is anything to be seen in it.
  The caller looks for an empty text before it cleans and the service behind that, so a text of
  blanks is sent and refused (`blank_text_refused`).
-/

namespace Drawbridge

namespace Service

/-! ## What is sent -/

/-- What a caller sends for a text: the clean text, unless there was no text or it is too long. -/
theorem mem_sent_generate_iff {c : Caller} {own : Settings} {send : Transport} {text : Text}
    {kind : Json} {streamed : Bool} {request : Request} :
    request ∈ (c.generate own send text kind streamed).sent ↔
      text ≠ [] ∧ (cleanText text).length ≤ own.maxChars ∧
        request = generationRequest c (cleanText text) kind streamed := by
  by_cases empty : text = []
  · rw [Caller.generate, if_pos empty]
    exact iff_of_false List.not_mem_nil fun h => h.1 empty
  by_cases long : own.maxChars < (cleanText text).length
  · have kept : c.generate own send text kind streamed =
        { result := .ok (Caller.failed ("Text exceeds the ".toList ++ decimalInt own.maxChars ++
          " character limit".toList)) } := by
      simp only [Caller.generate, if_neg empty, if_pos long]
    rw [kept]
    exact iff_of_false List.not_mem_nil fun h => absurd h.2.1 (Int.not_le.mpr long)
  · have sent : (c.generate own send text kind streamed).sent =
        [generationRequest c (cleanText text) kind streamed] := by
      rw [generate_eq c send empty long]
      cases streamed with
      | true => exact callStream_sent ..
      | false => exact Caller.callPlain_sent ..
    rw [sent, List.mem_singleton]
    exact ⟨fun h => ⟨empty, Int.not_lt.mp long, h⟩, fun h => h.2.2⟩

/-! ## What is made of it -/

def choiceOf (c : Caller) : Option ModelChoice :=
  ModelChoice.ofJson? (.obj [("aiConfig".toList, c.aiConfig),
    ("accessPassword".toList, c.accessPassword), ("selectedModel".toList, c.selectedModel)])

/-- The service has a client for what a caller sends along. -/
def Admits (settings : Settings) (c : Caller) : Prop :=
  ∃ choice credentials, choiceOf c = some choice ∧
    Credentials.resolve settings choice.aiConfig choice.accessPassword choice.selectedModel =
      .ok credentials

/-- The request for a text as the handler reads it. -/
theorem ofJson?_generationRequest_eq (truths : TruthReader) (c : Caller) (text : Text) (kind : Json)
    (streamed : Bool) :
    GenerateRequest.ofJson? truths (generationRequest c text kind streamed).body =
      (choiceOf c).bind fun choice => kind.text?.map fun kind =>
        { choice with text := text, diagramType := kind, stream := streamed } := by
  have same : ModelChoice.ofJson? (generationRequest c text kind true).body = choiceOf c := by
    unfold choiceOf ModelChoice.ofJson?
    rfl
  rw [ofJson?_generationRequest, same]

section Handler

variable (settings : Settings) (m : Model) {r : GenerateRequest}

theorem generate_of_empty (empty : r.text = []) : generate settings m r =
    { answer := .ok (errorAnswer "Please provide text content".toList 400) } := by
  simp only [generate, if_pos empty]

theorem generate_of_long (full : r.text ≠ [])
    (long : settings.maxChars < (cleanText r.text).length) : generate settings m r =
      { answer := .ok (errorAnswer ("Text exceeds the ".toList ++ decimalInt settings.maxChars ++
        " character limit".toList) 400) } := by
  simp only [generate, if_neg full, if_pos long]

theorem generate_of_fit (full : r.text ≠ [])
    (fit : (cleanText r.text).length ≤ settings.maxChars) : generate settings m r =
      withClient settings r.toModelChoice 0.2
        (if r.stream then .ok (.streamed "application/json".toList (generationParts m))
          else generationAnswer m)
        (Prompt.forGeneration (cleanText r.text) r.diagramType r.language) := by
  simp only [generate, if_neg full, if_neg (Int.not_lt.mpr fit)]

/-- The model is asked at most once, with the messages of the handler. -/
theorem withClient_calls (choice : ModelChoice) (temperature : Float) (next : Except Failure Answer)
    (messages : List Message) :
    ∀ asked ∈ (withClient settings choice temperature next messages).calls, asked = messages := by
  unfold withClient
  split
  · nofun
  · nofun
  · exact fun asked h => List.mem_singleton.mp h

theorem generate_calls {messages : List Message} (h : messages ∈ (generate settings m r).calls) :
    (cleanText r.text).length ≤ settings.maxChars ∧
      messages = Prompt.forGeneration (cleanText r.text) r.diagramType r.language := by
  by_cases empty : r.text = []
  · rw [generate_of_empty settings m empty] at h
    cases h
  by_cases long : settings.maxChars < (cleanText r.text).length
  · rw [generate_of_long settings m empty long] at h
    cases h
  · have fit := Int.not_lt.mp long
    rw [generate_of_fit settings m empty fit] at h
    exact ⟨fit, withClient_calls settings _ _ _ _ messages h⟩

/-- What the model comes to is never a refusal. -/
theorem generationAnswer_ne_refusal (body : Json) : generationAnswer m ≠ .ok (.plain 400 body) := by
  unfold generationAnswer
  split
  · exact fun h => absurd (Answer.plain.inj (Except.ok.inj h)).1 (by decide)
  · exact fun h => absurd (Answer.plain.inj (Except.ok.inj h)).1 (by decide)
  · rename_i reply _
    cases unfenceReply reply with
    | error e => nofun
    | ok code => exact fun h => absurd (Answer.plain.inj (Except.ok.inj h)).1 (by decide)

end Handler

/--
**A text is cleaned once.** What comes out of cleaning is clean, and just the clean texts are left
alone. So the service reads the text as it was sent, its own cleaning leaves that alone, and it asks
the model about this text or not at all, in particular not if this text is too long.
-/
theorem cleaned_once (text : Text) :
    IsClean (cleanText text) ∧ (cleanText text = text ↔ IsClean text) ∧
    cleanText (cleanText text) = cleanText text ∧
    ∀ (c : Caller) (own : Settings) (send : Transport) (kind : Json) (streamed : Bool),
      ∀ request ∈ (c.generate own send text kind streamed).sent,
        ∀ truths r, GenerateRequest.ofJson? truths request.body = some r →
          r.text = cleanText text ∧ cleanText r.text = r.text ∧
          ∀ settings m, ∀ messages ∈ (generate settings m r).calls,
            r.text.length ≤ settings.maxChars ∧
              messages.filter (·.role = "user".toList) = [.user r.text] := by
  refine ⟨cleanText_isClean text, cleanText_eq_self_iff, cleanText_cleanText text, ?_⟩
  intro c own send kind streamed request sent truths r read
  obtain ⟨-, -, rfl⟩ := mem_sent_generate_iff.mp sent
  rw [ofJson?_generationRequest_eq] at read
  obtain ⟨choice, -, read⟩ := Option.bind_eq_some_iff.mp read
  obtain ⟨kind, -, rfl⟩ := Option.map_eq_some_iff.mp read
  have again : cleanText (cleanText text) = cleanText text := cleanText_cleanText text
  refine ⟨rfl, again, ?_⟩
  intro settings m messages asked
  obtain ⟨fit, rfl⟩ := generate_calls settings m asked
  dsimp only at fit ⊢
  rw [again] at fit ⊢
  exact ⟨fit, rfl⟩

/-- A transport to an address where nothing is answered. -/
def deadTransport : Transport := fun _ => .error (.transport .connection [])

/-- A text with something for every pass, and what the service reads of it. -/
theorem cleaned_once_roughText :
    let text := "\ufeffa \t\r\n\u200b \r\r\rb \u3000".toList
    let request := generationRequest {} "a\n\nb".toList (.str "auto".toList) true
    cleanText text = "a\n\nb".toList ∧ IsClean "a\n\nb".toList ∧
      request ∈ (({} : Caller).generate {} deadTransport text (.str "auto".toList) true).sent ∧
      ∃ r, GenerateRequest.ofJson? .strict request.body = some r ∧ r.text = "a\n\nb".toList ∧
        cleanText r.text = r.text := by
  intro text request
  have cleaned : cleanText text = "a\n\nb".toList := by decide +kernel
  obtain ⟨clean, -, -, read⟩ := cleaned_once text
  have sent : request ∈ (({} : Caller).generate {} deadTransport text
      (.str "auto".toList) true).sent :=
    mem_sent_generate_iff.mpr ⟨by decide, by rw [cleaned]; decide, by rw [cleaned]⟩
  obtain ⟨same, settled, -⟩ := read {} {} deadTransport _ true request sent .strict _ rfl
  rw [cleaned] at clean
  exact ⟨cleaned, clean, sent, _, rfl, rfl, settled⟩

/-! ## Both sides -/

/-- The model is asked about a text in which there is something, and the request is not refused. -/
structure IsServed (h : Handled) (text : Text) : Prop where
  nonempty : text ≠ []
  taken : ∀ body, h.answer ≠ .ok (.plain 400 body)
  asked : ∃ messages, h.calls = [messages] ∧
    messages.filter (·.role = "user".toList) = [.user text]

/-- The service serves a clean text that is neither empty nor too long, if it has a client. -/
theorem isServed_generate {settings : Settings} {m : Model} {r : GenerateRequest}
    (full : r.text ≠ []) (clean : cleanText r.text = r.text)
    (fit : r.text.length ≤ settings.maxChars) {credentials : Credentials}
    (client : Credentials.resolve settings r.aiConfig r.accessPassword r.selectedModel =
      .ok credentials) : IsServed (generate settings m r) r.text := by
  rw [generate_of_fit settings m full (by rw [clean]; exact fit), withClient, client, clean]
  refine ⟨full, fun body => ?_, _, rfl, rfl⟩
  dsimp only
  cases r.stream with
  | true =>
    intro plain
    cases plain
  | false => exact generationAnswer_ne_refusal m body

/--
**The two sides agree about texts in which there is anything to be seen.** Where both have one limit
and the service has a client for the caller, it serves what was sent just if the text has a visible
character. All else that was sent it refuses as empty.
-/
theorem validation_agrees_iff {own settings : Settings} (shared : own.maxChars = settings.maxChars)
    {c : Caller} (admitted : Admits settings c) (m : Model) (truths : TruthReader)
    {send : Transport} {text kind : Text} {streamed : Bool} {request : Request}
    (sent : request ∈ (c.generate own send text (.str kind) streamed).sent) :
    ∃ h, handled? truths settings m (dropRightWhile (· = '/') c.baseUrl) request = some h ∧
      (IsServed h (cleanText text) ↔ ∃ ch ∈ text, isVisible ch = true) ∧
      ((¬ ∃ ch ∈ text, isVisible ch = true) →
        h = { answer := .ok (errorAnswer "Please provide text content".toList 400) }) := by
  obtain ⟨-, fit, rfl⟩ := mem_sent_generate_iff.mp sent
  obtain ⟨choice, credentials, chosen, client⟩ := admitted
  have unseen : cleanText text = [] ↔ ¬ ∃ ch ∈ text, isVisible ch = true := by
    rw [cleanText_eq_nil_iff]
    simp
  let r : GenerateRequest :=
    { choice with text := cleanText text, diagramType := kind, stream := streamed }
  refine ⟨generate settings m r, ?_, ?_⟩
  · rw [handled?_generationRequest, ofJson?_generationRequest_eq, chosen]
    rfl
  by_cases empty : cleanText text = []
  · rw [generate_of_empty settings m empty]
    exact ⟨iff_of_false (fun served => served.nonempty empty) (unseen.mp empty), fun _ => rfl⟩
  · have seen := not_not.mp (mt unseen.mpr empty)
    have served : IsServed (generate settings m r) r.text :=
      isServed_generate empty (cleanText_cleanText text) (shared ▸ fit) client
    exact ⟨iff_of_true served seen, fun none_seen => absurd seen none_seen⟩

/-- A service with a configuration of its own, and a limit of five characters. -/
def strictSettings : Settings :=
  { apiUrl := "http://m".toList, apiKey := "k".toList, modelName := "x".toList, maxChars := 5 }

theorem admits_strictSettings : Admits strictSettings {} :=
  ⟨{}, _, rfl, rfl⟩

/-- A text that fits once it has been cleaned is sent and served. -/
theorem validation_agrees_iff_longText :
    let text := "a \t\n\n\n\nb\n".toList
    let request := generationRequest {} "a\n\nb".toList (.str "auto".toList) true
    strictSettings.maxChars < text.length ∧
      request ∈ (({} : Caller).generate strictSettings deadTransport text
        (.str "auto".toList) true).sent ∧
      ∃ h, handled? .strict strictSettings {} "http://localhost:8000".toList request = some h ∧
        IsServed h "a\n\nb".toList := by
  intro text request
  have cleaned : cleanText text = "a\n\nb".toList := by decide +kernel
  have sent : request ∈ (({} : Caller).generate strictSettings deadTransport text
      (.str "auto".toList) true).sent :=
    mem_sent_generate_iff.mpr ⟨by decide, by rw [cleaned]; decide, by rw [cleaned]⟩
  obtain ⟨h, here, served, -⟩ :=
    validation_agrees_iff rfl admits_strictSettings {} .strict sent
  rw [cleaned] at served
  exact ⟨by decide, sent, h, here, served.mpr ⟨'a', by decide, by decide⟩⟩

/-- **A text that is sent and then refused.** It is not empty, but there is nothing in it. -/
theorem blank_text_refused :
    let request := generationRequest {} [] (.str "auto".toList) true
    Admits strictSettings {} ∧
      request ∈ (({} : Caller).generate strictSettings deadTransport " ".toList
        (.str "auto".toList) true).sent ∧
      ∃ h, handled? .strict strictSettings {} "http://localhost:8000".toList request = some h ∧
        h.answer = .ok (errorAnswer "Please provide text content".toList 400) ∧ h.calls = [] ∧
        ¬ IsServed h (cleanText " ".toList) := by
  intro request
  have cleaned : cleanText " ".toList = [] := by decide +kernel
  refine ⟨admits_strictSettings, ?_, _,
    handled?_generationRequest .strict strictSettings {} {} [] (.str "auto".toList) true, rfl, rfl,
    fun served => served.taken _ rfl⟩
  exact mem_sent_generate_iff.mpr ⟨by decide, by rw [cleaned]; decide, by rw [cleaned]⟩

end Service

end Drawbridge
