import Drawbridge.Proofs.Service.Agreement

/-!
What the calls of a client come to. Over a network that fails only as networks do, a call comes to a
result (`Settles`): a value, or an error that says something and no value beside it. The calls that
read a stream and the call for suggestions do so whatever arrives; the call for a whole diagram does
so just if the answer holds no stray code, one that is present and no text (`calls_settle_iff`).
With such a code the call fails (`generate_unsettled`).
-/

namespace Drawbridge

/-- A call comes to a result. An error says something, and nothing else comes with it. -/
def Settles {α : Type} (empty : α) (t : Trace (CallResult α)) : Prop :=
  ∃ r, t.result = .ok r ∧ ∀ m, r.error = some m → m ≠ [] ∧ r.value = empty

/-- A transport that fails only as transports do, before an answer or in the middle of one. A body
may break off too, and it may be no JSON. -/
structure IsNetwork (send : Transport) : Prop where
  sending : ∀ request e, send request = .error e → e.isTransport = true
  receiving : ∀ request r e, send request = .ok r → r.failure = some e → e.isTransport = true
  reading : ∀ request r e, send request = .ok r → r.json = .error e →
    e.isTransport = true ∨ e.isValue = true

/-! ## Results -/

section Results

variable {α : Type} {empty value : α} {message : Text} {t : Trace (CallResult α)}

theorem settles_value (h : t.result = .ok ⟨value, none⟩) : Settles empty t :=
  ⟨_, h, nofun⟩

theorem settles_error (h : t.result = .ok ⟨empty, some message⟩) (worded : message ≠ []) :
    Settles empty t := by
  refine ⟨_, h, ?_⟩
  rintro m ⟨⟩
  exact ⟨worded, rfl⟩

theorem not_settles_of_error {e : Failure} (h : t.result = .error e) : ¬ Settles empty t := by
  rintro ⟨r, settled, -⟩
  rw [h] at settled
  cases settled

end Results

/-- What a user is shown for a failure is not empty if the default is not. -/
theorem Failure.describe_ne_nil (e : Failure) {default : Text} (h : default ≠ []) :
    e.describe default ≠ [] := by
  unfold Failure.describe
  by_cases worded : e.text ≠ []
  · rwa [if_pos worded]
  · rwa [if_neg worded, if_pos h]

namespace Caller

theorem communicationError_ne_nil : communicationError ≠ [] := by decide

theorem isExpected_iff {e : Failure} :
    isExpected e = true ↔ e.isTransport = true ∨ e.isValue = true := Bool.or_eq_true_iff

theorem reportedError?_ne_nil {j : Json} {m : Text} (h : reportedError? j = some m) : m ≠ [] := by
  unfold reportedError? at h
  dsimp only at h
  split at h
  · rename_i present
    cases h
    exact Json.display_ne_nil present
  · cases h

theorem settles_described {α : Type} {empty : α} {t : Trace (CallResult α)} {e : Failure}
    (h : t.result = .ok ⟨empty, some (e.describe communicationError)⟩) : Settles empty t :=
  settles_error h (e.describe_ne_nil communicationError_ne_nil)

/-! ## Codes -/

/-- An answer without an error whose code is present and no text. -/
structure IsStray (j : Json) : Prop where
  unreported : reportedError? j = none
  present : (j.fieldOrNull "mermaidCode".toList).isTruthy = true
  noText : (j.fieldOrNull "mermaidCode".toList).text? = none

/-- A stray code cannot be read. -/
theorem readCode_stray {j : Json} (h : IsStray j) : readCode j = .error (.fault .wrongKind) := by
  obtain ⟨unreported, present, noText⟩ := h
  unfold readCode
  rw [unreported]
  dsimp only
  rw [if_pos present]
  cases code : j.fieldOrNull "mermaidCode".toList with
  | str s =>
    rw [code] at noText
    cases noText
  | _ => rfl

theorem readCode_settles {j : Json} (h : ¬ IsStray j) : Settles [] { result := readCode j } := by
  unfold readCode
  cases reported : reportedError? j with
  | some m => exact settles_error rfl (reportedError?_ne_nil reported)
  | none =>
    dsimp only
    by_cases present : (j.fieldOrNull "mermaidCode".toList).isTruthy = true
    · rw [if_pos present]
      cases code : j.fieldOrNull "mermaidCode".toList with
      | str s => exact settles_value rfl
      | _ => exact (h ⟨reported, present, by rw [code]; rfl⟩).elim
    · rw [if_neg present]
      exact settles_value rfl

/-! ## Requests -/

theorem callPlain_sent {α : Type} (send : Transport) (request : Request) (default : Text)
    (empty : α) (read : Json → Except Failure (CallResult α)) :
    (callPlain send request default empty read).sent = [request] := (rfl)

section Requests

variable {send : Transport} (network : IsNetwork send) (request : Request) {default : Text}

include network

/-- An answer with an error status comes to a message that says something, or the transport fails
while its body is read. -/
theorem errorMessage_cases {r : Response} (arrived : send request = .ok r)
    (worded : default ≠ []) :
    (∃ message, errorMessage r default = .ok message ∧ message ≠ []) ∨
      ∃ e, errorMessage r default = .error e ∧ e.isTransport = true := by
  unfold errorMessage
  cases read : r.json with
  | ok j =>
    refine .inl ⟨_, rfl, ?_⟩
    cases reported : reportedError? j with
    | none => exact worded
    | some m => exact reportedError?_ne_nil reported
  | error e =>
    dsimp only
    by_cases value : e.isValue = true
    · exact .inl ⟨default, if_pos value, worded⟩
    · exact .inr ⟨e, if_neg value,
        (network.reading request r e arrived read).resolve_right value⟩

/-- What arrives of a stream is a result, or a failure of the transport. -/
theorem consumeBody_cases {r : Response} (arrived : send request = .ok r) (format : WireFormat) :
    (∃ result, (consumeBody format r).2 = .ok result) ∨
      ∃ e, (consumeBody format r).2 = .error e ∧ e.isTransport = true := by
  unfold consumeBody
  dsimp only
  split
  · exact .inl ⟨_, rfl⟩
  · rename_i e _ _ broken
    exact .inr ⟨e, rfl, network.receiving request r e arrived broken⟩
  · exact .inl ⟨_, rfl⟩

/-- **A call for a stream comes to a result, wherever the stream breaks off.** -/
theorem callStream_settles (format : WireFormat) (worded : default ≠ []) :
    Settles [] (callStream send request format default) := by
  unfold callStream
  cases arrived : send request with
  | error e => exact settles_described (if_pos (network.sending request e arrived))
  | ok r =>
    dsimp only
    by_cases good : r.ok = true
    · rw [if_pos good]
      rcases consumeBody_cases network request arrived format with ⟨result, hr⟩ | ⟨e, he, broken⟩
      · have settled : Settles [] { result := .ok (ofStream result) } := by
          unfold ofStream
          by_cases unreported : result.error = []
          · rw [if_pos unreported]
            exact settles_value rfl
          · rw [if_neg unreported]
            exact settles_error rfl unreported
        rw [hr]
        exact settled
      · rw [he]
        exact settles_described (if_pos broken)
    · rw [if_neg good]
      rcases errorMessage_cases network request arrived worded with ⟨m, told, worded⟩ |
        ⟨e, broken, transport⟩
      · rw [told]
        exact settles_error rfl worded
      · rw [broken]
        exact settles_described (if_pos transport)

/-- A call for one value comes to a result just if the value of a good answer does. -/
theorem callPlain_settles_iff {α : Type} (empty : α) (read : Json → Except Failure (CallResult α))
    (worded : default ≠ []) :
    Settles empty (callPlain send request default empty read) ↔
      ∀ r j, send request = .ok r → r.ok = true → r.json = .ok j →
        Settles empty { result := read j } := by
  have settled {e : Failure} (expected : e.isTransport = true ∨ e.isValue = true) : Settles empty
      { result := if isExpected e then .ok ⟨empty, some (e.describe communicationError)⟩
          else .error e, sent := [request] } :=
    settles_described (if_pos (isExpected_iff.mpr expected))
  unfold callPlain
  cases arrived : send request with
  | error e =>
    refine ⟨?_, fun _ => settled (.inl (network.sending request e arrived))⟩
    rintro - r j ⟨⟩
  | ok r =>
    dsimp only
    by_cases good : r.ok = true
    · rw [if_pos good]
      cases answer : r.json with
      | error e =>
        refine ⟨?_, fun _ => settled (network.reading request r e arrived answer)⟩
        rintro - _ j ⟨⟩ - other
        rw [answer] at other
        cases other
      | ok j =>
        refine ⟨?_, fun h => h r j rfl good answer⟩
        rintro settled _ _ ⟨⟩ - other
        rw [answer] at other
        cases other
        exact settled
    · rw [if_neg good]
      refine ⟨?_, fun _ => ?_⟩
      · rintro - _ j ⟨⟩ isGood
        exact absurd isGood good
      · rcases errorMessage_cases network request arrived worded with ⟨m, told, worded⟩ |
          ⟨e, broken, transport⟩
        · rw [told]
          exact settles_error rfl worded
        · rw [broken]
          exact settled (.inl transport)

/-- A call for a code comes to a result just if no good answer holds a stray one. -/
theorem callPlain_code_settles_iff (worded : default ≠ []) :
    Settles [] (callPlain send request default [] readCode) ↔
      ∀ r j, send request = .ok r → r.ok = true → r.json = .ok j → ¬ IsStray j := by
  rw [callPlain_settles_iff network request [] readCode worded]
  constructor
  · intro h r j arrived good answer stray
    exact not_settles_of_error (readCode_stray stray) (h r j arrived good answer)
  · exact fun h r j arrived good answer => readCode_settles (h r j arrived good answer)

theorem callPlain_suggestions_settles (worded : default ≠ []) :
    Settles [] (callPlain send request default [] fun j => .ok (readSuggestions j)) := by
  rw [callPlain_settles_iff network request [] _ worded]
  intro r j _ _ _
  unfold readSuggestions
  split <;> exact settles_value rfl

end Requests

end Caller

/-! ## Calls -/

theorem generate_cases (c : Caller) (settings : Settings) (send : Transport) (text : Text)
    (diagramType : Json) (streamed : Bool) :
    (∃ m, m ≠ [] ∧ c.generate settings send text diagramType streamed =
      { result := .ok (Caller.failed m) }) ∨
    c.generate settings send text diagramType streamed =
      if streamed then
        Caller.callStream send
          (Service.generationRequest c (cleanText text) diagramType streamed) .json
          Service.generationDefault
      else
        Caller.callPlain send
          (Service.generationRequest c (cleanText text) diagramType streamed)
          Service.generationDefault [] Caller.readCode := by
  by_cases empty : text = []
  · refine .inl ⟨"Please provide text content".toList, by decide, ?_⟩
    rw [Caller.generate, if_pos empty]
  by_cases long : settings.maxChars < (cleanText text).length
  · refine .inl ⟨"Text exceeds the ".toList ++ decimalInt settings.maxChars ++
      " character limit".toList, ?_, ?_⟩
    · rw [List.append_assoc]
      exact List.append_ne_nil_of_left_ne_nil (by decide) _
    · rw [Caller.generate, if_neg empty]
      exact if_pos long
  · exact .inr (Service.generate_eq c send empty long diagramType streamed)

/--
**Every call comes to a result, but for one kind of answer.** Over a network, whatever the status
and the body of an answer, whichever statuses are a success and wherever the answer breaks off, the
calls that read a stream and the call for suggestions come to a result. The call for a whole diagram
does so just if what it sent is not answered well with a stray code.
-/
theorem calls_settle_iff {send : Transport} (network : IsNetwork send) (c : Caller)
    (settings : Settings) (text code : Text) (diagramType instruction : Json)
    (groups : Option (List Json)) :
    Settles [] (c.generate settings send text diagramType true) ∧
    Settles [] (c.optimize send code instruction groups) ∧
    Settles [] (c.suggest send code) ∧
    (Settles [] (c.generate settings send text diagramType false) ↔
      ∀ request ∈ (c.generate settings send text diagramType false).sent,
        ∀ r j, send request = .ok r → r.ok = true → r.json = .ok j → ¬ Caller.IsStray j) := by
  refine ⟨?_, ?_, ?_, ?_⟩
  · rcases generate_cases c settings send text diagramType true with ⟨m, worded, unsent⟩ | sent
    · rw [unsent]
      exact settles_error rfl worded
    · rw [sent]
      exact Caller.callStream_settles network _ .json (by decide)
  · unfold Caller.optimize
    split
    · exact settles_error rfl (by decide)
    · exact Caller.callStream_settles network _ .sse (by decide)
  · unfold Caller.suggest
    split
    · exact settles_error rfl (by decide)
    · exact Caller.callPlain_suggestions_settles network _ (by decide)
  · rcases generate_cases c settings send text diagramType false with ⟨m, worded, unsent⟩ | sent
    · rw [unsent]
      exact iff_of_true (settles_error rfl worded) fun _ sent => absurd sent List.not_mem_nil
    · rw [sent, if_neg (by decide), Caller.callPlain_sent, List.forall_mem_singleton]
      exact Caller.callPlain_code_settles_iff network _ (by decide)

/-- A network that breaks off in the middle of a stream, and answers all else with an odd status and
an error beside a number for a code. -/
def flakyNetwork : Transport := fun request =>
  .ok <|
    if request.streamed then
      { ok := true, json := .error (.transport .timeout [])
        chunks := [.text "\x7b\"chunk\": \"flow".toList], failure := some (.transport .timeout []) }
    else
      { status := 999, ok := true
        json := .ok (.obj [("error".toList, .str "down".toList),
          ("mermaidCode".toList, .int 5)]) }

theorem flakyNetwork_isNetwork : IsNetwork flakyNetwork where
  sending := nofun
  receiving := by
    rintro request r e ⟨⟩ broken
    cases hs : request.streamed <;> rw [hs] at broken <;> cases broken
    rfl
  reading := by
    rintro request r e ⟨⟩ unread
    cases hs : request.streamed <;> rw [hs] at unread <;> cases unread
    exact .inl rfl

/-- Every call comes to a result over it. -/
theorem calls_settle_flakyNetwork : IsNetwork flakyNetwork ∧
    Settles [] (({} : Caller).generate {} flakyNetwork "hi".toList (.str "auto".toList) true) ∧
    Settles [] (({} : Caller).optimize flakyNetwork "A".toList (.str []) none) ∧
    Settles [] (({} : Caller).suggest flakyNetwork "A".toList) ∧
    Settles [] (({} : Caller).generate {} flakyNetwork "hi".toList (.str "auto".toList) false) := by
  obtain ⟨streamed, optimized, suggested, whole⟩ :=
    calls_settle_iff flakyNetwork_isNetwork {} {} "hi".toList "A".toList (.str "auto".toList)
      (.str []) none
  refine ⟨flakyNetwork_isNetwork, streamed, optimized, suggested, whole.mpr ?_⟩
  intro request sent r j arrived _ answer stray
  obtain rfl := List.mem_singleton.mp sent
  cases arrived
  cases answer
  cases stray.unreported

/-- A network that answers everything with a number for a code. -/
def strayNetwork : Transport := fun _ =>
  .ok { ok := true, json := .ok (.obj [("mermaidCode".toList, .int 5)]) }

/-- **A call that fails.** The code in the answer is a number. -/
theorem generate_unsettled : IsNetwork strayNetwork ∧
    (({} : Caller).generate {} strayNetwork "hi".toList (.str "flowchart".toList) false).result =
      .error (.fault .wrongKind) ∧
    ¬ Settles [] (({} : Caller).generate {} strayNetwork "hi".toList (.str "flowchart".toList)
      false) := by
  have failed : (({} : Caller).generate {} strayNetwork "hi".toList (.str "flowchart".toList)
      false).result = .error (.fault .wrongKind) := by
    rfl
  refine ⟨⟨nofun, ?_, ?_⟩, failed, not_settles_of_error failed⟩
  · rintro request r e ⟨⟩ ⟨⟩
  · rintro request r e ⟨⟩ ⟨⟩

end Drawbridge
