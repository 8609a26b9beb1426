import Drawbridge.Proofs.Graph.Reading
import Drawbridge.Proofs.Service.Generation

/-!
What the lines of a model's stream come to. A line may hold anything. `Carries` says which lines
have a content, and `Yields` what a run of lines gives: the contents that are present, in order, and
nothing for every other line.

* `parseStreamLine_eq_iff`: a line is read as the content that it carries;
* `yields_pieces`: so the pieces of a stream are what its lines yield, and the stream fails only as
  the transport does;
* `stream_unbroken_iff`: a stream of generation made of them ends with the answer just if every
  content that is present is a text (`HaveTexts`). With any other content it ends with an error
  (`stream_derailed`).
-/

namespace Drawbridge

/-- A line with a content: behind the mark stands an object whose first choice has a delta that has
it. -/
inductive Carries : Text → Json → Prop
  | intro {data : Text} {answer choice delta : Dictionary Json} {choices : List Json}
      {content : Json} (parsed : Json.parse (strip data) = some (.obj answer))
      (chosen : answer.get? "choices".toList = some (.arr (.obj choice :: choices)))
      (changed : choice.get? "delta".toList = some (.obj delta))
      (found : delta.get? "content".toList = some content) : Carries (dataMark ++ data) content

/-- What some lines give: each content that is present. The other lines are passed over. -/
inductive Yields : List Text → List Json → Prop
  | nil : Yields [] []
  | piece {line : Text} {content : Json} {lines : List Text} {contents : List Json}
      (carried : Carries line content) (present : content.isTruthy = true)
      (rest : Yields lines contents) : Yields (line :: lines) (content :: contents)
  | pass {line : Text} {lines : List Text} {contents : List Json}
      (nothing : ∀ content, Carries line content → content.isTruthy = false)
      (rest : Yields lines contents) : Yields (line :: lines) contents

/-- Every content that is present is a text. -/
def HaveTexts (lines : List Text) : Prop :=
  ∀ line ∈ lines, ∀ content, Carries line content → HoldsText content

/-! ## Lines -/

theorem Json.exists_of_field? {key : Text} {j k : Json} (h : j.field? key = some k) :
    ∃ fs, j = .obj fs ∧ Dictionary.get? fs key = some k := by
  cases j with
  | obj fs => exact ⟨fs, rfl, h⟩
  | _ => cases h

theorem Json.field?_of_fieldOrNull {key : Text} {j : Json}
    (h : (j.fieldOrNull key).isTruthy = true) : j.field? key = some (j.fieldOrNull key) := by
  unfold Json.fieldOrNull at h ⊢
  cases found : j.field? key with
  | none =>
    rw [found] at h
    cases h
  | some k => rfl

theorem eq_of_itemAt {j k : Json} (h : itemAt 0 j = .ok k) (object : k.isObject = true) :
    ∃ ks, j = .arr (k :: ks) := by
  cases j with
  | arr xs =>
    cases xs with
    | nil => cases h
    | cons x xs =>
      cases h
      exact ⟨xs, rfl⟩
  | str s =>
    cases s with
    | nil => cases h
    | cons c s =>
      cases h
      cases object
  | _ => cases h

theorem eq_of_fieldAt {key : Text} {j k : Json} (h : fieldAt key j = .ok k) :
    ∃ fs, j = .obj fs ∧ Dictionary.get? fs key = some k := by
  cases j with
  | obj fs =>
    unfold fieldAt at h
    dsimp only at h
    split at h
    · rename_i found
      cases h
      exact ⟨fs, rfl, found⟩
    · cases h
  | _ => cases h

/-- A content that is present stands in the delta of the first choice. -/
theorem exists_of_deltaContent? {j content : Json} (read : deltaContent? j = some content)
    (present : content.isTruthy = true) :
    ∃ answer choice choices delta, j = .obj answer ∧
      Dictionary.get? answer "choices".toList = some (.arr (.obj choice :: choices)) ∧
      Dictionary.get? choice "delta".toList = some (.obj delta) ∧
      Dictionary.get? delta "content".toList = some content := by
  unfold deltaContent? at read
  obtain ⟨first, chosen, here⟩ := Option.bind_eq_some_iff.mp read
  obtain ⟨choices, listed, item⟩ := ok_of_bind (eq_ok_of_toOption chosen)
  obtain ⟨answer, rfl, inAnswer⟩ := eq_of_fieldAt listed
  dsimp only at here
  split at here
  · rename_i objects
    obtain ⟨isChoice, isDelta⟩ := (Bool.and_eq_true _ _).mp objects
    obtain ⟨rest, rfl⟩ := eq_of_itemAt item isChoice
    have same := Option.some.inj here
    rw [← same] at present
    have found := Json.field?_of_fieldOrNull present
    rw [same] at found
    obtain ⟨delta, changed, inDelta⟩ := Json.exists_of_field? found
    cases given : first.field? "delta".toList with
    | none =>
      -- without a delta the content would be looked up in an empty object
      rw [given] at changed
      cases changed
      cases inDelta
    | some d =>
      rw [given] at changed
      obtain rfl : d = .obj delta := changed
      obtain ⟨choice, rfl, inChoice⟩ := Json.exists_of_field? given
      exact ⟨answer, choice, rest, delta, rfl, inAnswer, inChoice, inDelta⟩
  · cases here

/-- A content in the delta of the first choice is found. -/
theorem deltaContent?_eq_some {answer choice delta : Dictionary Json} {choices : List Json}
    {content : Json}
    (chosen : answer.get? "choices".toList = some (.arr (.obj choice :: choices)))
    (changed : choice.get? "delta".toList = some (.obj delta))
    (found : delta.get? "content".toList = some content) :
    deltaContent? (.obj answer) = some content := by
  have first : (fieldAt "choices".toList (.obj answer)).bind (itemAt 0) = .ok (.obj choice) := by
    have listed : Dictionary.get? answer "choices".toList = some (.arr (.obj choice :: choices)) :=
      chosen
    rw [fieldAt, listed]
    rfl
  have change : (Json.obj choice).field? "delta".toList = some (.obj delta) := changed
  have piece : (Json.obj delta).field? "content".toList = some content := found
  unfold deltaContent?
  rw [first]
  show (if ((Json.obj choice).isObject &&
      (((Json.obj choice).field? "delta".toList).getD (.obj [])).isObject) = true
    then some ((((Json.obj choice).field? "delta".toList).getD (.obj [])).fieldOrNull
      "content".toList) else none) = some content
  rw [change, Option.getD_some, Json.fieldOrNull, piece]
  rfl

theorem parse_nil : Json.parse [] = none := rfl

theorem parse_done : Json.parse "[DONE]".toList = none :=
  Option.isNone_iff_eq_none.mp (by decide +kernel)

/-- **A line is read as the content that it carries.** -/
theorem parseStreamLine_eq_iff {line : Text} {content : Json} (present : content.isTruthy = true) :
    parseStreamLine line = content ↔ Carries line content := by
  constructor
  · intro read
    unfold parseStreamLine at read
    split at read
    · rw [← read] at present
      cases present
    · rename_i data marked
      obtain rfl := eq_append_of_afterPrefix? marked
      dsimp only at read
      split at read
      · rw [← read] at present
        cases present
      · cases parsed : (Json.parse (strip data)).bind deltaContent? with
        | none =>
          rw [parsed] at read
          rw [← read] at present
          cases present
        | some j =>
          rw [parsed, Option.getD_some, Json.orElse] at read
          split at read
          · subst read
            obtain ⟨k, parsed, found⟩ := Option.bind_eq_some_iff.mp parsed
            obtain ⟨answer, choice, choices, delta, rfl, chosen, changed, found⟩ :=
              exists_of_deltaContent? found present
            exact .intro parsed chosen changed found
          · rw [← read] at present
            cases present
  · rintro ⟨parsed, chosen, changed, found⟩
    rename_i data _ _ _ _
    have spoken : ¬ (decide (strip data = []) || decide (strip data = "[DONE]".toList)) = true := by
      rw [Bool.or_eq_true, decide_eq_true_eq, decide_eq_true_eq]
      rintro (empty | done)
      · rw [empty, parse_nil] at parsed
        cases parsed
      · rw [done, parse_done] at parsed
        cases parsed
    rw [parseStreamLine, afterPrefix?_append]
    dsimp only
    rw [if_neg spoken, parsed, Option.bind_some, deltaContent?_eq_some chosen changed found,
      Option.getD_some, Json.orElse, if_pos present]

/-- **The pieces of some lines are what the lines yield.** -/
theorem yields_pieces (lines : List Text) : Yields lines (ModelClient.pieces lines) := by
  induction lines with
  | nil => exact .nil
  | cons line lines ih =>
    unfold ModelClient.pieces at ih ⊢
    by_cases present : (parseStreamLine line).isTruthy = true
    · rw [List.map_cons, List.filter_cons_of_pos present]
      exact .piece ((parseStreamLine_eq_iff present).mp rfl) present ih
    · rw [List.map_cons, List.filter_cons_of_neg present]
      refine .pass (fun content carried => eq_false_of_ne_true fun other => present ?_) ih
      rwa [(parseStreamLine_eq_iff other).mpr carried]

/-- What is yielded is present, and carried by a line. -/
theorem Yields.carried {lines : List Text} {contents : List Json} (h : Yields lines contents) :
    ∀ content ∈ contents, content.isTruthy = true ∧ ∃ line ∈ lines, Carries line content := by
  induction h with
  | nil => nofun
  | @piece line content lines contents carried present _ ih =>
    refine List.forall_mem_cons.mpr ⟨⟨present, line, List.mem_cons_self, carried⟩, ?_⟩
    intro other listed
    obtain ⟨present, l, hl, carried⟩ := ih other listed
    exact ⟨present, l, List.mem_cons_of_mem line hl, carried⟩
  | @pass line lines contents _ _ ih =>
    intro other listed
    obtain ⟨present, l, hl, carried⟩ := ih other listed
    exact ⟨present, l, List.mem_cons_of_mem line hl, carried⟩

/-- What is present and carried by a line is yielded. -/
theorem Yields.mem {lines : List Text} {contents : List Json} (h : Yields lines contents)
    {line : Text} (hl : line ∈ lines) {content : Json} (carried : Carries line content)
    (present : content.isTruthy = true) : content ∈ contents := by
  induction h with
  | nil => cases hl
  | piece here here_present _ ih =>
    rcases List.mem_cons.mp hl with rfl | hl
    · -- a line carries one content that is present
      have one := (parseStreamLine_eq_iff present).mpr carried
      rw [(parseStreamLine_eq_iff here_present).mpr here] at one
      exact one ▸ List.mem_cons_self
    · exact List.mem_cons_of_mem _ (ih hl)
  | pass nothing _ ih =>
    rcases List.mem_cons.mp hl with rfl | hl
    · rw [nothing content carried] at present
      cases present
    · exact ih hl

/-- The contents are texts just if those of the lines are that are present. -/
theorem Yields.haveTexts_iff {lines : List Text} {contents : List Json}
    (h : Yields lines contents) :
    HaveTexts lines ↔ ∀ content ∈ contents, ∃ s, content = .str s := by
  constructor
  · intro texts content listed
    obtain ⟨present, line, hl, carried⟩ := h.carried content listed
    exact texts line hl content carried present
  · intro texts line hl content carried present
    exact texts content (h.mem hl carried present)

/-- Lines have texts if texts are read from them. A line without content reads as an empty text. -/
theorem haveTexts_of_read {lines : List Text}
    (h : ∀ line ∈ lines, (parseStreamLine line).text?.isSome = true) : HaveTexts lines := by
  intro line hl content carried present
  have text := h line hl
  rw [(parseStreamLine_eq_iff present).mpr carried] at text
  cases content with
  | str s => exact ⟨s, rfl⟩
  | _ => cases text

namespace Service

/-! ## The stream of generation -/

def streamedModel (t : Trace Unit) : Model where
  deltas := t.deltas
  failure :=
    match t.result with
    | .ok _ => none
    | .error e => some e

theorem exists_map_str {ds : List Json} (h : ∀ d ∈ ds, ∃ s, d = .str s) :
    ∃ ts : List Text, ds = ts.map .str := by
  induction ds with
  | nil => exact ⟨[], rfl⟩
  | cons d ds ih =>
    obtain ⟨s, rfl⟩ := h d List.mem_cons_self
    obtain ⟨ts, rfl⟩ := ih fun d hd => h d (List.mem_cons_of_mem _ hd)
    exact ⟨s :: ts, rfl⟩

/-- Pieces that are not all texts cannot be put together. -/
theorem exists_joinDeltas_error {ds : List Json} (h : ¬ ∀ d ∈ ds, ∃ s, d = .str s) (i : Nat) :
    ∃ e, joinDeltas i ds = .error e := by
  induction ds generalizing i with
  | nil => exact (h nofun).elim
  | cons d ds ih =>
    cases d with
    | str s =>
      have others : ¬ ∀ d ∈ ds, ∃ s, d = .str s := fun all =>
        h (List.forall_mem_cons.mpr ⟨⟨s, rfl⟩, all⟩)
      obtain ⟨e, he⟩ := ih others (i + 1)
      exact ⟨e, by rw [joinDeltas, he]; rfl⟩
    | _ => exact ⟨_, rfl⟩

theorem generationParts_derailed {m : Model} (h : ¬ ∀ d ∈ m.deltas, ∃ s, d = .str s) :
    ∃ message, (generationParts m).getLast? =
      some (jsonLine [("error".toList, .str message), ("done".toList, .bool true)]) := by
  obtain ⟨message, failed⟩ : ∃ message,
      ending ("Error while processing the request: ".toList ++ ·) m = .error message := by
    unfold ending
    split
    · exact ⟨_, rfl⟩
    · exact ⟨_, rfl⟩
    · obtain ⟨e, he⟩ := exists_joinDeltas_error h 0
      rw [he]
      exact ⟨_, rfl⟩
  refine ⟨message, ?_⟩
  rw [generationParts, failed, List.getLast?_concat]

theorem stream_eq (c : ModelClient) (send : Transport) (messages : Json) {r : Response}
    (arrived : send (c.request messages true) = .ok r) (good : r.ok = true) :
    c.stream send messages =
      { result := (match r.failure with
          | some e => .error e
          | none => .ok ())
        sent := [c.request messages true], deltas := ModelClient.pieces r.lines, closed := true
        declaredUtf8 := true } := by
  unfold ModelClient.stream
  dsimp only
  rw [arrived]
  exact if_pos good

/--
**Lines of any content do not break a stream, but one kind of content does break its end.** Over a
good response the stream fails only as the transport does, and its pieces are what the lines yield.
If nothing fails, the stream of generation made of them has a line for each and then the answer,
just if every content that is present is a text. Otherwise it ends with an error.
-/
theorem stream_unbroken_iff (c : ModelClient) (send : Transport) (messages : Json) {r : Response}
    (arrived : send (c.request messages true) = .ok r) (good : r.ok = true) :
    let t := c.stream send messages
    (∀ e, t.result = .error e → r.failure = some e) ∧ Yields r.lines t.deltas ∧
    (r.failure = none →
      (HaveTexts r.lines ↔ ∃ ds : List Text, t.deltas = ds.map .str ∧ (∀ d ∈ ds, d ≠ []) ∧
        generationParts (streamedModel t) =
          (ds.map chunkFields ++ [lastFields ds none]).map jsonLine) ∧
      (¬ HaveTexts r.lines → ∃ message, (generationParts (streamedModel t)).getLast? =
        some (jsonLine [("error".toList, .str message), ("done".toList, .bool true)]))) := by
  intro t
  have streamed : t = _ := stream_eq c send messages arrived good
  have yields : Yields r.lines t.deltas := by
    rw [streamed]
    exact yields_pieces r.lines
  refine ⟨?_, yields, fun whole => ⟨⟨?_, ?_⟩, ?_⟩⟩
  · intro e failed
    rw [streamed] at failed
    dsimp only at failed
    split at failed
    · rename_i broken
      rw [broken, Except.error.inj failed]
    · cases failed
  · intro texts
    obtain ⟨ds, pieces⟩ := exists_map_str (yields.haveTexts_iff.mp texts)
    have model : streamedModel t = textModel ds none := by
      rw [streamedModel, pieces, streamed, whole]
      rfl
    refine ⟨ds, pieces, ?_, by rw [model, generationParts_eq]⟩
    rintro d hd rfl
    have listed : Json.str [] ∈ t.deltas := by
      rw [pieces]
      exact List.mem_map_of_mem hd
    cases (yields.carried _ listed).1
  · rintro ⟨ds, pieces, -, -⟩
    refine yields.haveTexts_iff.mpr fun d hd => ?_
    rw [pieces] at hd
    obtain ⟨s, -, rfl⟩ := List.mem_map.mp hd
    exact ⟨s, rfl⟩
  · exact fun other => generationParts_derailed (m := streamedModel t)
      (mt yields.haveTexts_iff.mpr other)

/-- Lines of a stream, two of them with a piece. The others are no JSON, or JSON without one. -/
def oddLines : List Text :=
  [": ping".toList,
    "data: \x7b\"choices\": [\x7b\"delta\": \x7b\"content\": \"flow\"\x7d\x7d]\x7d".toList, [],
    "data: \x7bbroken".toList, "data: [1, null]".toList,
    "data: \x7b\"choices\": \"x\"\x7d".toList,
    "data: \x7b\"choices\": [\x7b\"delta\": null\x7d]\x7d".toList,
    "data: \x7b\"choices\": [\x7b\"delta\": \x7b\"content\": 0\x7d\x7d]\x7d".toList,
    "data:\x7b\"choices\": [\x7b\"delta\": \x7b\"content\": \"chart\"\x7d\x7d, 3]\x7d ".toList,
    "data: [DONE]".toList]

/-- A client of an address that answers with some lines. -/
def linesTransport (lines : List Text) : Transport := fun _ =>
  .ok { ok := true, json := .error (.general .value []), lines }

theorem stream_unbroken_iff_oddLines :
    let t := ({ url := [], model := [] } : ModelClient).stream (linesTransport oddLines) .null
    HaveTexts oddLines ∧ Yields oddLines t.deltas ∧
      ∃ ds : List Text, t.deltas = ds.map .str ∧ generationParts (streamedModel t) =
        (ds.map chunkFields ++ [lastFields ds none]).map jsonLine := by
  intro t
  have texts : HaveTexts oddLines := haveTexts_of_read (by decide +kernel)
  obtain ⟨-, yields, ended⟩ := stream_unbroken_iff { url := [], model := [] }
    (linesTransport oddLines) .null rfl rfl
  obtain ⟨ds, pieces, -, parts⟩ := (ended rfl).1.mp texts
  exact ⟨texts, yields, ds, pieces, parts⟩

/-- A line with a number for a content. -/
def numberLine : Text :=
  "data: \x7b\"choices\": [\x7b\"delta\": \x7b\"content\": 5\x7d\x7d]\x7d".toList

/-- **A stream that ends with an error because of a line.** The number is a piece like any other,
and the pieces cannot be put together. -/
theorem stream_derailed :
    let t := ({ url := [], model := [] } : ModelClient).stream (linesTransport [numberLine]) .null
    t.result = .ok () ∧ t.deltas.map Json.asInt? = [some 5] ∧ ¬ HaveTexts [numberLine] ∧
      generationParts (streamedModel t) =
        [jsonLine [("chunk".toList, .int 5), ("done".toList, .bool false)],
          jsonLine [("error".toList, .str ("Error while processing the request: " ++
            "sequence item 0: expected str instance, int found").toList),
            ("done".toList, .bool true)]] := by
  intro t
  have number : t.deltas.map Json.asInt? = [some 5] := by decide +kernel
  have streamed : t = _ := stream_eq _ (linesTransport [numberLine]) .null rfl rfl
  refine ⟨?_, number, fun texts => ?_, by decide +kernel⟩
  · rw [streamed]
  · obtain ⟨ds, pieces⟩ := exists_map_str ((yields_pieces [numberLine]).haveTexts_iff.mp texts)
    rw [streamed] at number
    dsimp only at number
    rw [pieces] at number
    cases ds with
    | nil => cases number
    | cons d ds => cases number

end Service

end Drawbridge
