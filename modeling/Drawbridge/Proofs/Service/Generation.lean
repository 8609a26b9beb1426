import Drawbridge.Proofs.Markup.Fence
import Drawbridge.Proofs.Stream.Consumption
import Drawbridge.Proofs.Stream.Objects
import Drawbridge.Service.Handlers

/-!
What a client receives of the generation stream. The stream is one JSON object per line; whatever
the pieces of the answer are made of and wherever the bytes are cut, the client receives every piece
that is not empty, and then the answer or the error (`generation_delivered`).
-/

namespace Drawbridge

namespace Service

/-- A model that gives texts and then ends, or fails. -/
def textModel (ds : List Text) (failure : Option Failure) : Model :=
  { deltas := ds.map .str, failure := failure }

theorem joinDeltas_texts (i : Nat) (ds : List Text) :
    joinDeltas i (ds.map .str) = .ok ds.flatten := by
  induction ds generalizing i with
  | nil => rfl
  | cons d ds ih =>
    rw [List.map_cons, joinDeltas, ih]
    rfl

def failureText (opening : Text) : Failure → Text
  | .badStatus status body => (Failure.badStatus status body).text
  | e => opening ++ e.text

/-- What a client is told when a stream has ended. -/
def delivered (opening : Text) (ds : List Text) : Option Failure → StreamResult
  | none => { content := unfence ds.flatten, error := [] }
  | some e => { content := [], error := failureText opening e }

theorem ending_texts (opening : Text) (ds : List Text) (failure : Option Failure) :
    ending (opening ++ ·) (textModel ds failure) =
      match failure with
      | none => .ok (unfence ds.flatten)
      | some e => .error (failureText opening e) := by
  cases failure with
  | none =>
    simp only [ending, textModel, joinDeltas_texts]
  | some e => cases e <;> rfl

theorem failureText_ne_nil {opening : Text} (h : opening ≠ []) (e : Failure) :
    failureText opening e ≠ [] := by
  cases e with
  | badStatus status body =>
    have worded : failureText opening (.badStatus status body) =
        Failure.badStatusText status body := rfl
    rw [worded]
    unfold Failure.badStatusText
    rw [List.append_assoc, List.append_assoc]
    exact List.append_ne_nil_of_left_ne_nil (by decide) _
  | _ => exact List.append_ne_nil_of_left_ne_nil h _

/-! ## The parts -/

/-- How the report of a failure begins. -/
def generationOpening : Text := "Error while processing the request: ".toList

def chunkFields (d : Text) : List (Text × Json) :=
  [("chunk".toList, .str d), ("done".toList, .bool false)]

def lastFields (ds : List Text) : Option Failure → List (Text × Json)
  | none => [("mermaidCode".toList, .str (unfence ds.flatten)), ("done".toList, .bool true)]
  | some e =>
    [("error".toList, .str (failureText generationOpening e)),
      ("done".toList, .bool true)]

theorem generationParts_eq (ds : List Text) (failure : Option Failure) :
    generationParts (textModel ds failure) =
      (ds.map chunkFields ++ [lastFields ds failure]).map jsonLine := by
  have last :
      ending ("Error while processing the request: ".toList ++ ·) (textModel ds failure) = _ :=
    ending_texts generationOpening ds failure
  rw [generationParts, last]
  cases failure <;> simp [textModel, chunkFields, lastFields, Function.comp_def]

/-- Every value of every line is a text or a truth value. -/
theorem isFlat_fields (ds : List Text) (failure : Option Failure) :
    ∀ fs ∈ ds.map chunkFields ++ [lastFields ds failure],
      fs ≠ [] ∧ ∀ f ∈ fs, f.2.isFlat = true := by
  intro fs hfs
  rcases List.mem_append.mp hfs with hchunk | hlast
  · obtain ⟨d, -, rfl⟩ := List.mem_map.mp hchunk
    exact ⟨List.cons_ne_nil _ _, by simp [chunkFields, Json.isFlat]⟩
  · rw [List.mem_singleton.mp hlast]
    cases failure <;> exact ⟨List.cons_ne_nil _ _, by simp [lastFields, Json.isFlat]⟩

/-! ## What the client reads -/

def lastEvent (opening : Text) (ds : List Text) : Option Failure → Event
  | none => .final (unfence ds.flatten)
  | some e => .error (failureText opening e)

theorem lastEvent_isTerminal (opening : Text) (ds : List Text) (failure : Option Failure) :
    (lastEvent opening ds failure).isTerminal = true := by
  cases failure <;> rfl

theorem lastEvent_result? (opening : Text) (ds : List Text) (failure : Option Failure) :
    (lastEvent opening ds failure).result? = some (delivered opening ds failure) := by
  cases failure with
  | none => rw [lastEvent, Event.result?, unfence_unfence, delivered]
  | some e => rfl

theorem decode_chunkFields (d : Text) {t : Text} (ht : Json.skipSpace t = []) :
    Event.decode .json ((Json.obj (chunkFields d)).render ++ t) =
      .ok (Event.ofPiece (.str d)) := by
  have flat : ∀ f ∈ chunkFields d, f.2.isFlat = true := by simp [chunkFields, Json.isFlat]
  have nonempty : chunkFields d ≠ [] := List.cons_ne_nil _ _
  rw [Event.decode, Event.readJson, Json.parse_render nonempty flat ht]
  rfl

theorem decode_lastFields (ds : List Text) (failure : Option Failure) {t : Text}
    (ht : Json.skipSpace t = []) :
    Event.decode .json ((Json.obj (lastFields ds failure)).render ++ t) =
      .ok (lastEvent generationOpening ds failure) := by
  obtain ⟨nonempty, flat⟩ := isFlat_fields ds failure (lastFields ds failure) (by simp)
  rw [Event.decode, Event.readJson, Json.parse_render nonempty flat ht]
  cases failure with
  | none => rfl
  | some e =>
    have reported (m : Text) (hm : m ≠ []) :
        Event.ofObject (.obj [("error".toList, .str m), ("done".toList, .bool true)]) =
          .error m := by
      obtain ⟨c, m, rfl⟩ := List.exists_cons_of_ne_nil hm
      rfl
    exact congrArg Except.ok (reported _ (failureText_ne_nil (by decide) e))

def pieceEvents (ds : List Text) : List Event :=
  ds.map fun d => Event.ofPiece (.str d)

theorem terminal?_pieceEvents (ds : List Text) : terminal? (pieceEvents ds) = none := by
  apply List.find?_eq_none.mpr
  intro e he
  obtain ⟨d, -, rfl⟩ := List.mem_map.mp he
  cases d <;> simp [Event.ofPiece, Event.isTerminal]

theorem pieces_pieceEvents (ds : List Text) : pieces (pieceEvents ds) = ds.filter (· ≠ []) := by
  induction ds with
  | nil => rfl
  | cons d ds ih =>
    have one : pieces (pieceEvents [d]) = [d].filter (· ≠ []) := by cases d <;> rfl
    have split : pieceEvents (d :: ds) = pieceEvents [d] ++ pieceEvents ds := rfl
    rw [split, pieces_append_of_none (terminal?_pieceEvents [d]), one, ih, ← List.filter_append]
    rfl

/-- Pieces of an answer and then a terminal event. -/
theorem pieces_pieceEvents_append (ds : List Text) {e : Event} (he : e.isTerminal = true) :
    pieces (pieceEvents ds ++ [e]) = ds.filter (· ≠ []) := by
  have none_after : pieces [e] = [] := by simp [pieces, he]
  rw [pieces_append_of_none (terminal?_pieceEvents ds), pieces_pieceEvents, none_after,
    List.append_nil]

theorem resultOf?_pieceEvents_append (ds : List Text) {e : Event} (he : e.isTerminal = true) :
    resultOf? (pieceEvents ds ++ [e]) = e.result? := by
  have last : terminal? [e] = some e := by simp [terminal?, he]
  rw [resultOf?, terminal?_append_of_none (terminal?_pieceEvents ds), last]
  rfl

theorem events_generationParts (ds : List Text) (failure : Option Failure) :
    events .json (generationParts (textModel ds failure)).flatten =
      pieceEvents ds ++ [lastEvent generationOpening ds failure] := by
  have written : (generationParts (textModel ds failure)).flatten =
      (ds.map chunkFields ++ [lastFields ds failure]).flatMap fun fs =>
        (Json.obj fs).render ++ ['\n'] := by
    rw [generationParts_eq]
    rfl
  have flat : ∀ fs ∈ ds.map chunkFields ++ [lastFields ds failure], ∀ f ∈ fs, f.2.isFlat = true :=
    fun fs hfs => (isFlat_fields ds failure fs hfs).2
  have unterminated (rest : Text) : lastMessage .json rest = [] := rfl
  have chunk (d : Text) := decode_chunkFields d (t := []) rfl
  have last := decode_lastFields ds failure (t := []) rfl
  simp only [List.append_nil] at chunk last
  rw [events, allMessages, unterminated, List.append_nil, written,
    messages_objects (by decide) flat, eventsOf, List.filterMap_map, List.filterMap_append]
  simp [pieceEvents, List.filterMap_map, Function.comp_def, chunk, last, Except.toOption]

/--
**The generation stream arrives.** However the bytes of the stream are cut, the client receives the
pieces that are not empty, as they are and in order, and then the whole answer without its fence,
or the error. Exactly one message is terminal, and it is the last.
-/
theorem generation_delivered (ds : List Text) (failure : Option Failure)
    (bss : List (List UInt8))
    (h : bss.flatten = Utf8.encode (generationParts (textModel ds failure)).flatten) :
    consume .json (bss.map .bytes) =
        (ds.filter (· ≠ []),
          delivered generationOpening ds failure) ∧
      ∃ init last, generationParts (textModel ds failure) = init ++ [last] ∧
        (∀ p ∈ init, ∃ e, Event.decode .json p = .ok e ∧ e.isTerminal = false) ∧
        ∃ e, Event.decode .json last = .ok e ∧ e.isTerminal = true := by
  have terminal := lastEvent_isTerminal generationOpening ds failure
  constructor
  · rw [consume_eq, Chunk.textOf_bytes, h, Utf8.decode_encode, readWhole, events_generationParts,
      pieces_pieceEvents_append ds terminal, resultOf?_pieceEvents_append ds terminal,
      lastEvent_result?]
    rfl
  · refine ⟨(ds.map chunkFields).map jsonLine, jsonLine (lastFields ds failure), ?_, ?_, ?_⟩
    · rw [generationParts_eq, List.map_append]
      rfl
    · intro p hp
      rw [List.map_map] at hp
      obtain ⟨d, -, rfl⟩ := List.mem_map.mp hp
      refine ⟨_, decode_chunkFields d rfl, ?_⟩
      cases d <;> rfl
    · exact ⟨_, decode_lastFields ds failure rfl, terminal⟩

/-- Pieces with a quote, a brace, a backslash and a character of two bytes, one byte at a time. -/
theorem generation_delivered_bytewise :
    consume .json (((Utf8.encode (generationParts
        (textModel ["\x7b\"".toList, [], "é\\".toList] none)).flatten).map
          fun b => [b]).map .bytes) =
      (["\x7b\"".toList, "é\\".toList], { content := "\x7b\"é\\".toList }) := by
  refine (generation_delivered ["\x7b\"".toList, [], "é\\".toList] none _ ?_).1.trans ?_
  · rw [← List.flatMap_def, List.flatMap_singleton']
  · rfl

end Service

end Drawbridge
