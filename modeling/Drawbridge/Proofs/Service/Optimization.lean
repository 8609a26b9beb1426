import Drawbridge.Proofs.Service.Generation
import Drawbridge.Proofs.Stream.Frames

/-!
What a client receives of the optimization stream. The stream is one frame per event, and the texts
of the events are written with their line separators as they are. A frame whose text holds one of
them is cut by the client into lines that are no JSON, and it is skipped: the client receives the
pieces without separators (`consume_optimizationParts`), and everything exactly if no text holds one
(`optimization_delivered_iff`).
-/

namespace Drawbridge

open Json (escapeChar renderString renderInit renderField)

namespace Service

/-! ## Frames -/

/-- What stands in a frame before the last text of its object. -/
def frameStart (gs : List (Text × Json)) (k : Text) : Text :=
  renderInit gs ++ (renderString k ++ ": ".toList)

/-- The last text of an object with its quotes, and what closes the object. -/
def frameEnd (v : Text) : Text :=
  '"' :: (v.flatMap escapeChar ++ ['"'])

theorem render_snoc (gs : List (Text × Json)) (k v : Text) :
    (Json.obj (gs ++ [(k, .str v)])).render = '{' :: (frameStart gs k ++ frameEnd v ++ ['}']) := by
  simp [Json.render, Json.renderFields_snoc, renderField, renderString, frameStart, frameEnd]

theorem frame_eq (fs : List (Text × Json)) :
    frame fs = dataMark ++ ' ' :: (Json.obj fs).render ++ frameTail := by
  rfl

theorem hasData_frame (fs : List (Text × Json)) : hasData (frame fs) = true := by
  rw [frame_eq, List.append_assoc]
  exact hasData_mark _

variable {gs : List (Text × Json)} {k : Text}

theorem forall_mem_render {P : Char → Prop} (hs : ∀ c ∈ '{' :: frameStart gs k, P c) {v : Text}
    (hv : ∀ c ∈ v.flatMap escapeChar, P c) (hq : P '"') (hb : P '}') :
    ∀ c ∈ (Json.obj (gs ++ [(k, .str v)])).render, P c := by
  have split : (Json.obj (gs ++ [(k, .str v)])).render =
      ('{' :: frameStart gs k) ++ '"' :: (v.flatMap escapeChar ++ ['"', '}']) := by
    simp [render_snoc, frameEnd]
  intro c hc
  rw [split] at hc
  rcases List.mem_append.mp hc with hm | hm
  · exact hs c hm
  · rcases List.mem_cons.mp hm with rfl | hm
    · exact hq
    · rcases List.mem_append.mp hm with hm | hm
      · exact hv c hm
      · simp only [List.mem_cons, List.not_mem_nil, or_false] at hm
        rcases hm with rfl | rfl
        · exact hq
        · exact hb

/-- A frame without separators in its text says what was written. -/
theorem decode_frame_unbroken (hgs : ∀ g ∈ gs, g.2.isFlat = true)
    (hs : ∀ c ∈ '{' :: frameStart gs k, isLineBreak c = false) {v : Text}
    (hv : isUnbroken v = true) : Event.decode .sse (frame (gs ++ [(k, .str v)])) =
      .ok (Event.ofPayload (.obj (Dictionary.ofList (gs ++ [(k, .str v)])))) := by
  have flat : ∀ f ∈ gs ++ [(k, .str v)], f.2.isFlat = true := by
    intro f hf
    rcases List.mem_append.mp hf with hg | hl
    · exact hgs f hg
    · rw [List.mem_singleton.mp hl]
      rfl
  have nonempty : gs ++ [(k, .str v)] ≠ [] := by simp
  have parsed := Json.parse_render nonempty flat (t := []) rfl
  rw [List.append_nil] at parsed
  have plain : ∀ c ∈ (Json.obj (gs ++ [(k, .str v)])).render, isLineBreak c = false :=
    forall_mem_render hs (fun _ hc => not_lineBreak_of_mem_escape hv hc) rfl rfl
  have trimmed : strip (Json.obj (gs ++ [(k, .str v)])).render =
      (Json.obj (gs ++ [(k, .str v)])).render := by
    rw [render_snoc, strip_cons_of_not_blank (by decide), ← List.cons_append,
      stripRight_snoc_of_not_blank (by decide)]
  have payload : ((Json.obj (gs ++ [(k, .str v)])).render = [] ||
      (Json.obj (gs ++ [(k, .str v)])).render = "[DONE]".toList) = false := by
    rw [render_snoc]
    simp
  rw [Event.decode, frame_eq, frameData_line plain trimmed]
  simp only [payload, Event.readJson, parsed]
  rfl

/-- **A frame with a separator in its text is not understood.** -/
theorem decode_frame_broken (hgs : ∀ g ∈ gs, g.2.isFlat = true)
    (hs : ∀ c ∈ '{' :: frameStart gs k, isLineBreak c = false) {v : Text}
    (hv : isUnbroken v = false) :
    (Event.decode .sse (frame (gs ++ [(k, .str v)]))).toOption = none := by
  obtain ⟨u, sep, w, rfl, hu, hsep⟩ := eq_append_of_broken hv
  have asIs : escapeChar sep = [sep] := by
    simp only [isSeparator, Bool.or_eq_true, decide_eq_true_eq] at hsep
    rcases hsep with (rfl | rfl) | rfl <;> rfl
  have cut : frame (gs ++ [(k, .str (u ++ sep :: w))]) =
      dataMark ++ ' ' :: ('{' :: frameStart gs k ++ '"' :: u.flatMap escapeChar) ++
        sep :: (w.flatMap escapeChar ++ ['"', '}'] ++ frameTail) := by
    simp [frame_eq, render_snoc, frameEnd, asIs]
  obtain ⟨u', t, ht, payload⟩ :=
    frameData_unclosed hs hu hsep (w.flatMap escapeChar ++ ['"', '}'] ++ frameTail)
  have unclosed : Json.readString t = none := by
    rcases ht with rfl | ⟨t', rfl⟩ <;> rfl
  have unread := Json.parse_unclosed hgs k u' unclosed
  have same : '{' :: frameStart gs k ++ '"' :: (u'.flatMap escapeChar ++ t) =
      '{' :: (renderInit gs ++ (renderString k ++ (": ".toList ++ '"' ::
        (u'.flatMap escapeChar ++ t)))) := by
    simp [frameStart]
  rw [Event.decode, cut, payload]
  simp only [Event.readJson, same, unread]
  rfl

/-! ## The parts -/

/-- How the report of a failure begins. -/
def optimizationOpening : Text := "Error while optimizing the code: ".toList

/-- What the last text of the stream is: the whole answer without its fence, or the error. -/
def lastText (opening : Text) (ds : List Text) : Option Failure → Text
  | none => unfence ds.flatten
  | some e => failureText opening e

/-- The fields of a frame before its text, and the key of the text. -/
structure FrameKind where
  fields : List (Text × Json)
  key : Text

namespace FrameKind

def piece : FrameKind := ⟨[("type".toList, .str "chunk".toList)], "data".toList⟩

def answer : FrameKind :=
  ⟨[("type".toList, .str "final".toList), ("ok".toList, .bool true)], "data".toList⟩

def report : FrameKind := ⟨[("type".toList, .str "error".toList)], "message".toList⟩

def last : Option Failure → FrameKind
  | none => answer
  | some _ => report

def frame (kind : FrameKind) (v : Text) : Text :=
  Service.frame (kind.fields ++ [(kind.key, .str v)])

/-- What stands before the text of a frame can be read, and is on one line. -/
structure WellFormed (kind : FrameKind) : Prop where
  flat : ∀ g ∈ kind.fields, g.2.isFlat = true
  plain : ∀ c ∈ '{' :: frameStart kind.fields kind.key, isLineBreak c = false

theorem piece_wellFormed : piece.WellFormed := by
  constructor <;> decide

theorem last_wellFormed (failure : Option Failure) : (last failure).WellFormed := by
  have answered : answer.WellFormed := by constructor <;> decide
  have reported : report.WellFormed := by constructor <;> decide
  cases failure with
  | none => exact answered
  | some e => exact reported

/-- What a client reads in the frame of a text: nothing if the text holds a separator. -/
theorem decode_frame {kind : FrameKind} (h : kind.WellFormed) (v : Text) :
    (Event.decode .sse (kind.frame v)).toOption =
      if isUnbroken v then
        some (Event.ofPayload (.obj (Dictionary.ofList (kind.fields ++ [(kind.key, .str v)]))))
      else none := by
  cases hv : isUnbroken v with
  | true =>
    rw [frame, decode_frame_unbroken h.flat h.plain hv]
    rfl
  | false => exact decode_frame_broken h.flat h.plain hv

end FrameKind

theorem optimizationParts_eq (ds : List Text) (failure : Option Failure) :
    optimizationParts (textModel ds failure) = ds.map FrameKind.piece.frame ++
      [(FrameKind.last failure).frame
        (lastText optimizationOpening ds failure)] := by
  have last : ending ("Error while optimizing the code: ".toList ++ ·) (textModel ds failure) = _ :=
    ending_texts optimizationOpening ds failure
  rw [optimizationParts, last, textModel, List.map_map]
  cases failure <;> rfl

/-! ## What the client reads -/

theorem eventsOf_pieces (ds : List Text) :
    eventsOf .sse (ds.map FrameKind.piece.frame) = pieceEvents (ds.filter isUnbroken) := by
  induction ds with
  | nil => rfl
  | cons d ds ih =>
    rw [List.map_cons, eventsOf, List.filterMap_cons,
      FrameKind.decode_frame FrameKind.piece_wellFormed, ← eventsOf, ih]
    cases hd : isUnbroken d with
    | true =>
      rw [List.filter_cons_of_pos hd]
      rfl
    | false =>
      rw [List.filter_cons_of_neg (by simp [hd])]
      rfl

theorem ofPayload_last (ds : List Text) (failure : Option Failure) :
    Event.ofPayload (.obj (Dictionary.ofList ((FrameKind.last failure).fields ++
        [((FrameKind.last failure).key,
          .str (lastText optimizationOpening ds failure))]))) =
      lastEvent optimizationOpening ds failure := by
  cases failure with
  | none => rfl
  | some e =>
    have reported (m : Text) (hm : m ≠ []) :
        Event.ofPayload (.obj [("type".toList, .str "error".toList), ("message".toList, .str m)]) =
          .error m := by
      obtain ⟨c, m, rfl⟩ := List.exists_cons_of_ne_nil hm
      rfl
    exact reported _ (failureText_ne_nil (by decide) e)

theorem eventsOf_last (ds : List Text) (failure : Option Failure) :
    eventsOf .sse [(FrameKind.last failure).frame
        (lastText optimizationOpening ds failure)] =
      if isUnbroken (lastText optimizationOpening ds failure) then
        [lastEvent optimizationOpening ds failure]
      else [] := by
  rw [eventsOf, List.filterMap_cons, FrameKind.decode_frame (FrameKind.last_wellFormed failure),
    ofPayload_last]
  cases isUnbroken (lastText optimizationOpening ds failure) <;> rfl

def FrameKind.line (kind : FrameKind) (v : Text) : Text :=
  dataMark ++ ' ' :: (Json.obj (kind.fields ++ [(kind.key, .str v)])).render

theorem FrameKind.frame_eq (kind : FrameKind) (v : Text) :
    kind.frame v = kind.line v ++ frameTail :=
  Service.frame_eq _

theorem FrameKind.not_newline_line {kind : FrameKind} (h : kind.WellFormed) (v : Text) :
    ∀ c ∈ kind.line v, c ≠ '\n' ∧ c ≠ '\r' := by
  have of_plain {c : Char} (hc : isLineBreak c = false) : c ≠ '\n' ∧ c ≠ '\r' := by
    constructor <;> rintro rfl <;> revert hc <;> decide
  have mark : ∀ c ∈ dataMark ++ [' '], isLineBreak c = false := by decide
  intro c hc
  rw [line, List.append_cons, List.mem_append] at hc
  rcases hc with hm | hm
  · exact of_plain (mark c hm)
  · exact forall_mem_render (fun c hc => of_plain (h.plain c hc))
      (fun _ hc => not_newline_of_mem_escape hc) (by decide) (by decide) c hm

theorem events_optimizationParts (ds : List Text) (failure : Option Failure) :
    events .sse (optimizationParts (textModel ds failure)).flatten =
      pieceEvents (ds.filter isUnbroken) ++
        if isUnbroken (lastText optimizationOpening ds failure) then
          [lastEvent optimizationOpening ds failure]
        else [] := by
  rw [← eventsOf_pieces, ← eventsOf_last, ← eventsOf_append, ← optimizationParts_eq, events]
  congr 1
  have framed : optimizationParts (textModel ds failure) = (ds.map FrameKind.piece.line ++
      [(FrameKind.last failure).line
        (lastText optimizationOpening ds failure)]).map (· ++ frameTail) := by
    have frames (kind : FrameKind) : kind.frame = (· ++ frameTail) ∘ kind.line :=
      funext kind.frame_eq
    rw [optimizationParts_eq, List.map_append, List.map_map, frames, frames]
    rfl
  have oneLine : ∀ b ∈ ds.map FrameKind.piece.line ++ [(FrameKind.last failure).line
      (lastText optimizationOpening ds failure)],
      ∀ c ∈ b, c ≠ '\n' ∧ c ≠ '\r' := by
    intro b hb
    rcases List.mem_append.mp hb with hm | hm
    · obtain ⟨d, -, rfl⟩ := List.mem_map.mp hm
      exact FrameKind.not_newline_line FrameKind.piece_wellFormed d
    · rw [List.mem_singleton.mp hm]
      exact FrameKind.not_newline_line (FrameKind.last_wellFormed failure) _
  have cut := segment_frames oneLine
  rw [List.flatMap_def, ← framed] at cut
  have payloads : ∀ p ∈ optimizationParts (textModel ds failure), hasData p = true := by
    intro p hp
    rw [optimizationParts_eq] at hp
    rcases List.mem_append.mp hp with hm | hm
    · obtain ⟨d, -, rfl⟩ := List.mem_map.mp hm
      exact hasData_frame _
    · rw [List.mem_singleton.mp hm]
      exact hasData_frame _
  have kept : (optimizationParts (textModel ds failure)).filter (carries .sse) =
      optimizationParts (textModel ds failure) := List.filter_eq_self.mpr payloads
  rw [allMessages, messages, remainder, cut, kept]
  exact List.append_nil _

/-- **What the client receives of the optimization stream**, however its bytes are cut: the pieces
without separators that are not empty, and the answer or the error if it holds none either. -/
theorem consume_optimizationParts (ds : List Text) (failure : Option Failure)
    {bss : List (List UInt8)}
    (h : bss.flatten = Utf8.encode (optimizationParts (textModel ds failure)).flatten) :
    consume .sse (bss.map .bytes) = ((ds.filter isUnbroken).filter (· ≠ []),
      if isUnbroken (lastText optimizationOpening ds failure) then
        delivered optimizationOpening ds failure
      else {}) := by
  have terminal := lastEvent_isTerminal optimizationOpening ds failure
  rw [consume_eq, Chunk.textOf_bytes, h, Utf8.decode_encode, readWhole, events_optimizationParts]
  split
  · rw [pieces_pieceEvents_append _ terminal, resultOf?_pieceEvents_append _ terminal,
      lastEvent_result?]
    rfl
  · rw [List.append_nil, pieces_pieceEvents,
      resultOf?_eq_none.mpr (terminal?_pieceEvents (ds.filter isUnbroken))]
    rfl

theorem filter_unbroken_eq_iff (ds : List Text) :
    (ds.filter isUnbroken).filter (· ≠ []) = ds.filter (· ≠ []) ↔
      ∀ d ∈ ds, isUnbroken d = true := by
  constructor
  · intro h d hd
    by_cases empty : d = []
    · rw [empty]
      rfl
    · have received : d ∈ (ds.filter isUnbroken).filter (· ≠ []) := by
        rw [h]
        exact List.mem_filter.mpr ⟨hd, by simpa using empty⟩
      exact (List.mem_filter.mp (List.mem_filter.mp received).1).2
  · intro h
    rw [List.filter_eq_self.mpr h]

theorem delivered_ne_nothing {ds : List Text} {failure : Option Failure}
    (h : isUnbroken (lastText optimizationOpening ds failure) = false) :
    delivered optimizationOpening ds failure ≠ {} := by
  intro hd
  cases failure with
  | none =>
    have empty : unfence ds.flatten = [] := congrArg StreamResult.content hd
    rw [lastText, empty] at h
    cases h
  | some e =>
    have empty : failureText optimizationOpening e = [] := congrArg StreamResult.error hd
    exact failureText_ne_nil (by decide) e empty

/--
**The optimization stream arrives exactly if none of its texts holds a separator.** However the
bytes are cut, the client receives the pieces that are not empty and then the answer or the error if
and only if U+0085, U+2028 and U+2029 occur neither in a piece nor in what comes last.
-/
theorem optimization_delivered_iff (ds : List Text) (failure : Option Failure)
    (bss : List (List UInt8))
    (h : bss.flatten = Utf8.encode (optimizationParts (textModel ds failure)).flatten) :
    consume .sse (bss.map .bytes) =
        (ds.filter (· ≠ []), delivered optimizationOpening ds failure) ↔
      (∀ d ∈ ds, isUnbroken d = true) ∧
        isUnbroken (lastText optimizationOpening ds failure) = true := by
  rw [consume_optimizationParts ds failure h, Prod.mk.injEq, filter_unbroken_eq_iff]
  refine and_congr_right fun _ => ?_
  cases hb : isUnbroken (lastText optimizationOpening ds failure) with
  | true => simp
  | false =>
    have something := delivered_ne_nothing hb
    simp [Ne.symm something]

/-- Pieces without separators, one byte at a time, and then a failure of the model. -/
theorem optimization_delivered_bytewise :
    consume .sse (((Utf8.encode (optimizationParts (textModel ["a\n".toList, [], "é".toList]
        (some (.badStatus 500 "down".toList)))).flatten).map fun b => [b]).map .bytes) =
      (["a\n".toList, "é".toList],
        { error := "AI service returned an error (500): down".toList }) := by
  refine ((optimization_delivered_iff ["a\n".toList, [], "é".toList]
    (some (.badStatus 500 "down".toList)) _ ?_).mpr ?_).trans ?_
  · rw [← List.flatMap_def, List.flatMap_singleton']
  · decide
  · rfl

/-- A line separator in the only piece: the client receives neither the piece nor the answer. -/
theorem optimization_lost :
    let parts := optimizationParts (textModel ["a\u2028b".toList] none)
    consume .sse [.bytes (Utf8.encode parts.flatten)] = ([], {}) ∧
      consume .sse [.bytes (Utf8.encode parts.flatten)] ≠
        (["a\u2028b".toList], { content := "a\u2028b".toList }) := by
  intro parts
  have whole : [Utf8.encode parts.flatten].flatten = Utf8.encode parts.flatten :=
    List.flatten_singleton
  have received : consume .sse ([Utf8.encode parts.flatten].map .bytes) = ([], {}) :=
    (consume_optimizationParts ["a\u2028b".toList] none whole).trans rfl
  refine ⟨received, ?_⟩
  intro h
  cases received.symm.trans h

end Service

end Drawbridge
