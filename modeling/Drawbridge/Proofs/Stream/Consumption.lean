import Drawbridge.Proofs.Json.Display
import Drawbridge.Proofs.Stream.Buffering
import Drawbridge.Proofs.Text.Blank
import Drawbridge.Proofs.Text.Utf8
import Drawbridge.Stream.Consumer

/-!
What consuming a response comes to. It is read once more here, as one text and without sessions:

* `allMessages`, `events`: the messages of the whole text, with a last frame that has no empty
  line, and what can be read of them;
* `pieces`, `resultOf?`: the pieces before the first terminal event and what that event gives;
* `readWhole`: both for a text, which `consume_eq_readWhole` shows a session to give, wherever the
  response is cut;
* `Event.decode_error_ne_nil`: an error report is never empty.
-/

namespace Drawbridge

/-! ## Events -/

namespace Event

def piece? : Event → Option Text
  | delta t => some t
  | final _ | error _ | ignored => none

/-- What a stream comes to that ends with an event. -/
def result? : Event → Option StreamResult
  | final t => some { content := unfence t }
  | error m => some { error := m }
  | delta _ | ignored => none

theorem ofPiece_ne_error (j : Json) (m : Text) : ofPiece j ≠ error m := by
  unfold ofPiece
  split <;> simp

theorem ofObject_error_ne_nil {j : Json} {m : Text} (h : ofObject j = error m) : m ≠ [] := by
  unfold ofObject at h
  by_cases present : (j.fieldOrNull "error".toList).isTruthy = true
  · rw [if_pos present] at h
    cases h
    exact Json.display_ne_nil present
  · rw [if_neg present] at h
    split at h
    · rw [if_pos rfl] at h
      split at h <;> cases h
    · exact (ofPiece_ne_error _ _ h).elim

theorem ofPayload_error_ne_nil {j : Json} {m : Text} (h : ofPayload j = error m) : m ≠ [] := by
  unfold ofPayload at h
  dsimp only at h
  split at h
  · exact (ofPiece_ne_error _ _ h).elim
  · split at h
    · cases h
    · split at h
      · cases h
        split
        · rename_i present
          exact Json.display_ne_nil present
        · decide
      · cases h

/-- **An error report is never empty.** -/
theorem decode_error_ne_nil {format : WireFormat} {message m : Text}
    (h : decode format message = .ok (error m)) : m ≠ [] := by
  have mapped {f : Json → Event} {s : Text} (hf : ∀ j, f j = error m → m ≠ [])
      (hs : (readJson s).map f = .ok (error m)) : m ≠ [] := by
    cases hj : readJson s with
    | error t =>
      rw [hj] at hs
      cases hs
    | ok j =>
      rw [hj] at hs
      exact hf j (Except.ok.inj hs)
  cases format with
  | json => exact mapped (fun _ => ofObject_error_ne_nil) h
  | sse =>
    simp only [decode] at h
    split at h
    · cases h
    · exact mapped (fun _ => ofPayload_error_ne_nil) h

end Event

/-- The events of messages. One that cannot be read gives none. -/
def eventsOf (format : WireFormat) (messages : List Text) : List Event :=
  messages.filterMap fun m => (Event.decode format m).toOption

theorem eventsOf_append (format : WireFormat) (ms ns : List Text) :
    eventsOf format (ms ++ ns) = eventsOf format ms ++ eventsOf format ns :=
  List.filterMap_append

/-- The pieces of the answer that arrive before the first terminal event. -/
def pieces (es : List Event) : List Text :=
  (es.takeWhile fun e => !e.isTerminal).filterMap Event.piece?

def terminal? (es : List Event) : Option Event :=
  es.find? Event.isTerminal

def resultOf? (es : List Event) : Option StreamResult :=
  (terminal? es).bind Event.result?

theorem pieces_append_of_none {es : List Event} (h : terminal? es = none) (fs : List Event) :
    pieces (es ++ fs) = pieces es ++ pieces fs := by
  have all : ∀ e ∈ es, (!e.isTerminal) = true := by simpa [terminal?] using h
  rw [pieces, pieces, pieces, List.takeWhile_append_of_pos all, List.filterMap_append,
    List.takeWhile_eq_self_iff.mpr all]

theorem pieces_append_of_some {es : List Event} {e : Event} (h : terminal? es = some e)
    (fs : List Event) : pieces (es ++ fs) = pieces es := by
  obtain ⟨he, before, after, rfl, hb⟩ := List.find?_eq_some_iff_append.mp h
  have ends : (!e.isTerminal) = false := by simp [he]
  rw [pieces, pieces, List.append_assoc, List.takeWhile_append_of_pos hb, List.cons_append,
    List.takeWhile_append_of_pos hb, List.takeWhile_cons_of_neg (by simp [ends]),
    List.takeWhile_cons_of_neg (by simp [ends])]

theorem terminal?_append_of_some {es : List Event} {e : Event} (h : terminal? es = some e)
    (fs : List Event) : terminal? (es ++ fs) = some e := by
  rw [terminal?] at h
  rw [terminal?, List.find?_append, h]
  rfl

theorem terminal?_append_of_none {es : List Event} (h : terminal? es = none) (fs : List Event) :
    terminal? (es ++ fs) = terminal? fs := by
  rw [terminal?] at h
  rw [terminal?, List.find?_append, h]
  rfl

/-- What comes after a terminal event changes nothing. -/
theorem resultOf?_append_of_some {es : List Event} {e : Event} (h : terminal? es = some e)
    (fs : List Event) : resultOf? (es ++ fs) = resultOf? es := by
  rw [resultOf?, terminal?_append_of_some h, resultOf?, h]

theorem resultOf?_eq_none {es : List Event} : resultOf? es = none ↔ terminal? es = none := by
  unfold resultOf?
  cases h : terminal? es with
  | none => simp
  | some e =>
    have he : e.isTerminal = true := List.find?_some h
    cases e <;> simp_all [Event.isTerminal, Event.result?]

/-! ## The whole response -/

/-- A last frame may stand at the end without its empty line. -/
def lastMessage (format : WireFormat) (rest : Text) : List Text :=
  if format = .sse && hasData rest then [rest] else []

def allMessages (format : WireFormat) (s : Text) : List Text :=
  messages format s ++ lastMessage format (remainder format s)

def events (format : WireFormat) (s : Text) : List Event :=
  eventsOf format (allMessages format s)

/-- The pieces of the answer in a whole response, and what the response comes to. -/
def readWhole (format : WireFormat) (s : Text) : List Text × StreamResult :=
  (pieces (events format s), (resultOf? (events format s)).getD {})

/-- A frame with a payload is not blank. -/
theorem strip_ne_nil_of_hasData {s : Text} (h : hasData s = true) : strip s ≠ [] := by
  intro hs
  obtain ⟨l, hl, hd⟩ := List.any_eq_true.mp h
  obtain ⟨t, rfl⟩ := List.isPrefixOf_iff_prefix.mp hd
  have mark : 'd' ∈ dataMark ++ t := by simp [dataMark]
  have blank := strip_eq_nil_iff.mp hs 'd' (mem_of_mem_lines hl mark)
  revert blank
  decide

namespace Chunk

def read (d : Utf8.Decoder) : Chunk → Utf8.Decoder × Text
  | text t => (d, t)
  | bytes bs => d.feed bs

def readAll (d : Utf8.Decoder) : List Chunk → Utf8.Decoder × Text
  | [] => (d, [])
  | c :: cs => ((readAll (c.read d).1 cs).1, (c.read d).2 ++ (readAll (c.read d).1 cs).2)

def textOf (cs : List Chunk) : Text :=
  (readAll .ready cs).2 ++ (readAll .ready cs).1.finish

theorem readAll_text (d : Utf8.Decoder) (ts : List Text) :
    readAll d (ts.map text) = (d, ts.flatten) := by
  induction ts with
  | nil => rfl
  | cons t ts ih => simp [readAll, read, ih]

theorem readAll_bytes (d : Utf8.Decoder) (bss : List (List UInt8)) :
    readAll d (bss.map bytes) = d.feed bss.flatten := by
  induction bss generalizing d with
  | nil => rfl
  | cons bs bss ih => simp [readAll, read, ih, Utf8.Decoder.feed_append]

theorem textOf_text (ts : List Text) : textOf (ts.map text) = ts.flatten := by
  simp [textOf, readAll_text, Utf8.Decoder.finish]

theorem textOf_bytes (bss : List (List UInt8)) :
    textOf (bss.map bytes) = Utf8.decode bss.flatten := by
  simp [textOf, readAll_bytes, Utf8.decode]

end Chunk

/-! ## Sessions -/

namespace Session

/-- The session has collected what events come to. -/
structure Reports (s : Session) (es : List Event) : Prop where
  deltas_eq : s.deltas = pieces es
  result_eq : s.result = resultOf? es

/-- A session that has ended reports the events of any longer stream. -/
theorem Reports.of_ended {s : Session} {es : List Event} {r : StreamResult} (h : s.Reports es)
    (hr : s.result = some r) (fs : List Event) : s.Reports (es ++ fs) := by
  obtain ⟨e, he, -⟩ := Option.bind_eq_some_iff.mp (h.result_eq.symm.trans hr)
  exact ⟨by rw [pieces_append_of_some he, h.deltas_eq],
    by rw [resultOf?_append_of_some he, h.result_eq]⟩

theorem absorb_buffer (s : Session) (e : Event) : (s.absorb e).buffer = s.buffer := by
  unfold absorb
  split
  · rfl
  · cases e <;> rfl

theorem absorb_decoder (s : Session) (e : Event) : (s.absorb e).decoder = s.decoder := by
  unfold absorb
  split
  · rfl
  · cases e <;> rfl

theorem absorb_reports {s : Session} {es : List Event} (h : s.Reports es) (e : Event) :
    (s.absorb e).Reports (es ++ [e]) := by
  unfold absorb
  cases hr : s.result with
  | some r =>
    exact h.of_ended hr [e]
  | none =>
    have hnone : terminal? es = none := resultOf?_eq_none.mp (h.result_eq.symm.trans hr)
    have deltas : pieces (es ++ [e]) = s.deltas ++ pieces [e] := by
      rw [pieces_append_of_none hnone, h.deltas_eq]
    have result : resultOf? (es ++ [e]) = resultOf? [e] := by
      rw [resultOf?, terminal?_append_of_none hnone]
      rfl
    cases e with
    | delta t => exact ⟨deltas.symm, result.symm⟩
    | final t => exact ⟨(deltas.trans (List.append_nil s.deltas)).symm, result.symm⟩
    | error m => exact ⟨(deltas.trans (List.append_nil s.deltas)).symm, result.symm⟩
    | ignored =>
      exact ⟨(deltas.trans (List.append_nil s.deltas)).symm, hr.trans result.symm⟩

theorem handle_buffer (s : Session) (m : Text) : (s.handle m).buffer = s.buffer := by
  unfold handle
  split
  · exact absorb_buffer s _
  · rfl

theorem handle_decoder (s : Session) (m : Text) : (s.handle m).decoder = s.decoder := by
  unfold handle
  split
  · exact absorb_decoder s _
  · rfl

theorem handle_reports {s : Session} {es : List Event} (h : s.Reports es) (m : Text) :
    (s.handle m).Reports (es ++ eventsOf s.buffer.format [m]) := by
  unfold handle
  cases hd : Event.decode s.buffer.format m with
  | ok e => simpa [eventsOf, hd, Except.toOption] using absorb_reports h e
  | error t => simpa [eventsOf, hd, Except.toOption] using h

/-- Handling messages one after the other collects what their events come to. -/
theorem foldl_handle {s : Session} {es : List Event} (h : s.Reports es) (ms : List Text) :
    (ms.foldl handle s).Reports (es ++ eventsOf s.buffer.format ms) ∧
      (ms.foldl handle s).buffer = s.buffer ∧ (ms.foldl handle s).decoder = s.decoder := by
  induction ms generalizing s es with
  | nil => simpa [eventsOf] using h
  | cons m ms ih =>
    have ih := ih (handle_reports h m)
    rw [handle_buffer, handle_decoder] at ih
    rwa [List.append_assoc, ← eventsOf_append, List.singleton_append] at ih

/-- The session has taken a text in: it has collected what the complete messages come to, and while
there is no result its buffer holds the rest. -/
structure Has (s : Session) (format : WireFormat) (t : Text) : Prop where
  reports : s.Reports (eventsOf format (messages format t))
  format_eq : s.buffer.format = format
  live : s.result = none → s.buffer.Resumable ∧ s.buffer.pending = remainder format t

theorem start_has (format : WireFormat) : (start format).Has format [] := by
  have nothing : segment format [] = ([], []) := by
    cases format <;> exact segment_none rfl
  refine ⟨?_, rfl, fun _ => ⟨Buffer.empty_resumable format, ?_⟩⟩
  · rw [messages, nothing]
    exact ⟨rfl, rfl⟩
  · rw [remainder, nothing]
    rfl

/-- A session that has ended may be taken to have read on. -/
theorem Has.of_ended {s : Session} {format : WireFormat} {t : Text} {r : StreamResult}
    (h : s.Has format t) (hr : s.result = some r) (u : Text) : s.Has format (t ++ u) := by
  refine ⟨?_, h.format_eq, fun hn => ?_⟩
  · rw [messages_append, eventsOf_append]
    exact h.reports.of_ended hr _
  · rw [hr] at hn
    cases hn

/-- Draining the buffer after it has been fed, and handling what comes out. -/
theorem drain_has {s : Session} {format : WireFormat} {t : Text} (h : s.Has format t)
    (hr : s.result = none) (u : Text) :
    ((s.buffer.feed u).drain.1.foldl handle { s with buffer := (s.buffer.feed u).drain.2 }).Has
      format (t ++ u) := by
  obtain ⟨resumable, pending⟩ := h.live hr
  obtain ⟨took, drained, rest⟩ := Buffer.drain_eq (Buffer.feed_resumable resumable u)
  have fed : (s.buffer.feed u).pending = remainder format t ++ u := by
    rw [Buffer.feed, pending]
  have format_fed : (s.buffer.feed u).format = format := h.format_eq
  rw [fed, format_fed] at drained rest
  have before : ({ s with buffer := (s.buffer.feed u).drain.2 } : Session).Reports
      (eventsOf format (messages format t)) := ⟨h.reports.deltas_eq, h.reports.result_eq⟩
  obtain ⟨reports, buffer, -⟩ := foldl_handle before (s.buffer.feed u).drain.1
  have format_eq : (s.buffer.feed u).drain.2.format = format := took.format_eq.trans format_fed
  simp only [format_eq] at reports
  refine ⟨?_, by rw [buffer]; exact format_eq, fun _ => ?_⟩
  · rwa [messages_append, eventsOf_append, ← drained]
  · rw [buffer, remainder_append]
    exact ⟨took.resumable, rest⟩

theorem push_has {s : Session} {format : WireFormat} {t : Text} (h : s.Has format t)
    (hr : s.result = none) (c : Chunk) : (s.push c).Has format (t ++ (c.read s.decoder).2) ∧
      (s.push c).decoder = (c.read s.decoder).1 := by
  have read : s.decodeChunk c =
      ((c.read s.decoder).2, { s with decoder := (c.read s.decoder).1 }) := by
    cases c <;> rfl
  rcases hc : c.read s.decoder with ⟨d, u⟩
  have decoded : ({ s with decoder := d } : Session).Has format t :=
    ⟨⟨h.reports.deltas_eq, h.reports.result_eq⟩, h.format_eq, h.live⟩
  have pushed : s.push c = if u = [] then { s with decoder := d } else
      (s.buffer.feed u).drain.1.foldl handle
        { s with decoder := d, buffer := (s.buffer.feed u).drain.2 } := by
    simp only [push, hr, read, hc]
  rw [pushed]
  split
  · rename_i empty
    rw [empty, List.append_nil]
    exact ⟨decoded, rfl⟩
  · refine ⟨drain_has decoded hr u, ?_⟩
    have before : ({ s with decoder := d, buffer := (s.buffer.feed u).drain.2 } : Session).Reports
        (eventsOf format (messages format t)) := ⟨h.reports.deltas_eq, h.reports.result_eq⟩
    exact (foldl_handle before _).2.2

/-- **After any number of chunks the session has taken in the text of all of them.** -/
theorem foldl_push_has {s : Session} {format : WireFormat} {t : Text} {d : Utf8.Decoder}
    (h : s.Has format t) (hd : s.result = none → s.decoder = d) (cs : List Chunk) :
    (cs.foldl push s).Has format (t ++ (Chunk.readAll d cs).2) ∧
      ((cs.foldl push s).result = none →
        (cs.foldl push s).decoder = (Chunk.readAll d cs).1) := by
  induction cs generalizing s t d with
  | nil => exact ⟨by simpa [Chunk.readAll] using h, hd⟩
  | cons c cs ih =>
    rw [List.foldl_cons, Chunk.readAll, ← List.append_assoc]
    cases hr : s.result with
    | some r =>
      have ended : s.push c = s := by simp only [push, hr]
      rw [ended]
      exact ih (h.of_ended hr _) (fun hn => by rw [hr] at hn; cases hn)
    | none =>
      obtain ⟨pushed, decoder⟩ := push_has h hr c
      rw [hd hr] at pushed decoder
      exact ih pushed (fun _ => decoder)

/-- The end of the input leaves complete messages alone. -/
theorem messages_finish (format : WireFormat) (t : Text) (d : Utf8.Decoder) :
    messages format (t ++ d.finish) = messages format t ∧
      remainder format (t ++ d.finish) = remainder format t ++ d.finish := by
  rcases d.finish_eq with hd | hd
  · simp [hd]
  · rw [hd, messages, remainder, segment_snoc format t (by decide) (by decide)]
    exact ⟨rfl, rfl⟩

/-- At the end of the stream a rest is handled exactly if it is a last message. -/
theorem finish_eq {s : Session} (hr : s.result = none) :
    ∃ b : Buffer, b.format = s.buffer.format ∧ s.finish =
      (lastMessage s.buffer.format (s.buffer.feed s.decoder.finish).pending).foldl handle
        { s with buffer := b } := by
  have format_eq : (s.buffer.feed s.decoder.finish).format = s.buffer.format := rfl
  simp only [finish, hr]
  generalize s.buffer.feed s.decoder.finish = b at format_eq
  refine ⟨{ Buffer.empty b.format with seen := b.seen }, format_eq, ?_⟩
  rw [← format_eq]
  cases hf : b.format with
  | json =>
    by_cases blank : strip b.pending = [] <;>
      simp [Buffer.flush, Buffer.empty, lastMessage, blank, hf]
  | sse =>
    by_cases payload : hasData b.pending = true
    · have blank := strip_ne_nil_of_hasData payload
      simp [Buffer.flush, Buffer.empty, lastMessage, blank, hf, payload]
    · by_cases blank : strip b.pending = [] <;>
        simp [Buffer.flush, Buffer.empty, lastMessage, blank, hf, payload]

theorem finish_reports {s : Session} {format : WireFormat} {t : Text} {d : Utf8.Decoder}
    (h : s.Has format t) (hd : s.result = none → s.decoder = d) :
    s.finish.Reports (events format (t ++ d.finish)) := by
  obtain ⟨complete, rest⟩ := messages_finish format t d
  rw [events, allMessages, complete, rest, eventsOf_append]
  cases hr : s.result with
  | some r =>
    have ended : s.finish = s := by simp only [finish, hr]
    rw [ended]
    exact h.reports.of_ended hr _
  | none =>
    obtain ⟨b, hb, finished⟩ := finish_eq hr
    have fed : (s.buffer.feed s.decoder.finish).pending = remainder format t ++ d.finish := by
      rw [Buffer.feed, (h.live hr).2, hd hr]
    have before : ({ s with buffer := b } : Session).Reports
        (eventsOf format (messages format t)) := ⟨h.reports.deltas_eq, h.reports.result_eq⟩
    have reports := (foldl_handle before (lastMessage format (remainder format t ++ d.finish))).1
    rw [finished, fed, h.format_eq]
    simpa only [hb, h.format_eq] using reports

end Session

/-! ## Consuming -/

/-- A session gives what the whole response says. -/
theorem consume_eq (format : WireFormat) (cs : List Chunk) :
    consume format cs = readWhole format (Chunk.textOf cs) := by
  obtain ⟨has, decoder⟩ := Session.foldl_push_has (Session.start_has format) (fun _ => rfl) cs
  have reports := Session.finish_reports has decoder
  rw [List.nil_append] at reports
  rw [consume, readWhole]
  exact Prod.ext reports.deltas_eq (congrArg (·.getD {}) reports.result_eq)

/-- What a result says of the event that ended the stream: the answer without its fence, or an
error that says something, or neither. -/
def StreamResult.Answers (r : StreamResult) : Option Event → Prop
  | some (.final t) => r.content = unfence t ∧ r.error = []
  | some (.error m) => r.content = [] ∧ r.error = m ∧ m ≠ []
  | _ => r.content = [] ∧ r.error = []

theorem readWhole_answers (format : WireFormat) (s : Text) :
    (readWhole format s).2.Answers (terminal? (events format s)) := by
  rw [readWhole, resultOf?]
  cases h : terminal? (events format s) with
  | none => exact ⟨rfl, rfl⟩
  | some e =>
    cases e with
    | delta t | ignored => exact ⟨rfl, rfl⟩
    | final t => exact ⟨rfl, rfl⟩
    | error m =>
      obtain ⟨message, -, hm⟩ := List.mem_filterMap.mp (List.mem_of_find?_eq_some h)
      have decoded : Event.decode format message = .ok (.error m) := by
        cases hd : Event.decode format message with
        | error t => simp [hd, Except.toOption] at hm
        | ok e => simpa [hd, Except.toOption] using hm
      exact ⟨rfl, rfl, Event.decode_error_ne_nil decoded⟩

theorem readWhole_isOk (format : WireFormat) (s : Text) : (readWhole format s).2.isOk = false ↔
    ∃ m, terminal? (events format s) = some (.error m) := by
  have answers := readWhole_answers format s
  unfold StreamResult.isOk
  unfold StreamResult.Answers at answers
  split at answers
  · rename_i t h
    simp [answers.2, h]
  · rename_i m h
    simp [answers.2, h]
  · rename_i no_error
    simp only [answers.2, List.isEmpty_nil, Bool.true_eq_false, false_iff]
    rintro ⟨m, h⟩
    exact no_error m h

/--
**A response comes to the same wherever it is cut.** What a session gives for chunks of text, or for
chunks of bytes, is what the whole text says: the pieces before the first terminal event, and the
result that this event gives. The result is no error exactly if that event is none.
-/
theorem consume_eq_readWhole (format : WireFormat) :
    (∀ ts : List Text, consume format (ts.map .text) = readWhole format ts.flatten) ∧
    (∀ bss : List (List UInt8),
      consume format (bss.map .bytes) = readWhole format (Utf8.decode bss.flatten)) ∧
    ∀ s : Text, (readWhole format s).2.Answers (terminal? (events format s)) ∧
      ((readWhole format s).2.isOk = false ↔
        ∃ m, terminal? (events format s) = some (.error m)) := by
  refine ⟨fun ts => ?_, fun bss => ?_, fun s => ?_⟩
  · rw [consume_eq, Chunk.textOf_text]
  · rw [consume_eq, Chunk.textOf_bytes]
  · exact ⟨readWhole_answers format s, readWhole_isOk format s⟩

end Drawbridge
