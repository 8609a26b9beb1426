import Drawbridge.Proofs.Stream.Consumption
import Drawbridge.Proofs.Stream.Interleaving

/-!
Messages that are skipped leave no trace. A text may be followed by anything where it ends between
messages (`EndsBetween`), and what a search takes as one message from its first character through
its last (`IsMessage`) is a message wherever it stands behind such a text. If it cannot be read or
is of no interest (`IsSkipped`), it changes nothing.

* `Buffer.drain_searched`: a full drain searches all that it leaves, so the cursor says whether an
  object is open there;
* `EndsBetween.allMessages_append`, `IsMessage.allMessages_append`: the messages of texts that stand
  behind one another;
* `reads_ignored`: an event of no interest changes neither the pieces nor the result;
* `consume_skips`: a response comes to the same with a skipped message and without it.
-/

namespace Drawbridge

/-! ## Searched texts -/

theorem Cursor.start_advance {s : Text} (h : '{' ∈ s) :
    0 ≤ ((startingAt 0).advance s).2.start := by
  obtain ⟨p, t, rfl, hp⟩ := List.eq_append_cons_of_mem h
  have entered : (startingAt 0).advance (p ++ '{' :: t) = _ := advance_seeking [] hp t
  rw [entered, advance_inside]
  rcases Nesting.opened.scan t with ⟨_ | n, τ⟩ <;> exact Int.natCast_nonneg _

/-- **A full drain searches all that it leaves.** -/
theorem Buffer.drain_searched {b : Buffer} (hf : b.format = .json) (hr : b.Resumable) :
    (Cursor.startingAt 0).advance b.drain.2.pending = (none, b.drain.2.cursor) := by
  obtain ⟨last, resumable, format_eq, none_left⟩ := take_ends hr (length_messages_lt _ _)
  have object := format_eq.trans hf
  simp only [next, object, nextObject, resumable.advance_eq object] at none_left
  rw [drain]
  -- draining ends only with a search that finds nothing
  rcases advanced : (Cursor.startingAt 0).advance last.pending with ⟨_ | stop, cur⟩
  · rw [advanced] at none_left
    rw [← (Prod.mk.inj none_left).2]
    exact advanced
  · rw [advanced] at none_left
    cases none_left

/-! ## Between messages -/

/-- A text ends between messages: draining it leaves no object open, or nothing of a frame. -/
def EndsBetween (format : WireFormat) (u : Text) : Prop :=
  let left := ((Buffer.empty format).feed u).drain.2
  match format with
  | .json => left.cursor.start < 0
  | .sse => left.pending = []

/-- What is left of a text that ends between messages begins no message. -/
theorem EndsBetween.remainder {format : WireFormat} {u : Text} (h : EndsBetween format u) :
    match format with
    | .json => '{' ∉ remainder format u
    | .sse => remainder format u = [] := by
  have fed := Buffer.feed_resumable (Buffer.empty_resumable format) u
  have left : ((Buffer.empty format).feed u).drain.2.pending = Drawbridge.remainder format u :=
    (Buffer.drain_eq fed).2.2
  cases format with
  | json =>
    intro opened
    -- the search has passed a brace that is left, so that the cursor is inside an object
    have searched := Buffer.drain_searched rfl fed
    rw [left] at searched
    have inside := Cursor.start_advance opened
    rw [searched] at inside
    exact absurd h (Int.not_lt.mpr inside)
  | sse => exact left.symm.trans h

theorem firstObject?_append_left {p : Text} (h : '{' ∉ p) (s : Text) :
    firstObject? (p ++ s) = firstObject? s := by
  have plain : (p ++ s).dropWhile (· ≠ '{') = s.dropWhile (· ≠ '{') := by
    apply List.dropWhile_append_of_pos
    intro c hc
    have : c ≠ '{' := fun hb => h (hb ▸ hc)
    simpa using this
  rw [firstObject?, plain]
  rfl

/-- What stands before the first brace belongs to no object. -/
theorem messages_append_left {p : Text} (h : '{' ∉ p) (s : Text) :
    messages .json (p ++ s) = messages .json s := by
  have same : first? .json (p ++ s) = first? .json s := firstObject?_append_left h s
  unfold messages
  cases found : first? .json s with
  | none => rw [segment_none found, segment_none (same.trans found)]
  | some x =>
    obtain ⟨m, r⟩ := x
    rw [segment_some found, segment_some (same.trans found)]

/-- **Behind a text that ends between messages, the messages are those of what stands there.** -/
theorem EndsBetween.allMessages_append {format : WireFormat} {u : Text}
    (h : EndsBetween format u) (s : Text) :
    allMessages format (u ++ s) = messages format u ++ allMessages format s := by
  have left := h.remainder
  rw [allMessages, messages_append, remainder_append, List.append_assoc, allMessages]
  cases format with
  | json =>
    rw [messages_append_left left]
    rfl
  | sse => rw [left, List.nil_append]

/-! ## A skipped message -/

/-- A search takes a text as one message from its first character through its last. -/
structure IsMessage (format : WireFormat) (m : Text) : Prop where
  ends : messageEnd? format m 0 = some m.length
  starts : messageIn format m = m

/-- A message that cannot be read or is of no interest. -/
def IsSkipped (format : WireFormat) (m : Text) : Prop :=
  (∃ span, Event.decode format m = .error span) ∨ Event.decode format m = .ok .ignored

theorem IsMessage.first?_eq {format : WireFormat} {m : Text} (h : IsMessage format m) :
    first? format m = some (m, []) := by
  have found := h.ends
  rw [messageEnd?_eq, List.drop_zero] at found
  obtain ⟨⟨o, r⟩, first, stop⟩ := Option.map_eq_some_iff.mp found
  have size := first?_length first
  have rest : r = [] := by
    apply List.eq_nil_of_length_eq_zero
    dsimp only at stop
    omega
  obtain ⟨q, whole, here⟩ := messageIn_of_first? first
  rw [rest, List.append_nil] at whole
  rw [first, rest, ← here, ← whole, h.starts]

/-- **A message comes before the messages behind it.** -/
theorem IsMessage.allMessages_append {format : WireFormat} {m : Text} (h : IsMessage format m)
    (s : Text) : allMessages format (m ++ s) =
      [m].filter (carries format) ++ allMessages format s := by
  have first : first? format (m ++ s) = some (m, s) := first?_append h.first?_eq s
  rw [allMessages, messages, remainder, segment_some first, ← List.singleton_append,
    List.filter_append, List.append_assoc]
  rfl

theorem IsSkipped.eventsOf {format : WireFormat} {m : Text} (h : IsSkipped format m) :
    eventsOf format [m] = [] ∨ eventsOf format [m] = [.ignored] := by
  rcases h with ⟨span, unread⟩ | ignored
  · exact .inl (by simp [Drawbridge.eventsOf, unread, Except.toOption])
  · exact .inr (by simp [Drawbridge.eventsOf, ignored, Except.toOption])

/-- **An event of no interest changes neither the pieces nor the result.** -/
theorem reads_ignored (es fs : List Event) :
    pieces (es ++ .ignored :: fs) = pieces (es ++ fs) ∧
      resultOf? (es ++ .ignored :: fs) = resultOf? (es ++ fs) := by
  cases h : terminal? es with
  | some e =>
    rw [pieces_append_of_some h, pieces_append_of_some h, resultOf?_append_of_some h,
      resultOf?_append_of_some h]
    exact ⟨rfl, rfl⟩
  | none =>
    rw [pieces_append_of_none h, pieces_append_of_none h, resultOf?, resultOf?,
      terminal?_append_of_none h, terminal?_append_of_none h]
    exact ⟨rfl, rfl⟩

/-- A text reads the same with a skipped message and without it. -/
theorem readWhole_skip {format : WireFormat} {u m : Text} (between : EndsBetween format u)
    (message : IsMessage format m) (skipped : IsSkipped format m) (v : Text) :
    readWhole format (u ++ m ++ v) = readWhole format (u ++ v) := by
  have with_message : events format (u ++ m ++ v) = eventsOf format (messages format u) ++
      (eventsOf format ([m].filter (carries format)) ++ events format v) := by
    rw [events, List.append_assoc, between.allMessages_append, message.allMessages_append,
      eventsOf_append, eventsOf_append]
    rfl
  have without : events format (u ++ v) =
      eventsOf format (messages format u) ++ events format v := by
    rw [events, between.allMessages_append, eventsOf_append]
    rfl
  have nothing : eventsOf format ([m].filter (carries format)) = [] ∨
      eventsOf format ([m].filter (carries format)) = [.ignored] := by
    by_cases carried : carries format m = true
    · rw [List.filter_cons_of_pos carried]
      exact skipped.eventsOf
    · rw [List.filter_cons_of_neg carried]
      exact .inl rfl
  rw [readWhole, readWhole, with_message, without]
  rcases nothing with none_left | ignored
  · rw [none_left, List.nil_append]
  · obtain ⟨pieces_eq, result_eq⟩ := reads_ignored (eventsOf format (messages format u))
      (events format v)
    rw [ignored, List.singleton_append, pieces_eq, result_eq]

/--
**Skipped messages are invisible.** Behind a text that ends between messages, a message that cannot
be read or is of no interest may stand or not: the pieces and the result are the same, whatever
follows and wherever the two responses are cut.
-/
theorem consume_skips {format : WireFormat} {u m v : Text} (between : EndsBetween format u)
    (message : IsMessage format m) (skipped : IsSkipped format m) {cs cs' : List Chunk}
    (whole : Chunk.textOf cs = u ++ m ++ v) (short : Chunk.textOf cs' = u ++ v) :
    consume format cs = consume format cs' := by
  rw [consume_eq, consume_eq, whole, short, readWhole_skip between message skipped]

/-- A piece with a character of two bytes, and a closing brace that closes nothing. -/
def pieceBefore : Text :=
  "\x7b\"chunk\": \"é\"\x7d \x7d\n".toList

/-- Balanced braces, one of them in a string, that are no JSON. -/
def brokenObject : Text :=
  "\x7boops \x7b\"\x7d\"\x7d\x7d".toList

def answerBehind : Text :=
  "\x7b\"mermaidCode\": \"A\", \"done\": true\x7d".toList

/-- The broken object is skipped in a response of bytes that is cut inside a character. -/
theorem consume_skips_brokenObject :
    EndsBetween .json pieceBefore ∧ IsMessage .json brokenObject ∧ IsSkipped .json brokenObject ∧
    consume .json [.bytes ((Utf8.encode (pieceBefore ++ brokenObject ++ answerBehind)).take 12),
        .bytes ((Utf8.encode (pieceBefore ++ brokenObject ++ answerBehind)).drop 12)] =
      (["é".toList], { content := "A".toList }) := by
  have between : EndsBetween .json pieceBefore := by
    show (_ : Int) < 0
    decide +kernel
  have message : IsMessage .json brokenObject := ⟨by decide +kernel, by decide +kernel⟩
  have unread : (Event.decode .json brokenObject).toOption = none := by decide +kernel
  have skipped : IsSkipped .json brokenObject := by
    cases decoded : Event.decode .json brokenObject with
    | error span => exact .inl ⟨span, decoded⟩
    | ok e =>
      rw [decoded] at unread
      cases unread
  have short : Chunk.textOf [.text (pieceBefore ++ answerBehind)] =
      pieceBefore ++ answerBehind := by
    decide +kernel
  refine ⟨between, message, skipped, ?_⟩
  rw [consume_skips between message skipped (by decide +kernel) short]
  decide +kernel

end Drawbridge
