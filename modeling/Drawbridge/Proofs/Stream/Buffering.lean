import Drawbridge.Proofs.Stream.Segmentation

/-!
A buffer gives the messages of the whole text, however the text arrives. The state of a search,
cursor or search offset, is always what a search from the beginning of the buffered text comes to
(`Buffer.Resumable`), so going on from it finds what a search from the beginning finds:

* `Cursor.advance_resume`: a cursor that has found nothing goes on as a fresh one would;
* `Buffer.Took`: what taking messages does to a buffer, with `next_advances` for one attempt and
  `take_took` for a run of them;
* `Buffer.drain_eq`: a full drain takes every message and leaves the rest.
-/

namespace Drawbridge

/-! ## Cursors -/

namespace Nesting

/-- The state inside an object of which the opening brace has been read. -/
def opened : Nesting := ⟨1, false, false⟩

theorem scan_opened (s : Text) : (opened.scan s).1 = (takeBlock? 0 s).map (·.1.length) := by
  rw [opened, ← Int.zero_add 1]
  exact scan_block 0 s

theorem scan_snd_of_some {σ τ : Nesting} {s : Text} {n : Nat} (h : σ.scan s = (some n, τ)) :
    τ = outside := by
  induction s generalizing σ n with
  | nil => cases h
  | cons c s ih =>
    rw [scan_cons] at h
    split at h
    · cases h
      rfl
    · rcases hs : (σ.step c).scan s with ⟨_ | m, υ⟩
      · rw [hs] at h
        cases h
      · rw [hs] at h
        cases h
        exact ih hs

end Nesting

namespace Cursor

theorem findBrace?_eq_none {s : Text} (h : '{' ∉ s) : findBrace? s = none := by
  induction s with
  | nil => rfl
  | cons c s ih =>
    simp only [List.mem_cons, not_or] at h
    simp [findBrace?, Ne.symm h.1, ih h.2]

theorem findBrace?_append {p : Text} (h : '{' ∉ p) (s : Text) :
    findBrace? (p ++ '{' :: s) = some p.length := by
  induction p with
  | nil => simp [findBrace?]
  | cons c p ih =>
    simp only [List.mem_cons, not_or] at h
    simp [findBrace?, Ne.symm h.1, ih h.2]

/-- Where a cursor is that looks for an object and has found no brace in the first `n`
characters. -/
def seeking (n : Nat) : Cursor := ⟨n, -1, .outside⟩

theorem enter?_seeking (s t : Text) : (seeking s.length).enter? (s ++ t) =
    (findBrace? t).map fun i => ⟨(s.length + i + 1 : Nat), (s.length + i : Nat), .opened⟩ := by
  have offset : clamp (s ++ t).length s.length = s.length := by simp [clamp]
  have start : ¬ (0 : Int) ≤ -1 := by decide
  simp only [enter?, seeking, offset, if_neg start, List.drop_left]
  rfl

theorem max_length_append (s t : Text) :
    max (s.length : Int) (s ++ t).length = (s ++ t).length := by
  rw [List.length_append]
  omega

theorem advance_seeking_none (s : Text) {t : Text} (h : '{' ∉ t) :
    (seeking s.length).advance (s ++ t) = (none, seeking (s ++ t).length) := by
  simp only [advance, enter?_seeking, findBrace?_eq_none h, Option.map_none]
  simp only [seeking, max_length_append s t]

theorem enter?_inside (pos : Int) (start : Nat) (σ : Nesting) (s : Text) :
    enter? ⟨pos, start, σ⟩ s = some ⟨pos, start, σ⟩ := by
  simp [enter?]

/-- Inside an object the cursor goes on with the part that has not been examined. -/
theorem advance_inside (s t : Text) (start : Nat) (σ : Nesting) :
    advance ⟨s.length, start, σ⟩ (s ++ t) =
      match σ.scan t with
      | (some n, τ) => (some (s.length + n), ⟨(s.length + n : Nat), start, τ⟩)
      | (none, τ) => (none, ⟨(s ++ t).length, start, τ⟩) := by
  have pos := max_length_append s t
  simp only [advance, enter?_inside, Int.toNat_natCast, List.drop_left, pos]
  rfl

/-- Seeking an object, the cursor enters the first one that opens. -/
theorem advance_seeking (s : Text) {p : Text} (h : '{' ∉ p) (t : Text) :
    (seeking s.length).advance (s ++ (p ++ '{' :: t)) =
      advance ⟨(s ++ p ++ ['{']).length, (s ++ p).length, .opened⟩ (s ++ p ++ ['{'] ++ t) := by
  have entered : (seeking s.length).enter? (s ++ (p ++ '{' :: t)) =
      some ⟨(s ++ p ++ ['{']).length, (s ++ p).length, .opened⟩ := by
    simp [enter?_seeking, findBrace?_append h]
    omega
  rw [advance, entered, advance, enter?_inside]
  simp

/-- **A cursor that has found nothing goes on as a fresh one would on the longer text.** -/
theorem advance_resume {s : Text} {c : Cursor} (h : (startingAt 0).advance s = (none, c))
    (t : Text) : c.advance (s ++ t) = (startingAt 0).advance (s ++ t) := by
  have fresh : startingAt 0 = seeking ([] : Text).length := rfl
  rw [fresh] at h ⊢
  by_cases hs : '{' ∈ s
  · obtain ⟨p, u, rfl, hp⟩ := List.eq_append_cons_of_mem hs
    have whole : p ++ '{' :: u ++ t = [] ++ (p ++ '{' :: (u ++ t)) := by simp
    have begin : p ++ '{' :: u = [] ++ (p ++ '{' :: u) := rfl
    rw [begin, advance_seeking [] hp, advance_inside] at h
    rw [whole, advance_seeking [] hp, advance_inside, Nesting.scan_append]
    rcases hu : Nesting.opened.scan u with ⟨_ | n, τ⟩
    · rw [hu] at h
      cases h
      have split : [] ++ (p ++ '{' :: (u ++ t)) = [] ++ p ++ ['{'] ++ u ++ t := by simp
      rw [split, advance_inside]
      rcases ht : τ.scan t with ⟨_ | n, υ⟩
      · simp [ht]
      · simp [ht]
        omega
    · rw [hu] at h
      cases h
  · have start : (seeking ([] : Text).length).advance s = (none, seeking s.length) :=
      advance_seeking_none [] hs
    rw [start] at h
    cases h
    by_cases ht : '{' ∈ t
    · obtain ⟨p, u, rfl, hp⟩ := List.eq_append_cons_of_mem ht
      have hsp : '{' ∉ s ++ p := by simp [hs, hp]
      have whole : s ++ (p ++ '{' :: u) = [] ++ (s ++ p ++ '{' :: u) := by simp
      rw [advance_seeking s hp, whole, advance_seeking [] hsp, List.nil_append]
    · have hst : '{' ∉ s ++ t := by simp [hs, ht]
      rw [advance_seeking_none s ht]
      exact (advance_seeking_none [] hst).symm

theorem advance_of_firstObject? (p : Text) {s o r : Text} (h : firstObject? s = some (o, r)) :
    ∃ q, s = q ++ (o ++ r) ∧ (seeking p.length).advance (p ++ s) =
      (some (p ++ q ++ o).length, ⟨(p ++ q ++ o).length, (p ++ q).length, .outside⟩) := by
  obtain ⟨q, t, hq, rfl, rfl, ht⟩ := eq_append_of_firstObject? h
  have hs := Nesting.scan_opened (t ++ r)
  rw [ht] at hs
  have whole : q ++ '{' :: t ++ r = q ++ '{' :: (t ++ r) := by simp
  refine ⟨q, by simp, ?_⟩
  rw [whole]
  refine (advance_seeking p hq (t ++ r)).trans ?_
  rw [advance_inside]
  rcases hsc : Nesting.opened.scan (t ++ r) with ⟨n, τ⟩
  rw [hsc] at hs
  cases hs
  rw [Nesting.scan_snd_of_some hsc]
  simp
  omega

theorem advance_eq_none (p : Text) {s : Text} (h : firstObject? s = none) :
    ((seeking p.length).advance (p ++ s)).1 = none := by
  by_cases hs : '{' ∈ s
  · obtain ⟨q, u, rfl, hq⟩ := List.eq_append_cons_of_mem hs
    rw [firstObject?_append_cons hq] at h
    have hsc : (Nesting.opened.scan u).1 = none := by
      rw [Nesting.scan_opened, Option.map_eq_none_iff]
      simpa using h
    refine (congrArg Prod.fst (advance_seeking p hq u)).trans ?_
    rw [advance_inside]
    rcases ht : Nesting.opened.scan u with ⟨_ | n, τ⟩
    · rfl
    · rw [ht] at hsc
      cases hsc
  · exact congrArg Prod.fst (advance_seeking_none p hs)

end Cursor

/-! ## Buffers -/

namespace Buffer

/-- The state of a search says what a search of a part of the pending text comes to, which has
found no message there. -/
def Resumable (b : Buffer) : Prop :=
  ∃ done rest, b.pending = done ++ rest ∧
    match b.format with
    | .json => (Cursor.startingAt 0).advance done = (none, b.cursor)
    | .sse => frameLength? done = none ∧ b.searchFrom ≤ done.length - overlap

theorem empty_resumable (format : WireFormat) : (empty format).Resumable := by
  refine ⟨[], [], rfl, ?_⟩
  cases format with
  | json => rfl
  | sse => exact ⟨rfl, Nat.le_refl 0⟩

theorem feed_resumable {b : Buffer} (h : b.Resumable) (chunk : Text) :
    (b.feed chunk).Resumable := by
  obtain ⟨done, rest, hp, hs⟩ := h
  exact ⟨done, rest ++ chunk, by simp [feed, hp], hs⟩

/-- Taking the messages `ms` out of `b` leaves `b'`: a number of complete messages is gone, of
which `ms` are those that can carry an event. -/
structure Took (b : Buffer) (ms : List Text) (b' : Buffer) : Prop where
  format_eq : b'.format = b.format
  resumable : b'.Resumable
  begins : ∃ gone, gone.filter (carries b.format) = ms ∧
    Begins b.format b.pending gone b'.pending
  seen_eq : b'.seen = b.seen + ms.length

namespace Took

variable {b b' b'' : Buffer} {ms ms' : List Text}

theorem trans (h : Took b ms b') (h' : Took b' ms' b'') : Took b (ms ++ ms') b'' := by
  obtain ⟨gone, hg, hs⟩ := h.begins
  obtain ⟨gone', hg', hs'⟩ := h'.begins
  rw [h.format_eq] at hg' hs'
  refine ⟨h'.format_eq.trans h.format_eq, h'.resumable, ⟨gone ++ gone', ?_, hs.trans hs'⟩, ?_⟩
  · rw [List.filter_append, hg, hg']
  · rw [h'.seen_eq, h.seen_eq, List.length_append, Nat.add_assoc]

theorem messages_eq (h : Took b ms b') :
    messages b.format b.pending = ms ++ messages b.format b'.pending := by
  obtain ⟨gone, hg, hs⟩ := h.begins
  rw [messages, hs.segment_eq, List.filter_append, hg]
  rfl

theorem remainder_eq (h : Took b ms b') :
    remainder b.format b.pending = remainder b.format b'.pending := by
  obtain ⟨gone, -, hs⟩ := h.begins
  rw [remainder, hs.segment_eq]
  rfl

theorem of_first? {m : Text} (hf : b'.format = b.format) (hr : b'.Resumable)
    (h : first? b.format b.pending = some (m, b'.pending))
    (hs : b'.seen = b.seen + ([m].filter (carries b.format)).length) :
    Took b ([m].filter (carries b.format)) b' :=
  ⟨hf, hr, ⟨[m], rfl, .cons h (.nil _)⟩, hs⟩

/-- Only the state of the search has changed. -/
theorem of_pending_eq (hf : b'.format = b.format) (hr : b'.Resumable)
    (hp : b'.pending = b.pending) (hs : b'.seen = b.seen) : Took b [] b' :=
  ⟨hf, hr, ⟨[], rfl, hp ▸ .nil _⟩, by rw [hs, List.length_nil, Nat.add_zero]⟩

end Took

variable {b : Buffer}

/-- What one attempt to take a message does: it takes the message that it gives, and if it gives
none there is none. -/
def Advances (b : Buffer) (result : Option Text × Buffer) : Prop :=
  Took b result.1.toList result.2 ∧
    (result.1 = none → first? b.format result.2.pending = none)

/-- The search for an object goes on as a search from the beginning would. -/
theorem Resumable.advance_eq (hf : b.format = .json) (hr : b.Resumable) :
    b.cursor.advance b.pending = (Cursor.startingAt 0).advance b.pending := by
  obtain ⟨done, rest, hp, hs⟩ := hr
  simp only [hf] at hs
  rw [hp]
  exact Cursor.advance_resume hs rest

theorem nextObject_advances (hf : b.format = .json) (hr : b.Resumable) :
    b.Advances b.nextObject := by
  have resumed := hr.advance_eq hf
  rcases hfirst : firstObject? b.pending with _ | ⟨o, r⟩
  · rcases hadv : (Cursor.startingAt 0).advance b.pending with ⟨n, cur⟩
    have none_found : ((Cursor.startingAt 0).advance b.pending).1 = none :=
      Cursor.advance_eq_none [] hfirst
    rw [hadv] at none_found
    cases none_found
    simp only [nextObject, resumed, hadv]
    refine ⟨.of_pending_eq rfl ⟨b.pending, [], by simp, ?_⟩ rfl rfl, fun _ => ?_⟩
    · simpa only [hf] using hadv
    · simp only [hf]
      exact hfirst
  · obtain ⟨p, hpend, hadv⟩ := Cursor.advance_of_firstObject? [] hfirst
    change (Cursor.startingAt 0).advance b.pending = _ at hadv
    rw [List.nil_append] at hadv
    have cut : b.pending.take (p ++ o).length = p ++ o ∧ b.pending.drop (p ++ o).length = r := by
      rw [hpend, ← List.append_assoc]
      exact ⟨List.take_left, List.drop_left⟩
    have found : [o].filter (carries b.format) = [o] := by simp [hf, carries]
    simp only [nextObject, resumed, hadv, cut.1, cut.2, Int.toNat_natCast, List.drop_left]
    refine ⟨?_, fun h => by cases h⟩
    rw [Option.toList_some, ← found]
    refine .of_first? rfl ⟨[], r, rfl, ?_⟩ ?_ (by rw [found]; rfl)
    · simp only [hf]
      rfl
    · simp only [hf]
      exact hfirst

theorem nextFrame_advances {fuel : Nat} (hf : b.format = .sse) (hr : b.Resumable)
    (hn : b.pending.length < fuel) : b.Advances (nextFrame fuel b) := by
  induction fuel generalizing b with
  | zero => omega
  | succ fuel ih =>
    obtain ⟨done, rest, hp, hs⟩ := hr
    simp only [hf] at hs
    have resumed : frameEnd? b.pending b.searchFrom = frameLength? b.pending := by
      rw [frameEnd?, Int.toNat_natCast, hp]
      exact frameLength?_drop hs.1 rest hs.2
    rcases hlen : frameLength? b.pending with _ | n
    · simp only [nextFrame, resumed, hlen]
      refine ⟨.of_pending_eq rfl ⟨b.pending, [], by simp, ?_⟩ rfl rfl, fun _ => ?_⟩
      · simp only [hf]
        exact ⟨hlen, Nat.le_refl _⟩
      · simp [hf, first?, firstFrame?, hlen]
    · have hle := frameLength?_le hlen
      have hfirst : first? b.format b.pending = some (b.pending.take n, b.pending.drop n) := by
        simp [hf, first?, firstFrame?, hlen]
      have fresh (b' : Buffer) (hf' : b'.format = b.format) (hs' : b'.searchFrom = 0) :
          b'.Resumable := by
        refine ⟨[], b'.pending, rfl, ?_⟩
        simp only [hf', hf]
        exact ⟨rfl, by simp [hs']⟩
      by_cases hd : hasData (b.pending.take n)
      · simp only [nextFrame, resumed, hlen, hd, if_true]
        have found : [b.pending.take n].filter (carries b.format) = [b.pending.take n] := by
          simp [hf, carries, hd]
        refine ⟨?_, fun h => by cases h⟩
        rw [Option.toList_some, ← found]
        exact .of_first? rfl (fresh _ rfl rfl) hfirst (by rw [found]; rfl)
      · simp only [nextFrame, resumed, hlen, hd]
        have found : [b.pending.take n].filter (carries b.format) = [] := by
          simp [hf, carries, hd]
        have step : Took b [] { b with pending := b.pending.drop n, searchFrom := 0 } := by
          rw [← found]
          exact .of_first? rfl (fresh _ rfl rfl) hfirst (by rw [found]; rfl)
        have shorter : (b.pending.drop n).length < fuel := by
          rw [List.length_drop]
          omega
        obtain ⟨hrest, hnone⟩ := ih (by exact hf) step.resumable (by exact shorter)
        exact ⟨step.trans hrest, hnone⟩

/-- **Taking a message takes the first one of the pending text that can carry an event.** -/
theorem next_advances (hr : b.Resumable) : b.Advances b.next := by
  rcases hf : b.format with _ | _
  · simpa only [next, hf] using nextObject_advances hf hr
  · simpa only [next, hf] using nextFrame_advances hf hr (Nat.lt_succ_self _)

theorem take_took (n : Nat) (hr : b.Resumable) : Took b (b.take n).1 (b.take n).2 := by
  induction n generalizing b with
  | zero => exact .of_pending_eq rfl hr rfl rfl
  | succ n ih =>
    have step := (next_advances hr).1
    rw [take]
    rcases hnext : b.next with ⟨_ | m, b'⟩ <;> rw [hnext] at step
    · exact step
    · exact step.trans (ih step.resumable)

/-- Taking more messages than there are ends with an attempt that gives none. -/
theorem take_ends {n : Nat} (hr : b.Resumable)
    (hn : (messages b.format b.pending).length < n) :
    ∃ last : Buffer, last.Resumable ∧ last.format = b.format ∧
      last.next = (none, (b.take n).2) := by
  induction n generalizing b with
  | zero => omega
  | succ n ih =>
    have step := (next_advances hr).1
    rw [take]
    rcases hnext : b.next with ⟨_ | m, b'⟩ <;> rw [hnext] at step
    · exact ⟨b, hr, rfl, hnext⟩
    · have fewer : (messages b'.format b'.pending).length < n := by
        have := step.messages_eq
        rw [this] at hn
        rw [step.format_eq]
        simp only [Option.toList_some, List.length_append, List.length_singleton] at hn
        omega
      obtain ⟨last, resumable, format_eq, none_left⟩ := ih step.resumable fewer
      exact ⟨last, resumable, format_eq.trans step.format_eq, none_left⟩

/-- Taking more messages than there are leaves none. -/
theorem first?_take {n : Nat} (hr : b.Resumable)
    (hn : (messages b.format b.pending).length < n) :
    first? b.format (b.take n).2.pending = none := by
  obtain ⟨last, resumable, format_eq, none_left⟩ := take_ends hr hn
  have stop := (next_advances resumable).2
  rw [none_left, format_eq] at stop
  exact stop rfl

/-- There are not more messages than characters. -/
theorem length_messages_lt (format : WireFormat) (s : Text) :
    (messages format s).length < s.length + 1 :=
  Nat.lt_succ_of_le (Nat.le_trans (List.length_filter_le _ _) (length_segment_le _ _))

/-- **A full drain takes every message and leaves the rest.** -/
theorem drain_eq (hr : b.Resumable) : Took b b.drain.1 b.drain.2 ∧
    b.drain.1 = messages b.format b.pending ∧
    b.drain.2.pending = remainder b.format b.pending := by
  have taken : Took b b.drain.1 b.drain.2 := take_took (b.pending.length + 1) hr
  have rest := segment_none (first?_take hr (length_messages_lt _ _))
  have none_left : messages b.format b.drain.2.pending = [] := by
    rw [drain, messages, rest]
    rfl
  refine ⟨taken, ?_, ?_⟩
  · rw [taken.messages_eq, none_left, List.append_nil]
  · rw [taken.remainder_eq, drain, remainder, rest]

end Buffer

end Drawbridge
