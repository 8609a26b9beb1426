import Drawbridge.Proofs.Stream.Buffering

/-!
A buffer under any interleaving of feeding, draining and abandoned draining. The messages of the
whole text are found once more, by offsets and with a fresh search from the end of each message
(`messageEnds`); a `History` remembers what a buffer has been fed and what has been taken out.

* `take_messageEnds`: messages at the beginning of a text are the first ones that such searches
  find, and what is left begins where the last of them ends;
* `History.Kept`: what every action keeps (`History.act_kept`), and so every run
  (`History.run_kept`);
* `run_segments`: what a run has taken out are the first messages of what it was fed, nothing is
  lost, a full drain leaves no complete message, and a flush leaves a fresh buffer.
-/

namespace Drawbridge

/-! ## Messages by offsets -/

/-- The offset after the first message from `start` on. -/
def messageEnd? : WireFormat → Text → Nat → Option Nat
  | .json, s, start => objectEnd? s start
  | .sse, s, start => frameEnd? s start

/-- Where the message in a searched piece of text begins: an object at its opening brace, a frame
where the search began. -/
def messageIn : WireFormat → Text → Text
  | .json, s => s.dropWhile (· ≠ '{')
  | .sse, s => s

/-- The message that a search from `start` found to end at `stop`. -/
def messageAt (format : WireFormat) (s : Text) (start stop : Nat) : Text :=
  messageIn format ((s.take stop).drop start)

theorem objectEnd?_append (p s : Text) :
    objectEnd? (p ++ s) p.length =
      (firstObject? s).map fun (_, r) => (p ++ s).length - r.length := by
  cases h : firstObject? s with
  | none =>
    unfold objectEnd?
    split
    · rfl
    · exact Cursor.advance_eq_none p h
  | some found =>
    obtain ⟨o, r⟩ := found
    obtain ⟨q, hs, hadv⟩ := Cursor.advance_of_firstObject? p h
    have more := (first?_length (show first? .json s = some (o, r) from h)).2
    have longer : ¬ ((p ++ s).length : Int) ≤ p.length := by
      rw [hs]
      simp only [List.length_append]
      omega
    rw [objectEnd?, if_neg longer]
    refine (congrArg Prod.fst hadv).trans ?_
    rw [hs, Option.map_some]
    simp only [List.length_append]
    congr 1
    omega

/-- A search from an offset finds the first message of what follows the offset. -/
theorem messageEnd?_eq (format : WireFormat) (s : Text) (start : Nat) :
    messageEnd? format s start =
      (first? format (s.drop start)).map fun (_, r) => s.length - r.length := by
  cases format with
  | json =>
    by_cases inside : start ≤ s.length
    · have here := objectEnd?_append (s.take start) (s.drop start)
      rw [List.take_append_drop, List.length_take, Nat.min_eq_left inside] at here
      exact here
    · have past : s.drop start = [] := List.drop_eq_nil_of_le (by omega)
      have outside : (s.length : Int) ≤ start := Int.ofNat_le.mpr (by omega)
      rw [past]
      exact if_pos outside
  | sse =>
    show frameEnd? s start = (firstFrame? (s.drop start)).map _
    unfold frameEnd? firstFrame?
    rw [Int.toNat_natCast]
    cases h : frameLength? (s.drop start) with
    | none => rfl
    | some n =>
      have bound := frameLength?_le h
      rw [List.length_drop] at bound
      simp only [Option.map_some, List.length_drop]
      congr 1
      omega

/-- The first message of a text stands in the piece before what follows. -/
theorem messageIn_of_first? {format : WireFormat} {s m r : Text}
    (h : first? format s = some (m, r)) : ∃ q, s = q ++ r ∧ messageIn format q = m := by
  cases format with
  | json =>
    obtain ⟨q, t, hq, rfl, hs, -⟩ := eq_append_of_firstObject? h
    refine ⟨q ++ '{' :: t, hs, ?_⟩
    rw [messageIn, List.dropWhile_append_of_pos]
    · simp
    · intro c hc
      have : c ≠ '{' := fun hb => hq (hb ▸ hc)
      simpa using this
  | sse =>
    obtain ⟨n, hn, hm⟩ := Option.map_eq_some_iff.mp h
    cases hm
    exact ⟨s.take n, (List.take_append_drop n s).symm, rfl⟩

/-- The message of a search is the first one of what follows the offset. -/
theorem messageAt_of_first? {format : WireFormat} {s m r : Text} {start : Nat}
    (h : first? format (s.drop start) = some (m, r)) :
    messageAt format s start (s.length - r.length) = m ∧ s.drop (s.length - r.length) = r ∧
      start < s.length - r.length ∧ s.length - r.length ≤ s.length := by
  have size := first?_length h
  rw [List.length_drop] at size
  obtain ⟨q, hq, hm⟩ := messageIn_of_first? h
  have inside : start ≤ s.length := by omega
  have first : (s.take start).length = start := List.length_take_of_le inside
  have whole : s = s.take start ++ q ++ r := by
    rw [List.append_assoc, ← hq, List.take_append_drop]
  have stop : s.length - r.length = (s.take start ++ q).length := by
    have := congrArg List.length whole
    simp only [List.length_append] at this ⊢
    omega
  generalize s.take start = p at first whole stop
  subst whole
  have taken : (p ++ q ++ r).take (p ++ q).length = p ++ q := List.take_left
  rw [stop]
  refine ⟨?_, List.drop_left, by omega, by omega⟩
  rw [messageAt, taken, ← first, List.drop_left, hm]

/-- The messages of a text from an offset on, each with the offset after it. Every search begins
where the message before it ends. -/
def messageEnds (format : WireFormat) (s : Text) (start : Nat) : List (Nat × Text) :=
  match _h : messageEnd? format s start with
  | none => []
  | some stop => (stop, messageAt format s start stop) :: messageEnds format s stop
termination_by s.length - start
decreasing_by
  rw [messageEnd?_eq] at _h
  obtain ⟨⟨m, r⟩, hm, hstop⟩ := Option.map_eq_some_iff.mp _h
  have := messageAt_of_first? hm
  dsimp only at hstop
  omega

theorem messageEnds_none {format : WireFormat} {s : Text} {start : Nat}
    (h : first? format (s.drop start) = none) : messageEnds format s start = [] := by
  have missed : messageEnd? format s start = none := by
    rw [messageEnd?_eq, h]
    rfl
  rw [messageEnds]
  split
  · rfl
  · rename_i found
    rw [missed] at found
    cases found

theorem messageEnds_some {format : WireFormat} {s m r : Text} {start : Nat}
    (h : first? format (s.drop start) = some (m, r)) :
    messageEnds format s start =
      (s.length - r.length, m) :: messageEnds format s (s.length - r.length) := by
  have found : messageEnd? format s start = some (s.length - r.length) := by
    rw [messageEnd?_eq, h]
    rfl
  rw [messageEnds]
  split
  · rename_i missed
    rw [found] at missed
    cases missed
  · rename_i stop hstop
    rw [found] at hstop
    cases hstop
    rw [(messageAt_of_first? h).1]

/-- The offset at which the first `n` of some messages end. -/
def endOf (start : Nat) (ends : List (Nat × Text)) : Nat :=
  (ends.getLast?.map Prod.fst).getD start

theorem endOf_cons (start stop : Nat) (m : Text) (ends : List (Nat × Text)) :
    endOf start ((stop, m) :: ends) = endOf stop ends := by
  unfold endOf
  rw [List.getLast?_cons]
  cases ends.getLast? <;> rfl

/-- **Messages at the beginning of a text are the first that are found, and what is left begins
where the last of them ends.** -/
theorem take_messageEnds {format : WireFormat} {s t : Text} {ms : List Text} (start : Nat)
    (h : Begins format (s.drop start) ms t) :
    ((messageEnds format s start).take ms.length).map Prod.snd = ms ∧
      t = s.drop (endOf start ((messageEnds format s start).take ms.length)) := by
  generalize hu : s.drop start = u at h
  induction h generalizing start with
  | nil u => exact ⟨rfl, hu.symm⟩
  | cons first _ ih =>
    rw [← hu] at first
    obtain ⟨-, rest, -⟩ := messageAt_of_first? first
    obtain ⟨texts, left⟩ := ih _ rest
    rw [messageEnds_some first, List.length_cons, List.take_succ_cons, List.map_cons, texts,
      endOf_cons]
    exact ⟨rfl, left⟩

/-- If nothing is left to be found, these are all messages. -/
theorem length_messageEnds {format : WireFormat} {s t : Text} {ms : List Text} (start : Nat)
    (h : Begins format (s.drop start) ms t) (done : first? format t = none) :
    (messageEnds format s start).length = ms.length := by
  generalize hu : s.drop start = u at h
  induction h generalizing start with
  | nil u =>
    rw [messageEnds_none (hu ▸ done)]
    rfl
  | cons first _ ih =>
    rw [← hu] at first
    obtain ⟨-, rest, -⟩ := messageAt_of_first? first
    rw [messageEnds_some first, List.length_cons, List.length_cons, ih _ done rest]

/-- The rest is given up unless it can hold a message, and the buffer is as it was at first but
for the number of messages. -/
theorem flush_eq (b : Buffer) : b.flush =
    (if strip b.pending = [] ∨ b.format = .sse ∧ hasData b.pending = false then none
      else some b.pending, { Buffer.empty b.format with seen := b.seen }) := by
  unfold Buffer.flush
  dsimp only [Buffer.empty]
  by_cases blank : strip b.pending = []
  · rw [if_pos blank, if_pos (.inl blank)]
  · rw [if_neg blank]
    by_cases dropped : b.format = .sse ∧ hasData b.pending = false
    · rw [if_pos (by simpa using dropped), if_pos (Or.inr dropped)]
    · rw [if_neg (by simpa using dropped), if_neg (not_or.mpr ⟨blank, dropped⟩)]

/-! ## Histories -/

/-- What is done to a buffer. A drain may be abandoned after a number of messages. -/
inductive Action where
  | feed (chunk : Text)
  | drain
  | take (n : Nat)

/-- A buffer with all it has been fed and all that has been taken out of it. -/
structure History where
  fed : Text
  taken : List Text
  buffer : Buffer

namespace History

def start (format : WireFormat) : History :=
  ⟨[], [], .empty format⟩

def took (h : History) (result : List Text × Buffer) : History :=
  { h with taken := h.taken ++ result.1, buffer := result.2 }

def act (h : History) : Action → History
  | .feed chunk => { h with fed := h.fed ++ chunk, buffer := h.buffer.feed chunk }
  | .drain => h.took h.buffer.drain
  | .take n => h.took (h.buffer.take n)

def run (format : WireFormat) (actions : List Action) : History :=
  actions.foldl act (start format)

/-- What every action keeps: messages of the fed text are gone from its beginning, of which those
that can carry an event have been taken out and counted. -/
structure Kept (format : WireFormat) (h : History) : Prop where
  format_eq : h.buffer.format = format
  resumable : h.buffer.Resumable
  begins : ∃ gone, gone.filter (carries format) = h.taken ∧
    Begins format h.fed gone h.buffer.pending
  seen_eq : h.buffer.seen = h.taken.length

variable {format : WireFormat} {h : History}

theorem start_kept (format : WireFormat) : (start format).Kept format :=
  ⟨rfl, Buffer.empty_resumable format, ⟨[], rfl, .nil _⟩, rfl⟩

theorem took_kept (kept : h.Kept format) {result : List Text × Buffer}
    (took : Buffer.Took h.buffer result.1 result.2) : (h.took result).Kept format := by
  obtain ⟨gone, hgone, hbegins⟩ := kept.begins
  obtain ⟨more, hmore, hrest⟩ := took.begins
  rw [kept.format_eq] at hmore hrest
  refine ⟨took.format_eq.trans kept.format_eq, took.resumable, ⟨gone ++ more, ?_, ?_⟩, ?_⟩
  · rw [List.filter_append, hgone, hmore]
    rfl
  · exact hbegins.trans hrest
  · show result.2.seen = (h.taken ++ result.1).length
    rw [took.seen_eq, kept.seen_eq, List.length_append]

/-- **Every action keeps it.** -/
theorem act_kept (kept : h.Kept format) (action : Action) : (h.act action).Kept format := by
  cases action with
  | feed chunk =>
    obtain ⟨gone, hgone, hbegins⟩ := kept.begins
    exact ⟨kept.format_eq, Buffer.feed_resumable kept.resumable chunk,
      ⟨gone, hgone, hbegins.arrive chunk⟩, kept.seen_eq⟩
  | drain => exact took_kept kept (Buffer.drain_eq kept.resumable).1
  | take n => exact took_kept kept (Buffer.take_took n kept.resumable)

theorem foldl_kept (kept : h.Kept format) (actions : List Action) :
    (actions.foldl act h).Kept format := by
  induction actions generalizing h with
  | nil => exact kept
  | cons action actions ih => exact ih (act_kept kept action)

theorem run_kept (format : WireFormat) (actions : List Action) :
    (run format actions).Kept format :=
  foldl_kept (start_kept format) actions

/-- What has been taken out are the first messages of the fed text, and the pending text begins
where the last of them ends. -/
theorem Kept.first_taken (kept : h.Kept format) : ∃ n ≤ (messageEnds format h.fed 0).length,
    h.taken = (((messageEnds format h.fed 0).take n).map Prod.snd).filter (carries format) ∧
      h.buffer.pending = h.fed.drop (endOf 0 ((messageEnds format h.fed 0).take n)) := by
  obtain ⟨gone, hgone, hbegins⟩ := kept.begins
  obtain ⟨texts, left⟩ := take_messageEnds 0 hbegins
  refine ⟨gone.length, ?_, by rw [← hgone, texts], left⟩
  rw [← texts, List.length_map, List.length_take]
  exact Nat.min_le_right ..

/-- If no message is pending, every message has been taken out. -/
theorem Kept.all_taken (kept : h.Kept format) (done : first? format h.buffer.pending = none) :
    h.taken = ((messageEnds format h.fed 0).map Prod.snd).filter (carries format) ∧
      h.buffer.pending = h.fed.drop (endOf 0 (messageEnds format h.fed 0)) := by
  obtain ⟨gone, hgone, hbegins⟩ := kept.begins
  obtain ⟨texts, left⟩ := take_messageEnds 0 hbegins
  rw [← length_messageEnds 0 hbegins done, List.take_length] at texts left
  exact ⟨by rw [← hgone, texts], left⟩

theorem first?_drained (kept : h.Kept format) :
    first? format (h.act .drain).buffer.pending = none := by
  show first? format h.buffer.drain.2.pending = none
  rw [(Buffer.drain_eq kept.resumable).2.2, kept.format_eq]
  exact first?_rest format _

/-- **What a run has taken out are the first messages of what it was fed, nothing is lost, a full
drain leaves no complete message, and a flush leaves a fresh buffer.** -/
theorem run_segments (format : WireFormat) (actions : List Action) :
    let h := run format actions
    let ends := messageEnds format h.fed 0
    let drained := h.act .drain
    (∃ n ≤ ends.length,
      h.taken = ((ends.take n).map Prod.snd).filter (carries format) ∧
      h.buffer.pending = h.fed.drop (endOf 0 (ends.take n))) ∧
    h.buffer.seen = h.taken.length ∧
    (drained.taken = (ends.map Prod.snd).filter (carries format) ∧
      drained.buffer.pending = h.fed.drop (endOf 0 ends)) ∧
    h.buffer.flush =
      (if strip h.buffer.pending = [] ∨ format = .sse ∧ hasData h.buffer.pending = false then none
        else some h.buffer.pending,
      { Buffer.empty format with seen := h.buffer.seen }) := by
  intro h ends drained
  have kept : h.Kept format := run_kept format actions
  have after : drained.Kept format := act_kept kept .drain
  refine ⟨kept.first_taken, kept.seen_eq, after.all_taken (first?_drained kept), ?_⟩
  rw [flush_eq, kept.format_eq]

end History

end Drawbridge
