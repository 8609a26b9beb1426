import Drawbridge.Stream.Buffer

/-!
Segmentation of a whole text. The messages of a stream are defined here once more, without buffers
and cursors, by reading the text from its beginning:

* `takeBlock?`: a text through a matching brace, strings being passed over as wholes;
  `Nesting.scan_block` says that the scan of braces ends at the same place;
* `firstObject?`, `firstFrame?`: the first message of a text and what follows it;
* `segment`: all of them and the rest after the last; `messages` keeps those that can carry an
  event; `Begins` stops after some of them;
* `segment_append`: what arrives later does not change the messages that are complete, and the
  others are the messages of the rest with what has arrived;
* `segment_snoc`: a character that ends no message only lengthens the rest.
-/

namespace Drawbridge

/-! ## Matching braces -/

/-- A string through its closing quote, after its opening quote, and the rest. A backslash goes
together with the character after it. -/
def takeString? : Text → Option (Text × Text)
  | [] => none
  | '\\' :: c :: s => (takeString? s).map fun (t, r) => ('\\' :: c :: t, r)
  | c :: s => if c = '"' then some ([c], s) else (takeString? s).map fun (t, r) => (c :: t, r)

theorem eq_append_of_takeString? {s t r : Text} (h : takeString? s = some (t, r)) :
    s = t ++ r := by
  fun_induction takeString? s generalizing t with
  | case1 => cases h
  | case2 c s ih =>
    obtain ⟨⟨u, _⟩, hu, hr⟩ := Option.map_eq_some_iff.mp h
    cases hr
    simp [ih hu]
  | case3 c s =>
    cases h
    rfl
  | case4 c s _ _ ih =>
    obtain ⟨⟨u, _⟩, hu, hr⟩ := Option.map_eq_some_iff.mp h
    cases hr
    simp [ih hu]

/-- A text through the closing brace that leaves `depth` fewer open than there were, and the
rest. Braces in strings do not count. -/
def takeBlock? (depth : Nat) : Text → Option (Text × Text)
  | [] => none
  | c :: s =>
    if c = '"' then
      match _h : takeString? s with
      | none => none
      | some (t, r) => (takeBlock? depth r).map fun (u, r) => (c :: (t ++ u), r)
    else if c = '{' then (takeBlock? (depth + 1) s).map fun (t, r) => (c :: t, r)
    else if c = '}' then
      match depth with
      | 0 => some ([c], s)
      | depth + 1 => (takeBlock? depth s).map fun (t, r) => (c :: t, r)
    else (takeBlock? depth s).map fun (t, r) => (c :: t, r)
termination_by s => s.length
decreasing_by
  · have := congrArg List.length (eq_append_of_takeString? _h)
    simp only [List.length_append, List.length_cons] at this ⊢
    omega
  all_goals simp

theorem takeBlock?_plain {c : Char} (hq : c ≠ '"') (ho : c ≠ '{') (hc : c ≠ '}') (depth : Nat)
    (s : Text) :
    takeBlock? depth (c :: s) = (takeBlock? depth s).map fun (t, r) => (c :: t, r) := by
  rw [takeBlock?.eq_def]
  simp only [hq, ho, hc, if_false]

theorem takeBlock?_quote {s t r : Text} (h : takeString? s = some (t, r)) (depth : Nat) :
    takeBlock? depth ('"' :: s) = (takeBlock? depth r).map fun (u, r) => ('"' :: (t ++ u), r) := by
  rw [takeBlock?.eq_def]
  dsimp only
  rw [if_pos rfl]
  split
  · rename_i h'
    rw [h] at h'
    cases h'
  · rename_i h'
    rw [h] at h'
    cases h'
    rfl

theorem eq_append_of_takeBlock? {depth : Nat} {s t r : Text}
    (h : takeBlock? depth s = some (t, r)) : s = t ++ r := by
  fun_induction takeBlock? depth s generalizing t with
  | case1 | case2 => cases h
  | case3 depth s u v hs ih =>
    obtain ⟨⟨w, _⟩, hw, hr⟩ := Option.map_eq_some_iff.mp h
    cases hr
    simp [eq_append_of_takeString? hs, ih hw]
  | case5 s =>
    cases h
    rfl
  | case4 _ _ _ ih | case6 _ _ _ _ ih | case7 _ _ _ _ _ _ ih =>
    obtain ⟨⟨w, _⟩, hw, hr⟩ := Option.map_eq_some_iff.mp h
    cases hr
    simp [ih hw]

namespace Nesting

theorem scan_cons (σ : Nesting) (c : Char) (s : Text) : σ.scan (c :: s) =
    if σ.closes c then (some 1, outside)
    else (((σ.step c).scan s).1.map (· + 1), ((σ.step c).scan s).2) := rfl

/-- A scan of two texts one after the other is a scan of the second from where the first led. -/
theorem scan_append (σ : Nesting) (s t : Text) : σ.scan (s ++ t) =
    match σ.scan s with
    | (some n, τ) => (some n, τ)
    | (none, τ) => ((τ.scan t).1.map (s.length + ·), (τ.scan t).2) := by
  induction s generalizing σ with
  | nil => simp [scan]
  | cons c s ih =>
    rw [List.cons_append, scan_cons, scan_cons, ih]
    split
    · rfl
    · rcases (σ.step c).scan s with ⟨_ | n, τ⟩
      · simp [Function.comp_def, Nat.add_right_comm]
      · rfl

/-- Inside a string the scan passes over it as a whole. -/
theorem scan_quoted (depth : Int) (s : Text) :
    (scan ⟨depth, true, false⟩ s).1 = (takeString? s).bind fun (t, r) =>
      (scan ⟨depth, false, false⟩ r).1.map (t.length + ·) := by
  fun_induction takeString? s with
  | case1 => rfl
  | case2 c s ih =>
    have two : (scan ⟨depth, true, false⟩ ('\\' :: c :: s)).1 =
        (scan ⟨depth, true, false⟩ s).1.map (· + 2) := by
      simp [scan_cons, closes, step, Function.comp_def]
    rw [two, ih]
    cases takeString? s <;> simp [Function.comp_def]; grind
  | case3 c s =>
    simp [scan_cons, closes, step]
    grind
  | case4 c s h hc ih =>
    have one : (scan ⟨depth, true, false⟩ (c :: s)).1 =
        (scan ⟨depth, true, false⟩ s).1.map (· + 1) := by
      by_cases hb : c = '\\'
      · cases s with
        | nil => simp [hb, closes, step, scan]
        | cons d s => exact (h d s hb rfl).elim
      · simp [scan_cons, closes, step, hb, hc]
    rw [one, ih]
    cases takeString? s <;> simp [Function.comp_def]; grind

/-- Outside strings the scan ends where the block does. -/
theorem scan_block (depth : Nat) (s : Text) :
    (scan ⟨depth + 1, false, false⟩ s).1 = (takeBlock? depth s).map (·.1.length) := by
  fun_induction takeBlock? depth s with
  | case1 => rfl
  | case2 depth s h => simp [scan_cons, closes, step, scan_quoted, h]
  | case3 depth s t r h ih =>
    simp [scan_cons, closes, step, scan_quoted, h, ih, Function.comp_def]
  | case4 depth s h ih =>
    push_cast at ih
    simp [scan_cons, closes, step, ih, Function.comp_def]
  | case5 s h₁ h₂ => simp [scan_cons, closes]
  | case6 s depth h₁ h₂ ih =>
    have hd : (depth : Int) + 1 + 1 ≠ 1 := by omega
    simp [scan_cons, closes, step, ih, hd, Function.comp_def]
  | case7 depth c s h₁ h₂ h₃ ih =>
    simp [scan_cons, closes, step, ih, h₁, h₂, h₃, Function.comp_def]

end Nesting

theorem takeBlock?_append {depth : Nat} {s t r : Text} (h : takeBlock? depth s = some (t, r))
    (x : Text) : takeBlock? depth (s ++ x) = some (t, r ++ x) := by
  have hs := Nesting.scan_block depth s
  have hx := Nesting.scan_block depth (s ++ x)
  rw [h] at hs
  rw [Nesting.scan_append] at hx
  rcases hsc : Nesting.scan ⟨depth + 1, false, false⟩ s with ⟨n, τ⟩
  rw [hsc] at hs hx
  cases hs
  obtain ⟨⟨t', r'⟩, h', hlen⟩ := Option.map_eq_some_iff.mp hx.symm
  have whole : t' ++ r' = t ++ (r ++ x) := by
    rw [← eq_append_of_takeBlock? h', eq_append_of_takeBlock? h, List.append_assoc]
  obtain ⟨rfl, rfl⟩ := List.append_inj whole hlen
  exact h'

/-- A character that is no brace closes no block. -/
theorem takeBlock?_snoc {depth : Nat} {s : Text} (h : takeBlock? depth s = none) {c : Char}
    (hc : c ≠ '}') : takeBlock? depth (s ++ [c]) = none := by
  have hs := Nesting.scan_block depth s
  have hx := Nesting.scan_block depth (s ++ [c])
  rw [h] at hs
  rw [Nesting.scan_append] at hx
  rcases hsc : Nesting.scan ⟨depth + 1, false, false⟩ s with ⟨n, τ⟩
  rw [hsc] at hs hx
  cases hs
  have closed : τ.closes c = false := by simp [Nesting.closes, hc]
  simpa [Nesting.scan_cons, closed, Nesting.scan] using hx.symm

/-! ## Objects -/

/-- The first object of a text, from its opening brace through the matching one, and what
follows. -/
def firstObject? (s : Text) : Option (Text × Text) :=
  match s.dropWhile (· ≠ '{') with
  | [] => none
  | c :: s => (takeBlock? 0 s).map fun (t, r) => (c :: t, r)

theorem firstObject?_of_not_mem {s : Text} (h : '{' ∉ s) : firstObject? s = none := by
  have hd : s.dropWhile (· ≠ '{') = [] := by
    rw [← List.append_nil s, List.dropWhile_append_of_pos]
    · rfl
    · intro c hc
      have : c ≠ '{' := fun hb => h (hb ▸ hc)
      simpa using this
  rw [firstObject?, hd]

theorem firstObject?_append_cons {p : Text} (h : '{' ∉ p) (s : Text) :
    firstObject? (p ++ '{' :: s) = (takeBlock? 0 s).map fun (t, r) => ('{' :: t, r) := by
  have hd : (p ++ '{' :: s).dropWhile (· ≠ '{') = '{' :: s := by
    rw [List.dropWhile_append_of_pos]
    · simp
    · intro c hc
      have : c ≠ '{' := fun hb => h (hb ▸ hc)
      simpa using this
  rw [firstObject?, hd]

/-- The first object stands after a piece without opening braces. -/
theorem eq_append_of_firstObject? {s o r : Text} (h : firstObject? s = some (o, r)) :
    ∃ p t, '{' ∉ p ∧ o = '{' :: t ∧ s = p ++ o ++ r ∧ takeBlock? 0 (t ++ r) = some (t, r) := by
  by_cases hs : '{' ∈ s
  · obtain ⟨p, u, rfl, hp⟩ := List.eq_append_cons_of_mem hs
    rw [firstObject?_append_cons hp] at h
    obtain ⟨⟨t, _⟩, ht, hr⟩ := Option.map_eq_some_iff.mp h
    cases hr
    cases eq_append_of_takeBlock? ht
    exact ⟨p, t, hp, rfl, by simp, ht⟩
  · rw [firstObject?_of_not_mem hs] at h
    cases h

theorem firstObject?_append {s o r : Text} (h : firstObject? s = some (o, r)) (x : Text) :
    firstObject? (s ++ x) = some (o, r ++ x) := by
  obtain ⟨p, t, hp, rfl, rfl, ht⟩ := eq_append_of_firstObject? h
  have whole : p ++ '{' :: t ++ r ++ x = p ++ '{' :: (t ++ r ++ x) := by simp
  rw [whole, firstObject?_append_cons hp, takeBlock?_append ht]
  rfl

theorem firstObject?_snoc {s : Text} (h : firstObject? s = none) {c : Char} (hc : c ≠ '}') :
    firstObject? (s ++ [c]) = none := by
  by_cases hs : '{' ∈ s
  · obtain ⟨p, u, rfl, hp⟩ := List.eq_append_cons_of_mem hs
    rw [firstObject?_append_cons hp] at h
    have hu : takeBlock? 0 u = none := by simpa using h
    rw [List.append_assoc, List.cons_append, firstObject?_append_cons hp, takeBlock?_snoc hu hc]
    rfl
  · by_cases hb : c = '{'
    · rw [hb, firstObject?_append_cons hs, takeBlock?]
      rfl
    · exact firstObject?_of_not_mem (by simp [hs, Ne.symm hb])

/-! ## Frames -/

theorem emptyLineSize_eq (s : Text) : emptyLineSize s =
    if ['\r', '\n', '\r', '\n'].isPrefixOf s then 4
    else if ['\r', '\n', '\n'].isPrefixOf s then 3
    else if ['\n', '\r', '\n'].isPrefixOf s then 3
    else if ['\n', '\n'].isPrefixOf s then 2 else 0 := by
  unfold emptyLineSize
  split
  case h_5 h₁ h₂ h₃ h₄ =>
    have none_of {p : Text} (h : ∀ t, s = p ++ t → False) : ¬ p.isPrefixOf s = true := by
      intro hp
      obtain ⟨t, ht⟩ := List.isPrefixOf_iff_prefix.mp hp
      exact h t ht.symm
    rw [if_neg (none_of h₁), if_neg (none_of h₂), if_neg (none_of h₃), if_neg (none_of h₄)]
  all_goals rfl

theorem emptyLineSize_le (s : Text) : emptyLineSize s ≤ s.length := by
  unfold emptyLineSize
  split <;> simp

/-- Four characters decide whether an empty line stands at the start of a text. -/
theorem emptyLineSize_append_of_le {s : Text} (h : 4 ≤ s.length) (t : Text) :
    emptyLineSize (s ++ t) = emptyLineSize s := by
  match s, h with
  | a :: b :: c :: d :: s, _ => simp [emptyLineSize_eq, List.isPrefixOf]

theorem emptyLineSize_append_of_ne {s : Text} (h : emptyLineSize s ≠ 0) (t : Text) :
    emptyLineSize (s ++ t) = emptyLineSize s := by
  rcases s with _ | ⟨a, _ | ⟨b, _ | ⟨c, _ | ⟨d, s⟩⟩⟩⟩ <;>
    simp [emptyLineSize_eq, List.isPrefixOf] at * <;> grind

theorem emptyLineSize_snoc {c : Char} (h : c ≠ '\n') (s : Text) :
    emptyLineSize (s ++ [c]) = emptyLineSize s := by
  rcases s with _ | ⟨a, _ | ⟨b, _ | ⟨c, _ | ⟨d, s⟩⟩⟩⟩ <;>
    simp [emptyLineSize_eq, List.isPrefixOf, Ne.symm h]

theorem frameLength?_cons (c : Char) (s : Text) : frameLength? (c :: s) =
    if emptyLineSize (c :: s) = 0 then (frameLength? s).map (· + 1)
    else some (emptyLineSize (c :: s)) := by
  conv => lhs; unfold frameLength?
  split <;> simp_all

theorem frameLength?_le {s : Text} {n : Nat} (h : frameLength? s = some n) :
    0 < n ∧ n ≤ s.length := by
  induction s generalizing n with
  | nil => cases h
  | cons c s ih =>
    rw [frameLength?_cons] at h
    split at h
    · obtain ⟨m, hm, rfl⟩ := Option.map_eq_some_iff.mp h
      have := ih hm
      simp only [List.length_cons]
      omega
    · cases h
      exact ⟨by omega, emptyLineSize_le _⟩

theorem frameLength?_append {s : Text} {n : Nat} (h : frameLength? s = some n) (x : Text) :
    frameLength? (s ++ x) = some n := by
  induction s generalizing n with
  | nil => cases h
  | cons c s ih =>
    rw [frameLength?_cons] at h
    rw [List.cons_append, frameLength?_cons, ← List.cons_append]
    split at h
    · rename_i hz
      obtain ⟨m, hm, rfl⟩ := Option.map_eq_some_iff.mp h
      have none_yet : emptyLineSize (c :: s ++ x) = 0 := by
        rcases s with _ | ⟨a, _ | ⟨b, _ | ⟨d, s⟩⟩⟩
        · cases hm
        · simp [frameLength?, emptyLineSize_eq, List.isPrefixOf] at hm
        · simp [frameLength?, emptyLineSize_eq, List.isPrefixOf] at hm hz ⊢
          grind
        · rw [emptyLineSize_append_of_le (by simp), hz]
      rw [if_pos none_yet, ih hm]
      rfl
    · rename_i hz
      rw [emptyLineSize_append_of_ne hz, if_neg hz, h]

theorem frameLength?_snoc {s : Text} (h : frameLength? s = none) {c : Char} (hc : c ≠ '\n') :
    frameLength? (s ++ [c]) = none := by
  induction s with
  | nil => simp [frameLength?_cons, emptyLineSize_eq, List.isPrefixOf, frameLength?]
  | cons d s ih =>
    rw [frameLength?_cons] at h
    rw [List.cons_append, frameLength?_cons, ← List.cons_append, emptyLineSize_snoc hc]
    split at h
    · rename_i hz
      rw [if_pos hz, ih (by simpa using h)]
      rfl
    · cases h

/-- Where no frame is complete yet, the search may start three characters before the end. -/
theorem frameLength?_drop {s : Text} (h : frameLength? s = none) (t : Text) {k : Nat}
    (hk : k ≤ s.length - Buffer.overlap) :
    (frameLength? ((s ++ t).drop k)).map (k + ·) = frameLength? (s ++ t) := by
  induction k generalizing s with
  | zero => simp
  | succ k ih =>
    cases s with
    | nil => simp at hk
    | cons c s =>
      have long : 4 ≤ (c :: s).length := by
        simp only [Buffer.overlap, List.length_cons] at hk ⊢
        omega
      rw [frameLength?_cons] at h
      split at h
      · rename_i hz
        have hs : frameLength? s = none := by simpa using h
        have hk' : k ≤ s.length - Buffer.overlap := by
          simp only [Buffer.overlap, List.length_cons] at hk ⊢
          omega
        rw [List.cons_append, List.drop_succ_cons, frameLength?_cons, ← List.cons_append,
          emptyLineSize_append_of_le long, if_pos hz, ← ih hs hk']
        simp [Function.comp_def, Nat.add_right_comm]
      · cases h

/-- The first frame of a text, through its empty line, and what follows. -/
def firstFrame? (s : Text) : Option (Text × Text) :=
  (frameLength? s).map fun n => (s.take n, s.drop n)

/-! ## Messages -/

/-- The first message of a text, whether it can carry an event or not, and what follows. -/
def first? : WireFormat → Text → Option (Text × Text)
  | .json => firstObject?
  | .sse => firstFrame?

theorem first?_append {format : WireFormat} {s m r : Text} (h : first? format s = some (m, r))
    (x : Text) : first? format (s ++ x) = some (m, r ++ x) := by
  cases format with
  | json => exact firstObject?_append h x
  | sse =>
    obtain ⟨n, hn, hm⟩ := Option.map_eq_some_iff.mp h
    cases hm
    have hle := (frameLength?_le hn).2
    simp [first?, firstFrame?, frameLength?_append hn, List.take_append_of_le_length hle,
      List.drop_append_of_le_length hle]

theorem first?_snoc {format : WireFormat} {s : Text} (h : first? format s = none) {c : Char}
    (hb : c ≠ '}') (hl : c ≠ '\n') : first? format (s ++ [c]) = none := by
  cases format with
  | json => exact firstObject?_snoc h hb
  | sse =>
    have hs : frameLength? s = none := by simpa [first?, firstFrame?] using h
    simp [first?, firstFrame?, frameLength?_snoc hs hl]

theorem first?_length {format : WireFormat} {s m r : Text} (h : first? format s = some (m, r)) :
    m.length + r.length ≤ s.length ∧ 0 < m.length := by
  cases format with
  | json =>
    obtain ⟨p, t, _, rfl, rfl, _⟩ := eq_append_of_firstObject? h
    simp only [List.length_append, List.length_cons]
    omega
  | sse =>
    obtain ⟨n, hn, hm⟩ := Option.map_eq_some_iff.mp h
    cases hm
    have := frameLength?_le hn
    simp only [List.length_take, List.length_drop]
    omega

/-- The messages of a text and what is left after the last of them. -/
def segment (format : WireFormat) (s : Text) : List Text × Text :=
  match _h : first? format s with
  | none => ([], s)
  | some (m, r) => (m :: (segment format r).1, (segment format r).2)
termination_by s.length
decreasing_by all_goals have := first?_length _h; omega

theorem segment_none {format : WireFormat} {s : Text} (h : first? format s = none) :
    segment format s = ([], s) := by
  rw [segment]
  split <;> simp_all

theorem segment_some {format : WireFormat} {s m r : Text} (h : first? format s = some (m, r)) :
    segment format s = (m :: (segment format r).1, (segment format r).2) := by
  rw [segment]
  split <;> simp_all

/-- **What arrives later leaves complete messages alone.** -/
theorem segment_append (format : WireFormat) (s x : Text) : segment format (s ++ x) =
    ((segment format s).1 ++ (segment format ((segment format s).2 ++ x)).1,
      (segment format ((segment format s).2 ++ x)).2) := by
  fun_induction segment format s with
  | case1 s h => rfl
  | case2 s m r h ih =>
    rw [segment_some (first?_append h x), ih]
    rfl

/-- There is no complete message in what is left. -/
theorem first?_rest (format : WireFormat) (s : Text) :
    first? format (segment format s).2 = none := by
  fun_induction segment format s with
  | case1 s h => exact h
  | case2 s m r h ih => exact ih

theorem segment_snoc (format : WireFormat) (s : Text) {c : Char} (hb : c ≠ '}') (hl : c ≠ '\n') :
    segment format (s ++ [c]) = ((segment format s).1, (segment format s).2 ++ [c]) := by
  rw [segment_append, segment_none (first?_snoc (first?_rest format s) hb hl), List.append_nil]

theorem length_segment_le (format : WireFormat) (s : Text) :
    (segment format s).1.length ≤ s.length := by
  fun_induction segment format s with
  | case1 s h => simp
  | case2 s m r h ih =>
    have := first?_length h
    simp only [List.length_cons]
    omega

/-- The first messages of `s` are `ms`, and `t` is what follows them. -/
inductive Begins (format : WireFormat) : Text → List Text → Text → Prop
  | nil (s : Text) : Begins format s [] s
  | cons {s m r t : Text} {ms : List Text} : first? format s = some (m, r) →
      Begins format r ms t → Begins format s (m :: ms) t

namespace Begins

variable {format : WireFormat} {s t u : Text} {ms ns : List Text}

theorem trans (h : Begins format s ms t) (h' : Begins format t ns u) :
    Begins format s (ms ++ ns) u := by
  induction h with
  | nil s => exact h'
  | cons first _ ih => exact .cons first (ih h')

/-- What arrives later stands behind what follows. -/
theorem arrive (h : Begins format s ms t) (x : Text) : Begins format (s ++ x) ms (t ++ x) := by
  induction h with
  | nil s => exact .nil (s ++ x)
  | cons first _ ih => exact .cons (first?_append first x) ih

theorem segment_eq (h : Begins format s ms t) :
    segment format s = (ms ++ (segment format t).1, (segment format t).2) := by
  induction h with
  | nil s => rfl
  | cons first _ ih =>
    rw [segment_some first, ih]
    rfl

end Begins

/-- Whether a message can carry an event: objects can, and frames with a payload. -/
def carries : WireFormat → Text → Bool
  | .json, _ => true
  | .sse, m => hasData m

/-- The messages of a text that can carry an event. -/
def messages (format : WireFormat) (s : Text) : List Text :=
  (segment format s).1.filter (carries format)

def remainder (format : WireFormat) (s : Text) : Text :=
  (segment format s).2

theorem messages_append (format : WireFormat) (s t : Text) : messages format (s ++ t) =
    messages format s ++ messages format (remainder format s ++ t) := by
  rw [messages, segment_append, List.filter_append]
  rfl

theorem remainder_append (format : WireFormat) (s t : Text) :
    remainder format (s ++ t) = remainder format (remainder format s ++ t) := by
  rw [remainder, segment_append]
  rfl

end Drawbridge
