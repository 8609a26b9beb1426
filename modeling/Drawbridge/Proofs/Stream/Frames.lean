import Drawbridge.Proofs.Json.RoundTrip
import Drawbridge.Proofs.Stream.Segmentation
import Drawbridge.Proofs.Text.Blank

/-!
Written objects as frames. A frame of one line ends where it was ended (`segment_frames`), since
what is written for a text holds no line feed and no carriage return. Three other line ends are
written as they are (`isSeparator`): without them the payload of a frame is the object that was
written (`frameData_line`), with one of them in its last text it is not closed
(`frameData_unclosed`).
-/

namespace Drawbridge

open Json (escapeChar renderString renderInit renderField)

/-! ## Frames of one line -/

/-- What ends a frame: the end of its line and an empty line. -/
def frameTail : Text := ['\n', '\n']

theorem frameLength?_line {b : Text} (hb : ∀ c ∈ b, c ≠ '\n' ∧ c ≠ '\r') (r : Text) :
    frameLength? (b ++ (frameTail ++ r)) = some (b.length + 2) := by
  induction b with
  | nil => simp [frameTail, frameLength?_cons, emptyLineSize]
  | cons c b ih =>
    obtain ⟨hn, hr⟩ := hb c List.mem_cons_self
    have inside : emptyLineSize (c :: (b ++ (frameTail ++ r))) = 0 := by
      simp [emptyLineSize_eq, List.isPrefixOf, Ne.symm hn, Ne.symm hr]
    rw [List.cons_append, frameLength?_cons, if_pos inside,
      ih fun d hd => hb d (List.mem_cons_of_mem c hd)]
    simp [Nat.add_right_comm]

theorem segment_frames {bs : List Text} (h : ∀ b ∈ bs, ∀ c ∈ b, c ≠ '\n' ∧ c ≠ '\r') :
    segment .sse (bs.flatMap (· ++ frameTail)) = (bs.map (· ++ frameTail), []) := by
  induction bs with
  | nil => exact segment_none rfl
  | cons b bs ih =>
    have first : first? .sse ((b :: bs).flatMap (· ++ frameTail)) =
        some (b ++ frameTail, bs.flatMap (· ++ frameTail)) := by
      have size : (b ++ frameTail).length = b.length + 2 := by simp [frameTail]
      rw [List.flatMap_cons, first?, firstFrame?, List.append_assoc,
        frameLength?_line (h b List.mem_cons_self), ← size, ← List.append_assoc, Option.map_some,
        List.take_left, List.drop_left]
    rw [segment_some first, ih fun c hc => h c (List.mem_cons_of_mem b hc)]
    rfl

/-! ## Line ends in written texts -/

/-- The line ends that are written as they are. -/
def isSeparator (c : Char) : Bool :=
  c = '\u0085' || c = '\u2028' || c = '\u2029'

/-- Whether a text holds none of them. -/
def isUnbroken (s : Text) : Bool :=
  s.all fun c => !isSeparator c

/-- A text is broken at its first separator. -/
theorem eq_append_of_broken {v : Text} (h : isUnbroken v = false) :
    ∃ u sep w, v = u ++ sep :: w ∧ isUnbroken u = true ∧ isSeparator sep = true := by
  obtain ⟨c, hc, hsep⟩ := List.all_eq_false.mp h
  have found : v.find? isSeparator ≠ none := by
    intro hn
    exact hsep (by simpa using List.find?_eq_none.mp hn c hc)
  obtain ⟨sep, hs⟩ := Option.ne_none_iff_exists'.mp found
  obtain ⟨first, u, w, rfl, hu⟩ := List.find?_eq_some_iff_append.mp hs
  exact ⟨u, sep, w, rfl, List.all_eq_true.mpr hu, first⟩

/-- A character is written as it is, or as some characters of printed ASCII. -/
theorem escapeChar_plain_or_printed (c : Char) : (escapeChar c = [c] ∧ ' ' ≤ c) ∨
    (escapeChar c ≠ [] ∧ ∀ d ∈ escapeChar c, 0x21 ≤ d.toNat ∧ d.toNat < 0x7f) := by
  rcases Json.escapeChar_cases c with ⟨x, hx, written, -⟩ | ⟨bound, written⟩ |
    ⟨written, -, -, high⟩
  · right
    have signs : ∀ x ∈ ['"', '\\', 'n', 'r', 't', 'b', 'f'], 0x21 ≤ x.toNat ∧ x.toNat < 0x7f := by
      decide
    rw [written]
    refine ⟨List.cons_ne_nil _ _, ?_⟩
    exact List.forall_mem_cons.mpr ⟨by decide, List.forall_mem_singleton.mpr (signs x hx)⟩
  · right
    have hex : ∀ n < 16, 0x21 ≤ (Json.hexDigit n).toNat ∧ (Json.hexDigit n).toNat < 0x7f := by
      decide
    rw [written]
    refine ⟨List.cons_ne_nil _ _, ?_⟩
    intro d hd
    simp only [List.mem_cons, List.not_mem_nil, or_false] at hd
    rcases hd with rfl | rfl | rfl | rfl | rfl | rfl
    · decide
    · decide
    · decide
    · decide
    · exact hex _ (by omega)
    · exact hex _ (by omega)
  · exact .inl ⟨written, high⟩

theorem isLineBreak_of_le {c : Char} (h : ' ' ≤ c) (hc : isLineBreak c = true) :
    isSeparator c = true := by
  have low : 32 ≤ c.toNat := h
  have three : c.toNat = 0x85 ∨ c.toNat = 0x2028 ∨ c.toNat = 0x2029 := by
    simp [isLineBreak] at hc
    omega
  rcases three with h | h | h <;> simp [isSeparator, ← Char.toNat_inj, h]

/-- Written texts hold no line end but separators. -/
theorem not_newline_of_mem_escape {v : Text} {d : Char} (h : d ∈ v.flatMap escapeChar) :
    d ≠ '\n' ∧ d ≠ '\r' := by
  obtain ⟨c, -, hd⟩ := List.mem_flatMap.mp h
  rcases escapeChar_plain_or_printed c with ⟨hc, hle⟩ | ⟨-, printed⟩
  · rw [hc, List.mem_singleton] at hd
    rw [hd]
    constructor <;> rintro rfl <;> revert hle <;> decide
  · have := (printed d hd).1
    constructor <;> rintro rfl <;> revert this <;> decide

theorem not_lineBreak_of_mem_escape {v : Text} (hv : isUnbroken v = true) {d : Char}
    (h : d ∈ v.flatMap escapeChar) : isLineBreak d = false := by
  obtain ⟨c, hc, hd⟩ := List.mem_flatMap.mp h
  rw [Bool.eq_false_iff]
  intro hb
  rcases escapeChar_plain_or_printed c with ⟨hw, hle⟩ | ⟨-, printed⟩
  · rw [hw, List.mem_singleton] at hd
    subst hd
    have clean := List.all_eq_true.mp hv d hc
    rw [isLineBreak_of_le hle hb] at clean
    cases clean
  · have := printed d hd
    simp [isLineBreak] at hb
    omega

/-- Blanks that are cut off at the end of a written text were written as they are, each of them one
character of the text. -/
theorem stripRight_escape (s v : Text) : ∃ u : Text,
    stripRight (s ++ '"' :: v.flatMap escapeChar) = s ++ '"' :: u.flatMap escapeChar := by
  induction v using List.reverseRecOn with
  | nil => exact ⟨[], stripRight_snoc_of_not_blank rfl s⟩
  | append_singleton v c ih =>
    have whole : s ++ '"' :: (v ++ [c]).flatMap escapeChar =
        s ++ '"' :: v.flatMap escapeChar ++ escapeChar c := by simp
    have kept (t : Text) (d : Char) (ht : escapeChar c = t ++ [d]) (hd : isBlank d = false) :
        stripRight (s ++ '"' :: v.flatMap escapeChar ++ escapeChar c) =
          s ++ '"' :: (v ++ [c]).flatMap escapeChar := by
      rw [whole, ht, ← List.append_assoc, stripRight_snoc_of_not_blank hd]
    rw [whole]
    rcases escapeChar_plain_or_printed c with ⟨hc, -⟩ | ⟨nonempty, printed⟩
    · by_cases hb : isBlank c = true
      · rw [hc, stripRight_snoc_blank hb]
        exact ih
      · exact ⟨v ++ [c], kept [] c hc (by simpa using hb)⟩
    · have last := List.dropLast_concat_getLast nonempty
      have bounds := printed _ (List.getLast_mem nonempty)
      refine ⟨v ++ [c], kept _ _ last.symm ?_⟩
      simp [isBlank]
      omega

/-! ## Payloads -/

theorem hasData_mark (s : Text) : hasData (dataMark ++ s) = true := by
  obtain ⟨l, ls, h⟩ := lines_prefix (p := dataMark) (by decide) (by decide) s
  rw [hasData, h, List.any_cons, List.isPrefixOf_iff_prefix.mpr (List.prefix_append dataMark l)]
  rfl

theorem not_lineBreak_mark {b : Text} (hb : ∀ c ∈ b, isLineBreak c = false) :
    ∀ c ∈ dataMark ++ ' ' :: b, isLineBreak c = false := by
  have mark : ∀ c ∈ dataMark ++ [' '], isLineBreak c = false := by decide
  intro c hc
  rw [List.append_cons, List.mem_append] at hc
  rcases hc with hm | hm
  · exact mark c hm
  · exact hb c hm

theorem frameData_line {b : Text} (hb : ∀ c ∈ b, isLineBreak c = false) (hs : strip b = b) :
    frameData (dataMark ++ ' ' :: b ++ frameTail) = b := by
  have plain := not_lineBreak_mark hb
  have two : lines (dataMark ++ ' ' :: b ++ frameTail) = [dataMark ++ ' ' :: b, []] := by
    rw [frameTail, lines_line plain (by decide) (by decide)]
    rfl
  have missing : afterPrefix? dataMark [] = none := rfl
  rw [frameData, two, List.filterMap_cons, afterPrefix?_append, List.filterMap_cons, missing]
  simp [joinLines, joinWith, strip_cons_blank, isBlank, hs]

/-- A payload that is broken inside a string: the string is not closed before the end or a line
feed. -/
theorem frameData_unclosed {s v : Text} (hs : ∀ c ∈ '{' :: s, isLineBreak c = false)
    (hv : isUnbroken v = true) {sep : Char} (hsep : isSeparator sep = true) (r : Text) :
    ∃ u t : Text, (t = [] ∨ ∃ t', t = '\n' :: t') ∧
      frameData (dataMark ++ ' ' :: ('{' :: s ++ '"' :: v.flatMap escapeChar) ++ sep :: r) =
        '{' :: s ++ '"' :: (u.flatMap escapeChar ++ t) := by
  have plain := not_lineBreak_mark (b := '{' :: s ++ '"' :: v.flatMap escapeChar) <| by
    intro c hc
    rcases List.mem_append.mp hc with hm | hm
    · exact hs c hm
    · rcases List.mem_cons.mp hm with rfl | hm
      · decide
      · exact not_lineBreak_of_mem_escape hv hm
  have ends : isLineBreak sep = true ∧ sep ≠ '\r' := by
    simp only [isSeparator, Bool.or_eq_true, decide_eq_true_eq] at hsep
    rcases hsep with (rfl | rfl) | rfl <;> decide
  -- Trimming cuts into the last string only: what stands before it begins with a brace.
  have trimmed (w : Text) : ∃ u : Text, strip ('{' :: s ++ '"' :: w.flatMap escapeChar) =
      '{' :: s ++ '"' :: u.flatMap escapeChar := by
    rw [List.cons_append, strip_cons_of_not_blank (by decide), ← List.cons_append]
    exact stripRight_escape ('{' :: s) w
  obtain ⟨u, hu⟩ := trimmed v
  obtain ⟨u', hu'⟩ := trimmed u
  rw [frameData, lines_line plain ends.1 ends.2, List.filterMap_cons, afterPrefix?_append]
  simp only [Option.map_some, strip_cons_blank (c := ' ') rfl, hu]
  rcases (lines r).filterMap fun l => (afterPrefix? dataMark l).map strip with _ | ⟨y, ys⟩
  · exact ⟨u', [], .inl rfl, by simp [joinLines, joinWith, ← hu']⟩
  · have joined : joinLines (('{' :: s ++ '"' :: u.flatMap escapeChar) :: y :: ys) =
        '{' :: s ++ '"' :: u.flatMap escapeChar ++ '\n' :: joinLines (y :: ys) := by
      simp [joinLines, joinWith]
    rw [joined, List.cons_append, List.cons_append, strip_cons_of_not_blank (by decide),
      ← List.cons_append, ← List.cons_append]
    rcases stripRight_append_cons ('{' :: s ++ '"' :: u.flatMap escapeChar) (joinLines (y :: ys))
      '\n' with hn | ⟨z, hz⟩
    · rw [hn]
      obtain ⟨u'', hu''⟩ := stripRight_escape ('{' :: s) u
      exact ⟨u'', [], .inl rfl, by simpa using hu''⟩
    · exact ⟨u, '\n' :: z, .inr ⟨z, rfl⟩, by simpa using hz⟩

end Drawbridge
