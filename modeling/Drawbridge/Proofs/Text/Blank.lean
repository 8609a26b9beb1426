import Mathlib.Data.List.DropRight
import Drawbridge.Proofs.Text.Cutting
import Drawbridge.Text.Blank

/-!
White space at the ends of a text, and lines.

* `strip_eq_nil_iff`, `strip_eq_self_iff`: what `strip` makes nothing of, and what it leaves alone;
* `stripRight_append_cons`, `stripRight_append`: what becomes of the blanks at the end of two texts,
  with one between them or none;
* `strip_stripRight`, `strip_strip`: blanks at the end, or all of them, may be dropped beforehand;
* `isInfix_strip_iff`: what is found in a trimmed text;
* `lines_line`, `lines_append`, `lines_plain`: the first line of a text, up to what ends it, from
  some place in it or to the end; `exists_headD_lines`: what stands behind it;
* `mem_of_mem_lines`: lines consist of characters of the text.
-/

namespace Drawbridge

/-! ## Blanks at the ends -/

theorem dropRightWhile_eq (p : Char → Bool) (s : Text) :
    dropRightWhile p s = s.rdropWhile p := rfl

theorem strip_eq_nil_iff {s : Text} : strip s = [] ↔ ∀ c ∈ s, isBlank c = true := by
  rw [strip, stripRight, dropRightWhile_eq, List.rdropWhile_eq_nil_iff, stripLeft]
  constructor
  · intro h
    by_cases hs : s.dropWhile isBlank = []
    · exact List.dropWhile_eq_nil_iff.mp hs
    · have hb := h _ (List.head_mem hs)
      have hn := List.head_dropWhile_not isBlank hs
      rw [hb] at hn
      cases hn
  · intro h c hc
    exact h c (List.dropWhile_subset isBlank hc)

theorem strip_isInfix (s : Text) : strip s <:+: s :=
  (List.rdropWhile_prefix isBlank _).isInfix.trans (List.dropWhile_suffix isBlank).isInfix

theorem strip_eq_self {s : Text} (hl : ∀ c ∈ s.head?, isBlank c = false)
    (hr : ∀ c ∈ s.getLast?, isBlank c = false) : strip s = s := by
  cases s with
  | nil => rfl
  | cons c s =>
    have head : stripLeft (c :: s) = c :: s := by simp [stripLeft, hl c rfl]
    rw [strip, head, stripRight, dropRightWhile_eq, List.rdropWhile_eq_self_iff]
    intro h
    simp [hr _ (List.getLast_mem_getLast? h)]

/-- Only such a text is left alone. -/
theorem strip_eq_self_iff {s : Text} : strip s = s ↔
    (∀ c ∈ s.head?, isBlank c = false) ∧ ∀ c ∈ s.getLast?, isBlank c = false := by
  refine ⟨fun h => ?_, fun h => strip_eq_self h.1 h.2⟩
  have left : stripLeft s = s := by
    have whole : stripLeft s <:+ s := List.dropWhile_suffix isBlank
    apply whole.eq_of_length_le
    calc s.length = (strip s).length := by rw [h]
      _ ≤ (stripLeft s).length := (List.rdropWhile_prefix isBlank (stripLeft s)).length_le
  have right : stripRight s = s := by
    rw [strip, left] at h
    exact h
  constructor
  · intro c hc
    obtain ⟨r, rfl⟩ := List.head?_eq_some_iff.mp hc
    rw [stripLeft, List.dropWhile_eq_self_iff] at left
    exact eq_false_of_ne_true (left (Nat.zero_lt_succ _))
  · intro c hc
    rw [stripRight, dropRightWhile_eq, List.rdropWhile_eq_self_iff] at right
    have last := right (List.ne_nil_of_mem (List.mem_of_getLast? hc))
    rw [List.getLast_of_mem_getLast? hc] at last
    exact eq_false_of_ne_true last

theorem strip_cons_blank {c : Char} (h : isBlank c = true) (s : Text) :
    strip (c :: s) = strip s := by
  rw [strip, stripLeft, List.dropWhile_cons_of_pos h]
  rfl

/-- A text that begins with no blank can lose blanks at its end only. -/
theorem strip_cons_of_not_blank {c : Char} (h : isBlank c = false) (s : Text) :
    strip (c :: s) = stripRight (c :: s) := by
  rw [strip, stripLeft, List.dropWhile_cons_of_neg (by simp [h])]

theorem stripRight_snoc_blank {c : Char} (h : isBlank c = true) (s : Text) :
    stripRight (s ++ [c]) = stripRight s :=
  List.rdropWhile_concat_pos isBlank s c h

theorem stripRight_snoc_of_not_blank {c : Char} (h : isBlank c = false) (s : Text) :
    stripRight (s ++ [c]) = s ++ [c] :=
  List.rdropWhile_concat_neg isBlank s c (by simp [h])

/-- Blanks at the end of a text are dropped from its second part, and from the first part only if
nothing is left of the second. -/
theorem stripRight_append_cons (s t : Text) (c : Char) :
    stripRight (s ++ c :: t) = stripRight s ∨ ∃ u, stripRight (s ++ c :: t) = s ++ c :: u := by
  induction t using List.reverseRecOn with
  | nil =>
    by_cases hc : isBlank c = true
    · exact .inl (stripRight_snoc_blank hc s)
    · exact .inr ⟨[], stripRight_snoc_of_not_blank (by simpa using hc) s⟩
  | append_singleton t d ih =>
    have whole : s ++ c :: (t ++ [d]) = s ++ c :: t ++ [d] := by simp
    rw [whole]
    by_cases hd : isBlank d = true
    · rwa [stripRight_snoc_blank hd]
    · exact .inr ⟨t ++ [d], by rw [stripRight_snoc_of_not_blank (by simpa using hd)]; simp⟩

/-- Blanks at the end are dropped from the second of two texts, if something is left of it. -/
theorem stripRight_append {q : Text} (h : stripRight q ≠ []) (p : Text) :
    stripRight (p ++ q) = p ++ stripRight q := by
  have some_left : (q.reverse.dropWhile isBlank).isEmpty = false := by
    rw [List.isEmpty_eq_false_iff]
    intro hq
    exact h (by rw [stripRight, dropRightWhile, hq, List.reverse_nil])
  rw [stripRight, dropRightWhile, List.reverse_append, List.dropWhile_append, some_left]
  simp [stripRight, dropRightWhile]

theorem stripRight_eq_nil_iff {s : Text} : stripRight s = [] ↔ ∀ c ∈ s, isBlank c = true := by
  rw [stripRight, dropRightWhile_eq, List.rdropWhile_eq_nil_iff]

theorem stripRight_cons_of_not_blank {c : Char} (h : isBlank c = false) (s : Text) :
    stripRight (c :: s) = c :: stripRight s := by
  induction s using List.reverseRecOn with
  | nil => exact stripRight_snoc_of_not_blank h []
  | append_singleton s d ih =>
    rw [← List.cons_append]
    by_cases hd : isBlank d = true
    · rw [stripRight_snoc_blank hd, stripRight_snoc_blank hd, ih]
    · have solid : isBlank d = false := by simpa using hd
      rw [stripRight_snoc_of_not_blank solid, stripRight_snoc_of_not_blank solid, List.cons_append]

/-- Blanks at the end may be dropped before a text is trimmed. -/
theorem strip_stripRight (s : Text) : strip (stripRight s) = strip s := by
  induction s with
  | nil => rfl
  | cons c s ih =>
    by_cases hc : isBlank c = true
    · by_cases hs : stripRight s = []
      · have blank := stripRight_eq_nil_iff.mp hs
        have all : ∀ d ∈ c :: s, isBlank d = true := List.forall_mem_cons.mpr ⟨hc, blank⟩
        rw [stripRight_eq_nil_iff.mpr all, strip_eq_nil_iff.mpr all]
        rfl
      · have first : stripRight (c :: s) = c :: stripRight s := stripRight_append hs [c]
        rw [first, strip_cons_blank hc, strip_cons_blank hc, ih]
    · have solid : isBlank c = false := by simpa using hc
      have twice : stripRight (stripRight s) = stripRight s := List.rdropWhile_idempotent isBlank s
      rw [stripRight_cons_of_not_blank solid, strip_cons_of_not_blank solid,
        strip_cons_of_not_blank solid, stripRight_cons_of_not_blank solid,
        stripRight_cons_of_not_blank solid, twice]

theorem strip_strip (s : Text) : strip (strip s) = strip s := by
  have start : stripLeft (stripLeft s) = stripLeft s := List.dropWhile_idempotent isBlank s
  show strip (stripRight (stripLeft s)) = _
  rw [strip_stripRight, strip, start]
  rfl

/-- What begins with no blank is left when blanks are dropped from the front of a text. -/
theorem isInfix_dropWhile_blank {w t : Text} (hw : ∀ c ∈ w.head?, isBlank c = false)
    (h : w <:+: t) : w <:+: t.dropWhile isBlank := by
  induction t with
  | nil => exact h
  | cons d t ih =>
    by_cases hd : isBlank d = true
    · rw [List.dropWhile_cons_of_pos hd]
      rcases List.infix_cons_iff.mp h with hp | h
      · cases w with
        | nil => exact List.nil_infix
        | cons e w =>
          obtain ⟨rfl, -⟩ := List.cons_prefix_cons.mp hp
          rw [hw e rfl] at hd
          cases hd
      · exact ih h
    · rwa [List.dropWhile_cons_of_neg hd]

/-- What has no blank at its ends stands in a text just if it stands in the trimmed one. -/
theorem isInfix_strip_iff {w t : Text} (hl : ∀ c ∈ w.head?, isBlank c = false)
    (hr : ∀ c ∈ w.getLast?, isBlank c = false) : w <:+: strip t ↔ w <:+: t := by
  refine ⟨fun h => h.trans (strip_isInfix t), fun h => ?_⟩
  have start := List.reverse_infix.mpr (isInfix_dropWhile_blank hl h)
  have ends := isInfix_dropWhile_blank (by rwa [List.head?_reverse]) start
  have whole := List.reverse_infix.mpr ends
  rwa [List.reverse_reverse] at whole

/-! ## Lines -/

theorem lines_cons {c : Char} (h : isLineBreak c = false) (s : Text) :
    lines (c :: s) = consHead c (lines s) := by
  have hr : c ≠ '\r' := by
    rintro rfl
    revert h
    decide
  cases s <;> simp [lines, h, hr]

theorem lines_break {c : Char} (h : isLineBreak c = true) (hr : c ≠ '\r') (s : Text) :
    lines (c :: s) = [] :: lines s := by
  cases s <;> simp [lines, h, hr]

/-- A line up to the character that ends it. -/
theorem lines_line {l : Text} (hl : ∀ c ∈ l, isLineBreak c = false) {c : Char}
    (h : isLineBreak c = true) (hr : c ≠ '\r') (s : Text) :
    lines (l ++ c :: s) = l :: lines s := by
  induction l with
  | nil => exact lines_break h hr s
  | cons d l ih =>
    rw [List.cons_append, lines_cons (hl d List.mem_cons_self),
      ih fun e he => hl e (List.mem_cons_of_mem d he)]
    rfl

theorem lines_break_alone {c : Char} {s : Text} (h : isLineBreak c = true)
    (hr : c = '\r' → s.head? ≠ some '\n') : lines (c :: s) = [] :: lines s := by
  by_cases ret : c = '\r'
  · subst ret
    cases s with
    | nil => rfl
    | cons d s =>
      have other : d ≠ '\n' := fun feed => hr rfl (congrArg some feed)
      simp [lines, other, show isLineBreak '\r' = true from h]
  · exact lines_break h ret s

/-- What a text begins with, up to any place in its first line, its first line begins with. -/
theorem lines_append {p : Text} (hp : ∀ c ∈ p, isLineBreak c = false) (hne : p ≠ []) (s : Text) :
    lines (p ++ s) = (p ++ (lines s).headD []) :: (lines s).tail := by
  induction p with
  | nil => exact (hne rfl).elim
  | cons c p ih =>
    rw [List.cons_append, lines_cons (hp c List.mem_cons_self)]
    cases p with
    | nil =>
      rw [List.nil_append]
      cases lines s <;> rfl
    | cons d p =>
      rw [ih (fun e he => hp e (List.mem_cons_of_mem c he)) (List.cons_ne_nil d p)]
      rfl

theorem lines_prefix {p : Text} (hp : ∀ c ∈ p, isLineBreak c = false) (hne : p ≠ []) (s : Text) :
    ∃ l ls, lines (p ++ s) = (p ++ l) :: ls :=
  ⟨_, _, lines_append hp hne s⟩

theorem lines_plain {l : Text} (hl : ∀ c ∈ l, isLineBreak c = false) (hne : l ≠ []) :
    lines l = [l] := by
  simpa [lines] using lines_append hl hne []

theorem lines_ne_nil {s : Text} (h : s ≠ []) : lines s ≠ [] := by
  fun_cases lines s with
  | case1 => exact (h rfl).elim
  | case2 s => exact List.cons_ne_nil _ _
  | case3 c s => exact List.cons_ne_nil _ _
  | case4 c s => cases lines s <;> exact List.cons_ne_nil _ _

/-- A text begins with its first line, and goes on with what ends the line. -/
theorem exists_headD_lines (s : Text) :
    ∃ r, s = (lines s).headD [] ++ r ∧ ∀ c ∈ r.head?, isLineBreak c = true := by
  fun_induction lines s with
  | case1 => exact ⟨[], rfl, nofun⟩
  | case2 s =>
    refine ⟨'\r' :: '\n' :: s, rfl, fun d hd => ?_⟩
    cases hd
    decide
  | case3 c s _ broken =>
    refine ⟨c :: s, rfl, fun d hd => ?_⟩
    cases hd
    exact broken
  | case4 c s _ _ ih =>
    obtain ⟨r, whole, ends⟩ := ih
    refine ⟨r, ?_, ends⟩
    rw [congrArg (c :: ·) whole]
    cases lines s <;> rfl

theorem mem_of_mem_lines {s l : Text} {c : Char} (hl : l ∈ lines s) (hc : c ∈ l) : c ∈ s := by
  fun_induction lines s generalizing l with
  | case1 => cases hl
  | case2 s ih =>
    rcases List.mem_cons.mp hl with rfl | hl
    · cases hc
    · exact List.mem_cons_of_mem _ (List.mem_cons_of_mem _ (ih hl hc))
  | case3 d s _ _ ih =>
    rcases List.mem_cons.mp hl with rfl | hl
    · cases hc
    · exact List.mem_cons_of_mem _ (ih hl hc)
  | case4 d s _ _ ih =>
    rcases mem_consHead hl hc with rfl | ⟨l', hl', hc'⟩
    · exact List.mem_cons_self
    · exact List.mem_cons_of_mem _ (ih hl' hc')

theorem not_lineBreak_of_mem_lines {s l : Text} (hl : l ∈ lines s) :
    ∀ c ∈ l, isLineBreak c = false := by
  fun_induction lines s generalizing l with
  | case1 => cases hl
  | case2 s ih =>
    rcases List.mem_cons.mp hl with rfl | hl
    · nofun
    · exact ih hl
  | case3 d s _ _ ih =>
    rcases List.mem_cons.mp hl with rfl | hl
    · nofun
    · exact ih hl
  | case4 d s _ plain ih =>
    intro c hc
    rcases mem_consHead hl hc with rfl | ⟨l', hl', hc'⟩
    · simpa using plain
    · exact ih hl' c hc'

end Drawbridge
