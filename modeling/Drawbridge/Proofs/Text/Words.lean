import Drawbridge.Markup.Tidy
import Drawbridge.Proofs.Text.Blank

/-!
Words and lines put together and cut again.

* `words_joinWith`: words with single spaces between them are read back as they are;
* `cleanLabel_isTidy`: a label that has been cleaned has nothing left to clean;
* `IsTidy.unbroken`, `IsTidy.strip_eq`: such a label fits on one line and has no blanks at its ends;
* `lines_blank_append`: the lines of a text with blanks before it; `exists_first_line`: the first one
  that is not blank;
* `lines_joinLines`: lines put together are read back as they are;
* `joinLines_lines`, `joinLines_lines_concat`: a text that only line feeds break is put together
  again from its lines, without a line feed at its end;
* `lines_strip_joinLines`: so they are if they are trimmed as a whole, up to blanks at their ends.
-/

namespace Drawbridge

/-! ## Words -/

/-- A word: not empty, and without blanks. -/
def IsWord (w : Text) : Prop :=
  w ≠ [] ∧ ∀ c ∈ w, isBlank c = false

theorem words_isWord (s : Text) : ∀ w ∈ words s, IsWord w := by
  intro w hw
  obtain ⟨hw, hne⟩ := List.mem_filter.mp hw
  refine ⟨by simpa using hne, ?_⟩
  intro c hc
  exact not_separator_of_mem_splitWhere hw hc

theorem words_eq_nil_iff {s : Text} : words s = [] ↔ ∀ c ∈ s, isBlank c = true := by
  induction s with
  | nil => simp [words, splitWhere]
  | cons c s ih =>
    unfold words at ih ⊢
    rw [splitWhere, List.forall_mem_cons]
    by_cases blank : isBlank c = true
    · rw [if_pos blank, List.filter_cons_of_neg (by simp), ih, and_iff_right blank]
    · cases splitWhere isBlank s <;> simp [blank, consHead]

/-- Words with single spaces between them are read back as they are. -/
theorem words_joinWith {ws : List Text} (h : ∀ w ∈ ws, IsWord w) :
    words (joinWith [' '] ws) = ws := by
  fun_induction joinWith [' '] ws with
  | case1 => rfl
  | case2 w =>
    obtain ⟨hne, hw⟩ := h w List.mem_cons_self
    simp [words, splitWhere_plain hw, hne]
  | case3 w ws _ ih =>
    obtain ⟨hne, hw⟩ := h w List.mem_cons_self
    have rest := ih fun v hv => h v (List.mem_cons_of_mem w hv)
    have cut := splitWhere_piece hw (show isBlank ' ' = true by decide) (joinWith [' '] ws)
    rw [words, List.append_assoc, List.singleton_append, cut,
      List.filter_cons_of_pos (by simpa using hne)]
    exact congrArg (w :: ·) rest

/-! ## Tidy labels -/

/-- A label that cleaning leaves alone: words with single spaces between them. -/
def IsTidy (l : Text) : Prop :=
  cleanLabel l = l

theorem cleanLabel_isTidy (s : Text) : IsTidy (cleanLabel s) := by
  rw [IsTidy, cleanLabel, cleanLabel, words_joinWith (words_isWord s)]

theorem joinWith_ends {ws : List Text} (h : ∀ w ∈ ws, IsWord w) :
    (∀ c ∈ (joinWith [' '] ws).head?, isBlank c = false) ∧
      ∀ c ∈ (joinWith [' '] ws).getLast?, isBlank c = false := by
  fun_induction joinWith [' '] ws with
  | case1 => simp
  | case2 w =>
    obtain ⟨-, hw⟩ := h w List.mem_cons_self
    constructor
    · intro c hc
      exact hw c (List.mem_of_mem_head? hc)
    · intro c hc
      exact hw c (List.mem_of_getLast? hc)
  | case3 w ws more ih =>
    obtain ⟨hne, hw⟩ := h w List.mem_cons_self
    have rest := ih fun v hv => h v (List.mem_cons_of_mem w hv)
    constructor
    · intro c hc
      rw [List.append_assoc, List.head?_append_of_ne_nil w hne] at hc
      exact hw c (List.mem_of_mem_head? hc)
    · intro c hc
      have full : joinWith [' '] ws ≠ [] := by
        intro hempty
        have none_left : words (joinWith [' '] ws) = ws :=
          words_joinWith fun v hv => h v (List.mem_cons_of_mem w hv)
        rw [hempty] at none_left
        exact more none_left.symm
      rw [List.getLast?_append_of_ne_nil _ full] at hc
      exact rest.2 c hc

namespace IsTidy

variable {l : Text}

theorem strip_eq (h : IsTidy l) : strip l = l := by
  have ends := joinWith_ends (words_isWord l)
  have whole : joinWith [' '] (words l) = l := h
  rw [whole] at ends
  exact strip_eq_self ends.1 ends.2

theorem eq_space (h : IsTidy l) {c : Char} (hc : c ∈ l) (hb : isBlank c = true) : c = ' ' := by
  have whole : joinWith [' '] (words l) = l := h
  rw [← whole] at hc
  rcases mem_joinWith hc with hc | ⟨w, hw, hc⟩
  · exact List.mem_singleton.mp hc
  · rw [(words_isWord l w hw).2 c hc] at hb
    cases hb

end IsTidy

theorem isBlank_of_isLineBreak {c : Char} (h : isLineBreak c = true) : isBlank c = true := by
  simp only [isLineBreak, isBlank, Bool.or_eq_true, Bool.and_eq_true, decide_eq_true_eq] at h ⊢
  omega

theorem not_lineBreak_of_not_blank {c : Char} (h : isBlank c = false) : isLineBreak c = false := by
  by_contra hb
  rw [Bool.not_eq_false] at hb
  rw [isBlank_of_isLineBreak hb] at h
  cases h

theorem IsTidy.unbroken {l : Text} (h : IsTidy l) : ∀ c ∈ l, isLineBreak c = false := by
  intro c hc
  rw [← Bool.not_eq_true]
  intro hb
  have hs := h.eq_space hc (isBlank_of_isLineBreak hb)
  subst hs
  revert hb
  decide

/-! ## Lines -/

/-- Blank lines before a text stay blank lines, and the blanks before it on its own line stay
there, whatever the text is. -/
theorem lines_blank_append {b : Text} (hb : ∀ c ∈ b, isBlank c = true) :
    ∃ ls i, (∀ l ∈ ls, strip l = []) ∧ (∀ c ∈ i, isBlank c = true ∧ isLineBreak c = false) ∧
      ∀ c s, isBlank c = false → lines (b ++ c :: s) =
        ls ++ (i ++ (lines (c :: s)).headD []) :: (lines (c :: s)).tail := by
  induction b with
  | nil =>
    refine ⟨[], [], nofun, nofun, fun c s solid => ?_⟩
    have first : lines (c :: s) ≠ [] := lines_ne_nil (List.cons_ne_nil c s)
    obtain ⟨l, ls, cut⟩ := List.exists_cons_of_ne_nil first
    rw [List.nil_append, cut]
    rfl
  | cons d b ih =>
    obtain ⟨blank, hb⟩ := List.forall_mem_cons.mp hb
    obtain ⟨ls, i, blanks, indent, cut⟩ := ih hb
    by_cases broken : isLineBreak d = true
    · -- a line feed behind a carriage return ends no further line
      by_cases pair : d = '\r' ∧ b.head? = some '\n'
      · obtain ⟨rfl, feed⟩ := pair
        obtain ⟨b, rfl⟩ := List.head?_eq_some_iff.mp feed
        refine ⟨ls, i, blanks, indent, fun c s solid => ?_⟩
        rw [← cut c s solid]
        exact (lines_break (by decide) (by decide) _).symm
      · refine ⟨[] :: ls, i, List.forall_mem_cons.mpr ⟨rfl, blanks⟩, indent, fun c s solid => ?_⟩
        rw [List.cons_append, List.cons_append, ← cut c s solid]
        refine lines_break_alone broken (fun ret feed => ?_)
        cases b with
        | nil =>
          cases feed
          revert solid
          decide
        | cons e b => exact pair ⟨ret, feed⟩
    · have plain : isLineBreak d = false := by simpa using broken
      cases ls with
      | nil =>
        refine ⟨[], d :: i, blanks, List.forall_mem_cons.mpr ⟨⟨blank, plain⟩, indent⟩,
          fun c s solid => ?_⟩
        rw [List.cons_append, lines_cons plain, cut c s solid]
        rfl
      | cons l ls =>
        obtain ⟨first, blanks⟩ := List.forall_mem_cons.mp blanks
        have longer : strip (d :: l) = [] := by rw [strip_cons_blank blank, first]
        refine ⟨(d :: l) :: ls, i, List.forall_mem_cons.mpr ⟨longer, blanks⟩, indent,
          fun c s solid => ?_⟩
        rw [List.cons_append, lines_cons plain, cut c s solid]
        rfl

/-- The first line of a text that is not blank, and what stands around it. -/
theorem exists_first_line {s : Text} (h : ¬ ∀ c ∈ s, isBlank c = true) :
    ∃ b i l r ls later, s = b ++ (l ++ r) ∧ lines s = ls ++ (i ++ l) :: later ∧
      (∀ c ∈ b, isBlank c = true) ∧ (∀ c ∈ i, isBlank c = true) ∧ (∀ k ∈ ls, strip k = []) ∧
      (∃ c u, l = c :: u ∧ isBlank c = false) ∧ ∀ c ∈ r.head?, isLineBreak c = true := by
  have some_left : s.dropWhile isBlank ≠ [] := mt List.dropWhile_eq_nil_iff.mp h
  obtain ⟨c, u, begins⟩ := List.exists_cons_of_ne_nil some_left
  have solid : isBlank c = false := by
    have first := List.head_dropWhile_not isBlank some_left
    simpa [begins] using first
  have whole : s.takeWhile isBlank ++ c :: u = s := by
    rw [← begins, List.takeWhile_append_dropWhile]
  have blank : ∀ d ∈ s.takeWhile isBlank, isBlank d = true := fun d hd =>
    List.mem_takeWhile_imp hd
  obtain ⟨ls, i, blanks, indent, cut⟩ := lines_blank_append blank
  obtain ⟨r, line, ends⟩ := exists_headD_lines (c :: u)
  have starts : (lines (c :: u)).headD [] = c :: (lines u).headD [] := by
    have plain : ∀ d ∈ [c], isLineBreak d = false := by
      simpa using not_lineBreak_of_not_blank solid
    rw [← List.singleton_append, lines_append plain (List.cons_ne_nil c [])]
    rfl
  have cut := cut c u solid
  rw [whole] at cut
  exact ⟨_, i, _, r, ls, _, by rw [← line, whole], cut, blank, fun d hd => (indent d hd).1, blanks,
    ⟨c, _, starts, solid⟩, ends⟩

theorem head?_joinLines {l : Text} (hne : l ≠ []) (ls : List Text) :
    (joinLines (l :: ls)).head? = l.head? := by
  cases ls with
  | nil => rfl
  | cons k ls =>
    show (l ++ ['\n'] ++ joinWith ['\n'] (k :: ls)).head? = l.head?
    rw [List.append_assoc, List.head?_append_of_ne_nil l hne]

/-- Lines put together are read back as they are, if the last one is not empty. -/
theorem lines_joinLines {ls : List Text} (h : ∀ l ∈ ls, ∀ c ∈ l, isLineBreak c = false)
    (hlast : ∀ l ∈ ls.getLast?, l ≠ []) : lines (joinLines ls) = ls := by
  unfold joinLines
  fun_induction joinWith ['\n'] ls with
  | case1 => rfl
  | case2 l => exact lines_plain (h l List.mem_cons_self) (hlast l rfl)
  | case3 l ls more ih =>
    have rest : lines (joinWith ['\n'] ls) = ls := by
      apply ih
      · intro k hk
        exact h k (List.mem_cons_of_mem l hk)
      · intro k hk
        apply hlast k
        rwa [List.getLast?_cons_of_ne_nil more]
    rw [List.append_assoc, List.singleton_append,
      lines_line (h l List.mem_cons_self) (by decide) (by decide), rest]

theorem joinLines_cons (l : Text) {ls : List Text} (hne : ls ≠ []) :
    joinLines (l :: ls) = l ++ '\n' :: joinLines ls := by
  obtain ⟨k, ks, rfl⟩ := List.exists_cons_of_ne_nil hne
  show l ++ ['\n'] ++ joinLines (k :: ks) = _
  rw [List.append_assoc, List.singleton_append]

theorem joinLines_consHead (c : Char) (ls : List Text) :
    joinLines (consHead c ls) = c :: joinLines ls := by
  rcases ls with _ | ⟨l, _ | ⟨k, ls⟩⟩ <;> rfl

/-- A text that only line feeds break is put together again from its lines, up to a line feed at
its end. -/
theorem joinLines_lines {s : Text} (feeds : ∀ c ∈ s, isLineBreak c = true → c = '\n')
    (last : s.getLast? ≠ some '\n') : joinLines (lines s) = s := by
  induction s with
  | nil => rfl
  | cons c s ih =>
    obtain ⟨here, others⟩ := List.forall_mem_cons.mp feeds
    have rest : s ≠ [] → joinLines (lines s) = s := by
      intro hne
      refine ih others fun feed => last ?_
      rwa [List.getLast?_cons_of_ne_nil hne]
    by_cases broken : isLineBreak c = true
    · obtain rfl := here broken
      have hne : s ≠ [] := by
        rintro rfl
        exact last rfl
      rw [lines_break broken (by decide), joinLines_cons [] (lines_ne_nil hne), rest hne]
      rfl
    · rw [lines_cons (by simpa using broken), joinLines_consHead]
      by_cases hne : s = []
      · rw [hne]
        rfl
      · rw [rest hne]

theorem joinLines_lines_concat {s : Text} (feeds : ∀ c ∈ s, isLineBreak c = true → c = '\n') :
    joinLines (lines (s ++ ['\n'])) = s := by
  induction s with
  | nil => rfl
  | cons c s ih =>
    obtain ⟨here, others⟩ := List.forall_mem_cons.mp feeds
    have more : lines (s ++ ['\n']) ≠ [] :=
      lines_ne_nil (List.append_ne_nil_of_right_ne_nil s (List.cons_ne_nil _ _))
    rw [List.cons_append]
    by_cases broken : isLineBreak c = true
    · obtain rfl := here broken
      rw [lines_break broken (by decide), joinLines_cons [] more, ih others]
      rfl
    · rw [lines_cons (by simpa using broken), joinLines_consHead, ih others]

/-- Only line feeds break lines that were put together. -/
theorem eq_feed_of_mem_joinLines {s : Text} {c : Char} (h : c ∈ joinLines (lines s))
    (broken : isLineBreak c = true) : c = '\n' := by
  rcases mem_joinWith h with h | ⟨l, hl, hc⟩
  · exact List.mem_singleton.mp h
  · rw [not_lineBreak_of_mem_lines hl c hc] at broken
    cases broken

theorem joinLines_concat (ls : List Text) : ∃ p, ∀ l, joinLines (ls ++ [l]) = p ++ l := by
  induction ls with
  | nil => exact ⟨[], fun l => rfl⟩
  | cons k ls ih =>
    obtain ⟨p, hp⟩ := ih
    refine ⟨k ++ '\n' :: p, fun l => ?_⟩
    have more : ls ++ [l] ≠ [] := List.append_ne_nil_of_right_ne_nil _ (List.cons_ne_nil l [])
    rw [List.cons_append, joinLines_cons k more, hp, List.append_assoc, List.cons_append]

/-- Lines put together and trimmed are read back, up to blanks at their ends, if the first one
begins with no blank and the last one is not blank. -/
theorem lines_strip_joinLines {ls : List Text}
    (unbroken : ∀ l ∈ ls, ∀ c ∈ l, isLineBreak c = false)
    (first : ∃ c r, joinLines ls = c :: r ∧ isBlank c = false)
    (last : ∀ l ∈ ls.getLast?, strip l ≠ []) :
    (lines (strip (joinLines ls))).map strip = ls.map strip := by
  rcases List.eq_nil_or_concat ls with rfl | ⟨init, l, rfl⟩
  · rfl
  · rw [List.concat_eq_append] at unbroken first last ⊢
    obtain ⟨p, hp⟩ := joinLines_concat init
    obtain ⟨c, r, begins, solid⟩ := first
    have some_left : stripRight l ≠ [] := by
      intro hn
      have blank := strip_eq_nil_iff.mpr (stripRight_eq_nil_iff.mp hn)
      exact last l List.getLast?_concat blank
    have trimmed : strip (joinLines (init ++ [l])) = joinLines (init ++ [stripRight l]) := by
      rw [begins, strip_cons_of_not_blank solid, ← begins, hp, hp, stripRight_append some_left]
    have pieces : ∀ k ∈ init ++ [stripRight l], ∀ c ∈ k, isLineBreak c = false := by
      intro k hk d hd
      rcases List.mem_append.mp hk with hk | hk
      · exact unbroken k (List.mem_append_left _ hk) d hd
      · rw [List.mem_singleton.mp hk] at hd
        exact unbroken l (List.mem_append_right _ (List.mem_singleton.mpr rfl)) d
          ((List.rdropWhile_prefix isBlank l).subset hd)
    rw [trimmed, lines_joinLines pieces, List.map_append, List.map_append]
    · simp only [List.map_cons, List.map_nil, strip_stripRight]
    · intro k hk
      rw [List.getLast?_concat] at hk
      cases hk
      exact some_left

end Drawbridge
