import Drawbridge.Proofs.Text.Words

/-!
The normal form of a user's text. `IsClean` says what a clean text is without saying how it is made.
Each of the passes that clean a text leaves a clean text alone, and none undoes what the passes
before it did:

* `cleanText_isClean`: what comes out is clean;
* `cleanText_eq_self_iff`: just the clean texts are left alone, so cleaning twice is cleaning once
  (`cleanText_cleanText`);
* `visible_cleanText`: of what can be seen nothing is lost, so cleaning leaves nothing only where
  there was nothing to be seen (`cleanText_eq_nil_iff`).
-/

namespace Drawbridge

/-- A text that needs no cleaning. -/
structure IsClean (s : Text) : Prop where
  noReturn : '\r' ∉ s
  noZeroWidth : ∀ c ∈ s, isZeroWidth c = false
  /-- No space and no tab stands at the end of a line. -/
  lineEnds : ∀ c ∈ [' ', '\t'], ¬ [c, '\n'] <:+: s ∧ ¬ [c] <:+ s
  /-- There are no two empty lines in a row. -/
  noRun : ¬ ['\n', '\n', '\n'] <:+: s
  starts : ∀ c ∈ s.head?, isBlank c = false
  stops : ∀ c ∈ s.getLast?, isBlank c = false

/-- A character that is seen, or takes room among others that are. -/
def isVisible (c : Char) : Bool :=
  !isBlank c && !isZeroWidth c

def visible (s : Text) : Text :=
  s.filter isVisible

theorem visible_cons_blank {c : Char} (h : isBlank c = true) (s : Text) :
    visible (c :: s) = visible s :=
  List.filter_cons_of_neg (by simp [isVisible, h])

theorem visible_cons_congr {s t : Text} (c : Char) (h : visible s = visible t) :
    visible (c :: s) = visible (c :: t) := by
  simp only [visible, List.filter_cons] at h ⊢
  rw [h]

/-! ## Line feeds alone -/

theorem mem_unifyNewlines {s : Text} {c : Char} (h : c ∈ unifyNewlines s) : c ≠ '\r' := by
  fun_induction unifyNewlines s with
  | case1 => cases h
  | case2 s ih | case3 s _ ih =>
    rcases List.mem_cons.mp h with rfl | h
    · decide
    · exact ih h
  | case4 d s _ other ih =>
    rcases List.mem_cons.mp h with rfl | h
    · exact other
    · exact ih h

theorem unifyNewlines_eq_self {s : Text} (h : '\r' ∉ s) : unifyNewlines s = s := by
  fun_induction unifyNewlines s with
  | case1 => rfl
  | case2 s ih | case3 s _ ih => exact absurd List.mem_cons_self h
  | case4 c s _ _ ih => rw [ih fun hs => h (List.mem_cons_of_mem c hs)]

theorem visible_unifyNewlines (s : Text) : visible (unifyNewlines s) = visible s := by
  have feed : isBlank '\n' = true := by decide
  have ret : isBlank '\r' = true := by decide
  fun_induction unifyNewlines s with
  | case1 => rfl
  | case2 s ih =>
    rw [visible_cons_blank feed, visible_cons_blank ret, visible_cons_blank feed, ih]
  | case3 s _ ih => rw [visible_cons_blank feed, visible_cons_blank ret, ih]
  | case4 c s _ _ ih => exact visible_cons_congr c ih

/-! ## Characters without width -/

theorem visible_filter (s : Text) : visible (s.filter fun c => !isZeroWidth c) = visible s := by
  rw [visible, List.filter_filter]
  apply List.filter_congr
  intro c _
  cases hc : isZeroWidth c <;> simp [isVisible, hc]

/-! ## Line ends -/

/-- Whether a line ends before the text does or right there. -/
def atLineEnd : Text → Bool
  | [] => true
  | c :: _ => c = '\n'

/-- No space and no tab is followed by the end of its line. -/
def EndsTrimmed (s : Text) : Prop :=
  ∀ c t, c :: t <:+ s → isGap c = true → atLineEnd t = false

theorem isGap_iff {c : Char} : isGap c = true ↔ c ∈ [' ', '\t'] := by
  simp [isGap]

theorem isBlank_of_isGap {c : Char} (h : isGap c = true) : isBlank c = true := by
  rcases List.mem_pair.mp (isGap_iff.mp h) with rfl | rfl <;> decide

theorem endsTrimmed_nil : EndsTrimmed [] := by
  intro c t h
  cases List.suffix_nil.mp h

theorem EndsTrimmed.cons {c : Char} {s : Text} (h : EndsTrimmed s)
    (hc : isGap c = true → atLineEnd s = false) : EndsTrimmed (c :: s) := by
  intro d t ht
  rcases List.suffix_cons_iff.mp ht with same | ht
  · cases same
    exact hc
  · exact h d t ht

theorem EndsTrimmed.of_cons {c : Char} {s : Text} (h : EndsTrimmed (c :: s)) :
    (isGap c = true → atLineEnd s = false) ∧ EndsTrimmed s :=
  ⟨h c s List.suffix_rfl, fun d t ht => h d t (ht.trans (List.suffix_cons c s))⟩

/-- That is to say that no line ends in a space or a tab, the last one included. -/
theorem endsTrimmed_iff {s : Text} :
    EndsTrimmed s ↔ ∀ c ∈ [' ', '\t'], ¬ [c, '\n'] <:+: s ∧ ¬ [c] <:+ s := by
  simp only [← isGap_iff]
  constructor
  · intro h c gap
    constructor
    · rintro ⟨p, t, whole⟩
      have suffix : c :: '\n' :: t <:+ s := ⟨p, by simpa using whole⟩
      cases h c _ suffix gap
    · intro suffix
      cases h c [] suffix gap
  · intro h c t suffix gap
    obtain ⟨inside, last⟩ := h c gap
    cases t with
    | nil => exact absurd suffix last
    | cons d t =>
      by_contra ends
      obtain rfl : d = '\n' := by simpa [atLineEnd] using ends
      have start : [c, '\n'] <+: c :: '\n' :: t := List.prefix_append [c, '\n'] t
      exact inside (start.isInfix.trans suffix.isInfix)

theorem dropRightWhile_cons (p : Char → Bool) (c : Char) (s : Text) :
    dropRightWhile p (c :: s) =
      if p c = true ∧ dropRightWhile p s = [] then [] else c :: dropRightWhile p s := by
  unfold dropRightWhile
  rw [List.reverse_cons, List.dropWhile_append]
  by_cases rest : s.reverse.dropWhile p = []
  · by_cases hc : p c = true <;> simp [hc, rest]
  · simp [rest]

theorem exists_splitWhere (p : Char → Bool) (s : Text) : ∃ w ws, splitWhere p s = w :: ws := by
  induction s with
  | nil => exact ⟨[], [], rfl⟩
  | cons c s ih =>
    obtain ⟨w, ws, h⟩ := ih
    rw [splitWhere, h]
    split
    · exact ⟨[], w :: ws, rfl⟩
    · exact ⟨c :: w, ws, rfl⟩

/-- What follows a line is the same whatever the line is. -/
theorem exists_joinLines (ls : List Text) :
    ∃ u, atLineEnd u = true ∧ ∀ l, joinLines (l :: ls) = l ++ u := by
  cases ls with
  | nil => exact ⟨[], rfl, fun l => (List.append_nil l).symm⟩
  | cons k ls => exact ⟨'\n' :: joinLines (k :: ls), rfl, fun l => joinLines_cons l (by simp)⟩

/-- **A character is dropped from the end of its line if it and the rest of the line are gaps.** -/
theorem trimLineEnds_cons (c : Char) (s : Text) :
    trimLineEnds (c :: s) =
      if isGap c = true ∧ atLineEnd (trimLineEnds s) = true then trimLineEnds s
      else c :: trimLineEnds s := by
  obtain ⟨l, ls, cut⟩ := exists_splitWhere (· = '\n') s
  obtain ⟨u, ends, join⟩ := exists_joinLines (ls.map (dropRightWhile isGap))
  have rest : trimLineEnds s = dropRightWhile isGap l ++ u := by
    rw [trimLineEnds, cut, List.map_cons, join]
  by_cases feed : c = '\n'
  · subst feed
    have solid : ¬ isGap '\n' = true := by decide
    rw [if_neg fun h => solid h.1, trimLineEnds, trimLineEnds, cut]
    simp only [splitWhere, decide_true, if_true, cut, List.map_cons]
    exact joinLines_cons _ (List.cons_ne_nil _ _)
  · have first : splitWhere (· = '\n') (c :: s) = (c :: l) :: ls := by
      simp [splitWhere, feed, cut, consHead]
    have start : atLineEnd (dropRightWhile isGap l ++ u) = true ↔ dropRightWhile isGap l = [] := by
      cases kept : dropRightWhile isGap l with
      | nil => simp [ends]
      | cons d k =>
        have inside : d ∈ l :=
          (List.rdropWhile_prefix isGap l).subset (by rw [← dropRightWhile_eq, kept]; simp)
        have plain : (decide (d = '\n')) = false :=
          not_separator_of_mem_splitWhere (cut ▸ List.mem_cons_self) inside
        simp [atLineEnd, of_decide_eq_false plain]
    simp only [rest, start]
    rw [trimLineEnds, first, List.map_cons, join, dropRightWhile_cons]
    split
    · rename_i gone
      rw [gone.2]
    · rfl

theorem endsTrimmed_trimLineEnds (s : Text) : EndsTrimmed (trimLineEnds s) := by
  induction s with
  | nil => exact endsTrimmed_nil
  | cons c s ih =>
    rw [trimLineEnds_cons]
    split
    · exact ih
    · rename_i stays
      exact ih.cons fun gap => eq_false_of_ne_true fun ends => stays ⟨gap, ends⟩

theorem trimLineEnds_subset (s : Text) : trimLineEnds s ⊆ s := by
  induction s with
  | nil => exact List.nil_subset _
  | cons c s ih =>
    rw [trimLineEnds_cons]
    split
    · exact List.subset_cons_of_subset c ih
    · exact List.cons_subset_cons c ih

theorem trimLineEnds_eq_self {s : Text} (h : EndsTrimmed s) : trimLineEnds s = s := by
  induction s with
  | nil => rfl
  | cons c s ih =>
    obtain ⟨here, rest⟩ := h.of_cons
    rw [trimLineEnds_cons, ih rest, if_neg]
    rintro ⟨gap, ends⟩
    rw [here gap] at ends
    cases ends

theorem visible_trimLineEnds (s : Text) : visible (trimLineEnds s) = visible s := by
  induction s with
  | nil => rfl
  | cons c s ih =>
    rw [trimLineEnds_cons]
    split
    · rename_i gone
      rw [ih, visible_cons_blank (isBlank_of_isGap gone.1)]
    · exact visible_cons_congr c ih

/-! ## Empty lines -/

/-- What becomes of the first character when `n` line feeds before it have been kept. -/
theorem squeezeNewlines_cases (n : Nat) (c : Char) (s : Text) :
    (c = '\n' ∧ n < 2 ∧ squeezeNewlines n (c :: s) = c :: squeezeNewlines (n + 1) s) ∨
    (c = '\n' ∧ 2 ≤ n ∧ squeezeNewlines n (c :: s) = squeezeNewlines n s) ∨
    (c ≠ '\n' ∧ squeezeNewlines n (c :: s) = c :: squeezeNewlines 0 s) := by
  rw [squeezeNewlines]
  by_cases feed : c = '\n'
  · rw [if_pos feed]
    by_cases room : n < 2
    · exact .inl ⟨feed, room, if_pos room⟩
    · exact .inr (.inl ⟨feed, Nat.not_lt.mp room, if_neg room⟩)
  · exact .inr (.inr ⟨feed, if_neg feed⟩)

theorem squeezeNewlines_subset (n : Nat) (s : Text) : squeezeNewlines n s ⊆ s := by
  induction s generalizing n with
  | nil => exact List.nil_subset _
  | cons c s ih =>
    rcases squeezeNewlines_cases n c s with ⟨-, -, same⟩ | ⟨-, -, same⟩ | ⟨-, same⟩ <;> rw [same]
    · exact List.cons_subset_cons c (ih _)
    · exact List.subset_cons_of_subset c (ih _)
    · exact List.cons_subset_cons c (ih _)

theorem visible_squeezeNewlines (n : Nat) (s : Text) :
    visible (squeezeNewlines n s) = visible s := by
  have feed : isBlank '\n' = true := by decide
  induction s generalizing n with
  | nil => rfl
  | cons c s ih =>
    rcases squeezeNewlines_cases n c s with ⟨-, -, same⟩ | ⟨rfl, -, same⟩ | ⟨-, same⟩ <;> rw [same]
    · exact visible_cons_congr c (ih _)
    · rw [ih, visible_cons_blank feed]
    · exact visible_cons_congr c (ih _)

/-- The first line feed of a run stays, so a line ends where it did. -/
theorem atLineEnd_squeezeNewlines (s : Text) : atLineEnd (squeezeNewlines 0 s) = atLineEnd s := by
  cases s with
  | nil => rfl
  | cons c s =>
    rcases squeezeNewlines_cases 0 c s with ⟨-, -, same⟩ | ⟨-, full, -⟩ | ⟨-, same⟩
    · rw [same]
      rfl
    · cases full
    · rw [same]
      rfl

theorem EndsTrimmed.squeezeNewlines {s : Text} (h : EndsTrimmed s) (n : Nat) :
    EndsTrimmed (squeezeNewlines n s) := by
  have feed : ¬ isGap '\n' = true := by decide
  induction s generalizing n with
  | nil => exact endsTrimmed_nil
  | cons c s ih =>
    rcases squeezeNewlines_cases n c s with ⟨rfl, -, same⟩ | ⟨-, -, same⟩ | ⟨-, same⟩ <;> rw [same]
    · exact (ih h.of_cons.2 _).cons fun gap => absurd gap feed
    · exact ih h.of_cons.2 _
    · refine (ih h.of_cons.2 _).cons fun gap => ?_
      rw [atLineEnd_squeezeNewlines]
      exact h.of_cons.1 gap

/-- Behind `n` line feeds there is room for fewer than `3 - n` more. -/
theorem not_run_prefix {n : Nat} (h : n ≤ 2) (s : Text) :
    ¬ List.replicate (3 - n) '\n' <+: squeezeNewlines n s := by
  induction s generalizing n with
  | nil => simp [squeezeNewlines]; omega
  | cons c s ih =>
    rcases squeezeNewlines_cases n c s with ⟨-, room, same⟩ | ⟨-, -, same⟩ | ⟨other, same⟩ <;>
      rw [same]
    · have one : 3 - n = (3 - (n + 1)) + 1 := by omega
      rw [one, List.replicate_succ, List.cons_prefix_cons]
      exact fun run => ih (by omega) run.2
    · exact ih h
    · have one : 3 - n = (2 - n) + 1 := by omega
      rw [one, List.replicate_succ, List.cons_prefix_cons]
      exact fun run => other run.1.symm

/-- **No run is left that is too long.** -/
theorem not_run_squeezeNewlines {n : Nat} (h : n ≤ 2) (s : Text) :
    ¬ ['\n', '\n', '\n'] <:+: squeezeNewlines n s := by
  induction s generalizing n with
  | nil => simp [squeezeNewlines]
  | cons c s ih =>
    rcases squeezeNewlines_cases n c s with ⟨-, room, same⟩ | ⟨-, -, same⟩ | ⟨other, same⟩ <;>
      rw [same]
    · rw [List.infix_cons_iff, List.cons_prefix_cons]
      rintro (⟨-, run⟩ | run)
      · have shorter : List.replicate (3 - (n + 1)) '\n' <+: List.replicate 2 '\n' :=
          List.prefix_replicate_iff.mpr ⟨by rw [List.length_replicate]; omega, by simp⟩
        exact not_run_prefix (by omega) s (shorter.trans run)
      · exact ih (by omega) run
    · exact ih h
    · rw [List.infix_cons_iff, List.cons_prefix_cons]
      rintro (⟨same, -⟩ | run)
      · exact other same.symm
      · exact ih (by omega) run

theorem squeezeNewlines_eq_self {n : Nat} (h : n ≤ 2) {s : Text}
    (clean : ¬ ['\n', '\n', '\n'] <:+: List.replicate n '\n' ++ s) : squeezeNewlines n s = s := by
  induction s generalizing n with
  | nil => rfl
  | cons c s ih =>
    rcases squeezeNewlines_cases n c s with ⟨rfl, room, same⟩ | ⟨rfl, full, -⟩ | ⟨-, same⟩
    · rw [same, ih (by omega)]
      rwa [List.replicate_succ', List.append_assoc]
    · obtain rfl : n = 2 := by omega
      exact absurd (List.prefix_append ['\n', '\n', '\n'] s).isInfix clean
    · rw [same, ih (by omega)]
      have rest : s <:+ List.replicate n '\n' ++ c :: s :=
        (List.suffix_cons c s).trans (List.suffix_append _ _)
      exact fun run => clean (run.trans rest.isInfix)

/-! ## The whole -/

theorem visible_stripRight (s : Text) : visible (stripRight s) = visible s := by
  induction s using List.reverseRecOn with
  | nil => rfl
  | append_singleton s c ih =>
    by_cases hc : isBlank c = true
    · have unseen : visible [c] = [] := visible_cons_blank hc []
      rw [stripRight_snoc_blank hc, ih, visible, visible, List.filter_append]
      exact ((congrArg (visible s ++ ·) unseen).trans (List.append_nil _)).symm
    · rw [stripRight_snoc_of_not_blank (by simpa using hc)]

theorem visible_strip (s : Text) : visible (strip s) = visible s := by
  rw [strip, visible_stripRight]
  induction s with
  | nil => rfl
  | cons c s ih =>
    by_cases hc : isBlank c = true
    · rw [visible_cons_blank hc, ← ih, stripLeft, List.dropWhile_cons_of_pos hc]
      rfl
    · rw [stripLeft, List.dropWhile_cons_of_neg hc]

/-- **Of what can be seen nothing is lost.** -/
theorem visible_cleanText (s : Text) : visible (cleanText s) = visible s := by
  rw [cleanText, visible_strip, visible_squeezeNewlines, visible_trimLineEnds, visible_filter,
    visible_unifyNewlines]

/-- **What comes out is clean.** The last pass keeps a piece of the text with no blank at an end. -/
theorem cleanText_isClean (s : Text) : IsClean (cleanText s) := by
  set wide := (unifyNewlines s).filter fun c => !isZeroWidth c with wide_eq
  have whole : cleanText s <:+: squeezeNewlines 0 (trimLineEnds wide) := strip_isInfix _
  have kept : ∀ c ∈ cleanText s, c ∈ wide := fun c hc =>
    trimLineEnds_subset _ (squeezeNewlines_subset 0 _ (whole.subset hc))
  obtain ⟨starts, stops⟩ :=
    strip_eq_self_iff.mp (strip_strip (squeezeNewlines 0 (trimLineEnds wide)))
  have trimmed := endsTrimmed_iff.mp ((endsTrimmed_trimLineEnds wide).squeezeNewlines 0)
  refine ⟨?_, ?_, ?_, ?_, starts, stops⟩
  · intro hr
    exact mem_unifyNewlines (List.mem_of_mem_filter (kept _ hr)) rfl
  · intro c hc
    simpa using (List.mem_filter.mp (kept c hc)).2
  · intro c gap
    refine ⟨fun inside => (trimmed c gap).1 (inside.trans whole), fun last => ?_⟩
    have blank := isBlank_of_isGap (isGap_iff.mpr gap)
    obtain ⟨p, same⟩ := last
    have atEnd : c ∈ (cleanText s).getLast? := by rw [← same, List.getLast?_concat]; rfl
    rw [stops c atEnd] at blank
    cases blank
  · exact fun run => not_run_squeezeNewlines (by decide) _ (run.trans whole)

/-- **Just the clean texts are left alone.** -/
theorem cleanText_eq_self_iff {s : Text} : cleanText s = s ↔ IsClean s := by
  refine ⟨fun h => h ▸ cleanText_isClean s, fun h => ?_⟩
  have wide : s.filter (fun c => !isZeroWidth c) = s :=
    List.filter_eq_self.mpr fun c hc => by rw [h.noZeroWidth c hc]; rfl
  rw [cleanText, unifyNewlines_eq_self h.noReturn, wide,
    trimLineEnds_eq_self (endsTrimmed_iff.mpr h.lineEnds),
    squeezeNewlines_eq_self (Nat.zero_le 2) h.noRun, strip_eq_self h.starts h.stops]

theorem cleanText_cleanText (s : Text) : cleanText (cleanText s) = cleanText s :=
  cleanText_eq_self_iff.mpr (cleanText_isClean s)

theorem IsClean.eq_nil {s : Text} (h : IsClean s) (unseen : visible s = []) : s = [] := by
  cases s with
  | nil => rfl
  | cons c s =>
    have first : isVisible c = false := by
      simpa using List.filter_eq_nil_iff.mp unseen c List.mem_cons_self
    rw [isVisible, h.starts c rfl, h.noZeroWidth c List.mem_cons_self] at first
    cases first

/-- **Cleaning leaves nothing just where there was nothing to be seen.** -/
theorem cleanText_eq_nil_iff {s : Text} : cleanText s = [] ↔ ∀ c ∈ s, isVisible c = false := by
  have unseen : visible s = [] ↔ ∀ c ∈ s, isVisible c = false := by
    simp [visible, List.filter_eq_nil_iff]
  rw [← unseen]
  constructor
  · intro h
    rw [← visible_cleanText, h]
    rfl
  · intro h
    exact (cleanText_isClean s).eq_nil ((visible_cleanText s).trans h)

end Drawbridge
