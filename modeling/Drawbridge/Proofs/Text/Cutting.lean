import Drawbridge.Text.Basic

/-!
Cutting texts and joining them. What has been put together with something between is cut at the
same place again: `splitWhere_piece`, `afterPrefix?_append`, `cutAt?_append`, `takeWhile_piece` and
`dropWhile_piece` each say so of one way to cut. `takeWhile_append_cons` and what follows it tell
what is taken or dropped of two texts put together; `mem_joinWith` and `mem_consHead` tell where the
characters of the result come from.
-/

namespace Drawbridge

/-- A property of the characters of a text is checked on the text, not on all characters. -/
instance (priority := high) decidableForallMem {p : Char → Prop} [DecidablePred p] (s : Text) :
    Decidable (∀ c ∈ s, p c) :=
  List.decidableBAll p s

/-- A function that changes no element changes no list. -/
theorem map_eq_self {α : Type} {f : α → α} {l : List α} (h : ∀ a ∈ l, f a = a) : l.map f = l :=
  (List.map_congr_left h).trans (List.map_id l)

/-- A character of a class is none outside of it. -/
theorem ne_of_class {p : Char → Bool} {c d : Char} (hc : p c = true) (hd : p d = false) :
    c ≠ d := by
  rintro rfl
  rw [hc] at hd
  cases hd

/-! ## Pieces between separators -/

theorem mem_consHead {c d : Char} {l : Text} {ls : List Text} (hl : l ∈ consHead c ls)
    (hd : d ∈ l) : d = c ∨ ∃ l' ∈ ls, d ∈ l' := by
  cases ls with
  | nil =>
    simp only [consHead, List.mem_singleton] at hl
    subst hl
    exact .inl (List.mem_singleton.mp hd)
  | cons l' ls =>
    simp only [consHead, List.mem_cons] at hl
    rcases hl with rfl | hl
    · rcases List.mem_cons.mp hd with rfl | hd
      · exact .inl rfl
      · exact .inr ⟨l', List.mem_cons_self, hd⟩
    · exact .inr ⟨l, List.mem_cons_of_mem l' hl, hd⟩

theorem splitWhere_plain {p : Char → Bool} {w : Text} (hw : ∀ c ∈ w, p c = false) :
    splitWhere p w = [w] := by
  induction w with
  | nil => rfl
  | cons c w ih =>
    have hc : p c = false := hw c List.mem_cons_self
    rw [splitWhere, ih fun d hd => hw d (List.mem_cons_of_mem c hd)]
    simp [hc, consHead]

theorem splitWhere_piece {p : Char → Bool} {w : Text} (hw : ∀ c ∈ w, p c = false) {c : Char}
    (hc : p c = true) (s : Text) : splitWhere p (w ++ c :: s) = w :: splitWhere p s := by
  induction w with
  | nil => simp [splitWhere, hc]
  | cons d w ih =>
    have hd : p d = false := hw d List.mem_cons_self
    rw [List.cons_append, splitWhere, ih fun e he => hw e (List.mem_cons_of_mem d he)]
    simp [hd, consHead]

theorem not_separator_of_mem_splitWhere {p : Char → Bool} {s w : Text} {c : Char}
    (hw : w ∈ splitWhere p s) (hc : c ∈ w) : p c = false := by
  induction s generalizing w with
  | nil =>
    rw [splitWhere, List.mem_singleton] at hw
    subst hw
    cases hc
  | cons d s ih =>
    rw [splitWhere] at hw
    by_cases hd : p d = true
    · rw [if_pos hd] at hw
      rcases List.mem_cons.mp hw with rfl | hw
      · cases hc
      · exact ih hw hc
    · rw [if_neg hd] at hw
      rcases mem_consHead hw hc with rfl | ⟨w', hw', hc'⟩
      · simpa using hd
      · exact ih hw' hc'

theorem mem_joinWith {sep : Text} {ls : List Text} {c : Char} (h : c ∈ joinWith sep ls) :
    c ∈ sep ∨ ∃ l ∈ ls, c ∈ l := by
  fun_induction joinWith sep ls with
  | case1 => cases h
  | case2 l => exact .inr ⟨l, List.mem_cons_self, h⟩
  | case3 l ls _ ih =>
    rcases List.mem_append.mp h with h | h
    · rcases List.mem_append.mp h with h | h
      · exact .inr ⟨l, List.mem_cons_self, h⟩
      · exact .inl h
    · rcases ih h with h | ⟨l', hl', hc⟩
      · exact .inl h
      · exact .inr ⟨l', List.mem_cons_of_mem l hl', hc⟩

/-! ## Beginnings -/

theorem afterPrefix?_append (p s : Text) : afterPrefix? p (p ++ s) = some s := by
  induction p with
  | nil => cases s <;> rfl
  | cons c p ih => simp [afterPrefix?, ih]

theorem eq_append_of_afterPrefix? {p s r : Text} (h : afterPrefix? p s = some r) :
    s = p ++ r := by
  fun_induction afterPrefix? p s with
  | case1 s =>
    cases h
    rfl
  | case2 => cases h
  | case3 p c s ih => rw [List.cons_append, ← ih h]
  | case4 => cases h

theorem eq_append_of_cutAt? {c : Char} {s a b : Text} (h : cutAt? c s = some (a, b)) :
    s = a ++ c :: b := by
  induction s generalizing a with
  | nil => cases h
  | cons d s ih =>
    rw [cutAt?] at h
    split at h
    · rename_i here
      cases h
      rw [here]
      rfl
    · obtain ⟨⟨a', b'⟩, cut, same⟩ := Option.map_eq_some_iff.mp h
      cases same
      rw [ih cut]
      rfl

/-- The first `c` is where the text is cut. -/
theorem cutAt?_append {c : Char} {a : Text} (h : c ∉ a) (b : Text) :
    cutAt? c (a ++ c :: b) = some (a, b) := by
  induction a with
  | nil => simp [cutAt?]
  | cons d a ih =>
    rw [List.mem_cons, not_or] at h
    rw [List.cons_append, cutAt?, if_neg (Ne.symm h.1), ih h.2]
    rfl

theorem takeWhile_piece {p : Char → Bool} {w : Text} (hw : ∀ c ∈ w, p c = true) {c : Char}
    (hc : p c = false) (s : Text) : (w ++ c :: s).takeWhile p = w := by
  rw [List.takeWhile_append_of_pos hw, List.takeWhile_cons_of_neg (by simp [hc]), List.append_nil]

theorem dropWhile_piece {p : Char → Bool} {w : Text} (hw : ∀ c ∈ w, p c = true) {c : Char}
    (hc : p c = false) (s : Text) : (w ++ c :: s).dropWhile p = c :: s := by
  rw [List.dropWhile_append_of_pos hw, List.dropWhile_cons_of_neg (by simp [hc])]

theorem takeWhile_append_cons {p : Char → Bool} {c : Char} (hc : p c = false) (s r : Text) :
    (s ++ c :: r).takeWhile p = s.takeWhile p := by
  induction s with
  | nil => simp [hc]
  | cons d s ih =>
    rw [List.cons_append, List.takeWhile_cons, List.takeWhile_cons, ih]

theorem dropWhile_append_cons {p : Char → Bool} {c : Char} (hc : p c = false) (s r : Text) :
    (s ++ c :: r).dropWhile p = s.dropWhile p ++ c :: r := by
  induction s with
  | nil => simp [hc]
  | cons d s ih =>
    rw [List.cons_append, List.dropWhile_cons, List.dropWhile_cons, ih]
    split <;> rfl

/-- Where something is left of a text, more text behind it is left too. -/
theorem dropWhile_append_of_ne_nil {p : Char → Bool} {s : Text} (h : s.dropWhile p ≠ [])
    (t : Text) : (s ++ t).dropWhile p = s.dropWhile p ++ t := by
  rw [List.dropWhile_append, if_neg (by simpa using h)]

theorem takeWhile_append_of_ne_nil {p : Char → Bool} {s : Text} (h : s.dropWhile p ≠ [])
    (t : Text) : (s ++ t).takeWhile p = s.takeWhile p := by
  rw [List.takeWhile_append, if_neg]
  intro whole
  have cut := congrArg List.length (List.takeWhile_append_dropWhile (p := p) (l := s))
  rw [List.length_append, whole] at cut
  exact h (List.length_eq_zero_iff.mp (by omega))

theorem isPrefix_of_isPrefix_append_cons {t a b : Text} {c : Char} (hc : c ∉ t)
    (h : t <+: a ++ c :: b) : t <+: a := by
  induction a generalizing t with
  | nil =>
    cases t with
    | nil => exact List.nil_prefix
    | cons d t =>
      have first := (List.cons_prefix_cons.mp h).1
      exact (hc (first ▸ List.mem_cons_self)).elim
  | cons d a ih =>
    cases t with
    | nil => exact List.nil_prefix
    | cons e t =>
      obtain ⟨first, rest⟩ := List.cons_prefix_cons.mp h
      exact List.cons_prefix_cons.mpr ⟨first, ih (fun hm => hc (List.mem_cons_of_mem e hm)) rest⟩

end Drawbridge
