import Drawbridge.Diagram.Label
import Drawbridge.Proofs.Text.Words

/-!
Labels as they are written and read back. `unquote_quoteLabel` says that a trimmed label without an
entity of its own comes back as it was, whether it is written in quotes or not. With an entity it
does not (`label_restored_iff`), and labels that differ in the spelling of quotes only are written
alike (`quoteLabel_eq_iff`). For the characters around a label, `not_quote_mem_escapeQuotes` keeps
the closing quote the first one, and `isInfix_of_isInfix_escapeQuotes` says that escaping brings
about nothing but entities. Whatever was written, it is `IsWritten`, and so in quotes or free of the
characters that end a label where it stands (`IsQuotedOr`), which is all that cutting a line at its
labels takes.
-/

namespace Drawbridge

/-! ## Escaping -/

theorem escapeQuotes_cons_quote (s : Text) :
    escapeQuotes ('"' :: s) = quoteEntity ++ escapeQuotes s := rfl

theorem escapeQuotes_cons {c : Char} (h : c ≠ '"') (s : Text) :
    escapeQuotes (c :: s) = c :: escapeQuotes s := by
  simp [escapeQuotes, h]

theorem escapeQuotes_eq_self {s : Text} (h : '"' ∉ s) : escapeQuotes s = s := by
  induction s with
  | nil => rfl
  | cons c s ih =>
    rw [List.mem_cons, not_or] at h
    rw [escapeQuotes_cons (Ne.symm h.1), ih h.2]

theorem mem_escapeQuotes {s : Text} {c : Char} (h : c ∈ escapeQuotes s) :
    c ∈ quoteEntity ∨ c ∈ s ∧ c ≠ '"' := by
  obtain ⟨d, hd, hc⟩ := List.mem_flatMap.mp h
  by_cases hq : d = '"'
  · rw [if_pos hq] at hc
    exact .inl hc
  · rw [if_neg hq, List.mem_singleton] at hc
    subst hc
    exact .inr ⟨hd, hq⟩

theorem not_quote_mem_escapeQuotes (s : Text) : '"' ∉ escapeQuotes s := by
  intro h
  rcases mem_escapeQuotes h with h | ⟨-, h⟩
  · revert h
    decide
  · exact h rfl

/-- What an escaped text begins with, up to the first `#`, the text itself begins with. -/
theorem isPrefix_of_isPrefix_escapeQuotes {t s : Text} (ht : '#' ∉ t)
    (h : t <+: escapeQuotes s) : t <+: s := by
  induction s generalizing t with
  | nil => exact h
  | cons c s ih =>
    cases t with
    | nil => exact List.nil_prefix
    | cons a t =>
      rw [List.mem_cons, not_or] at ht
      by_cases hc : c = '"'
      · subst hc
        have first := (List.cons_prefix_cons.mp h).1
        exact (ht.1 first.symm).elim
      · rw [escapeQuotes_cons hc, List.cons_prefix_cons] at h
        exact List.cons_prefix_cons.mpr ⟨h.1, ih ht.2 h.2⟩

/-- A text that shares no character with what stands before another text lies in the other. -/
theorem isInfix_of_isInfix_append {t e s : Text} (hne : t ≠ []) (ht : ∀ c ∈ t, c ∉ e)
    (h : t <:+: e ++ s) : t <:+: s := by
  induction e with
  | nil => exact h
  | cons d e ih =>
    rcases List.infix_cons_iff.mp h with hp | hi
    · obtain ⟨a, t, rfl⟩ := List.exists_cons_of_ne_nil hne
      have first := (List.cons_prefix_cons.mp hp).1
      exact (ht a List.mem_cons_self (first ▸ List.mem_cons_self)).elim
    · exact ih (fun c hc hd => ht c hc (List.mem_cons_of_mem d hd)) hi

/-- Escaping brings about nothing but entities. -/
theorem isInfix_of_isInfix_escapeQuotes {t s : Text} (hne : t ≠ [])
    (ht : ∀ c ∈ t, c ∉ quoteEntity) (h : t <:+: escapeQuotes s) : t <:+: s := by
  induction s with
  | nil => exact h
  | cons c s ih =>
    by_cases hc : c = '"'
    · subst hc
      rw [escapeQuotes_cons_quote] at h
      have rest := ih (isInfix_of_isInfix_append hne ht h)
      exact rest.trans (List.suffix_cons _ s).isInfix
    · have whole := escapeQuotes_cons hc s
      rw [whole] at h
      rcases List.infix_cons_iff.mp h with hp | hi
      · rw [← whole] at hp
        have hash : '#' ∉ t := fun hm => ht '#' hm (by decide)
        exact (isPrefix_of_isPrefix_escapeQuotes hash hp).isInfix
      · exact (ih hi).trans (List.suffix_cons c s).isInfix

theorem unescapeQuotes_cons {c : Char} {s : Text} (h : ¬ quoteEntity <+: c :: s) :
    unescapeQuotes (c :: s) = c :: unescapeQuotes s := by
  rw [unescapeQuotes]
  intro r hc hs
  subst hc
  subst hs
  exact h ⟨r, rfl⟩

/-- Reading entities undoes writing them, and reads the entities that were there before. -/
theorem unescapeQuotes_escapeQuotes (s : Text) :
    unescapeQuotes (escapeQuotes s) = unescapeQuotes s := by
  fun_induction unescapeQuotes s with
  | case1 => rfl
  | case2 s ih => exact congrArg ('"' :: ·) ih
  | case3 c s other ih =>
    by_cases hc : c = '"'
    · subst hc
      exact congrArg ('"' :: ·) ih
    · rw [escapeQuotes_cons hc, unescapeQuotes_cons, ih]
      intro hp
      -- the entity would have to begin with `c` itself, and go on in `s`
      obtain ⟨first, tail⟩ := List.cons_prefix_cons.mp hp
      obtain ⟨r, own⟩ := isPrefix_of_isPrefix_escapeQuotes (t := "quot;".toList) (by decide) tail
      exact other r first.symm own.symm

/-- Writing entities turns every quote into one, also those that were read from entities. -/
theorem escapeQuotes_unescapeQuotes (s : Text) :
    escapeQuotes (unescapeQuotes s) = escapeQuotes s := by
  fun_induction unescapeQuotes s with
  | case1 => rfl
  | case2 s ih => exact congrArg (quoteEntity ++ ·) ih
  | case3 c s other ih =>
    by_cases hc : c = '"'
    · subst hc
      exact congrArg (quoteEntity ++ ·) ih
    · rw [escapeQuotes_cons hc, escapeQuotes_cons hc, ih]

/-- A text comes back from its entities just if it holds none. -/
theorem unescapeQuotes_eq_self_iff {s : Text} : unescapeQuotes s = s ↔ ¬ quoteEntity <:+: s := by
  fun_induction unescapeQuotes s with
  | case1 => simp [quoteEntity]
  | case2 s ih =>
    have here : quoteEntity <:+: '#' :: 'q' :: 'u' :: 'o' :: 't' :: ';' :: s :=
      List.IsPrefix.isInfix ⟨s, rfl⟩
    simp [here]
  | case3 c s other ih =>
    have away : ¬ quoteEntity <+: c :: s := by
      rintro ⟨r, heq⟩
      cases heq
      exact other r rfl rfl
    rw [List.cons.injEq, ih, List.infix_cons_iff]
    simp [away]

theorem unescapeQuotes_eq_nil_iff {s : Text} : unescapeQuotes s = [] ↔ s = [] := by
  fun_cases unescapeQuotes s <;> simp

theorem head?_unescapeQuotes {s : Text} {c : Char} (h : c ∈ (unescapeQuotes s).head?) :
    c = '"' ∨ c ∈ s.head? := by
  revert h
  fun_cases unescapeQuotes s with
  | case1 => nofun
  | case2 s => exact fun h => .inl (Option.mem_some.mp h).symm
  | case3 d s => exact .inr

theorem getLast?_unescapeQuotes {s : Text} {c : Char} (h : c ∈ (unescapeQuotes s).getLast?) :
    c = '"' ∨ c ∈ s.getLast? := by
  fun_induction unescapeQuotes s with
  | case1 => cases h
  | case2 s ih =>
    by_cases empty : s = []
    · subst empty
      exact .inl (Option.mem_some.mp h).symm
    · rw [List.getLast?_cons_of_ne_nil (mt unescapeQuotes_eq_nil_iff.mp empty)] at h
      show c = '"' ∨ c ∈ (quoteEntity ++ s).getLast?
      rw [List.getLast?_append_of_ne_nil quoteEntity empty]
      exact ih h
  | case3 d s other ih =>
    by_cases empty : s = []
    · subst empty
      exact .inr h
    · rw [List.getLast?_cons_of_ne_nil (mt unescapeQuotes_eq_nil_iff.mp empty)] at h
      rw [List.getLast?_cons_of_ne_nil empty]
      exact ih h

/-- Reading entities brings no blanks to the ends of a text. -/
theorem strip_unescapeQuotes {s : Text} (h : strip s = s) :
    strip (unescapeQuotes s) = unescapeQuotes s := by
  have quote : isBlank '"' = false := by decide
  obtain ⟨first, last⟩ := strip_eq_self_iff.mp h
  apply strip_eq_self
  · intro c hc
    rcases head?_unescapeQuotes hc with rfl | hc
    · exact quote
    · exact first c hc
  · intro c hc
    rcases getLast?_unescapeQuotes hc with rfl | hc
    · exact quote
    · exact last c hc

/-! ## Quoting -/

def quoted (s : Text) : Text :=
  '"' :: (escapeQuotes s ++ ['"'])

theorem quoteLabel_cases (s : Text) :
    quoteLabel s = quoted s ∨ quoteLabel s = s ∧ ∀ c ∈ s, isSpecialChar c = false := by
  have plain : ∀ s, needsQuotes s = false → ∀ c ∈ s, isSpecialChar c = false := by
    intro s hs
    induction s with
    | nil => simp
    | cons c s ih =>
      simp only [needsQuotes, Bool.or_eq_false_iff] at hs
      intro d hd
      rcases List.mem_cons.mp hd with rfl | hd
      · exact hs.1.1
      · exact ih hs.2 d hd
  unfold quoteLabel
  by_cases h : needsQuotes s = true
  · exact .inl (if_pos h)
  · exact .inr ⟨if_neg h, plain s (by simpa using h)⟩

/-- A text as labels are written: between two quotes, or without characters that need them. -/
def IsWritten (x : Text) : Prop :=
  (∃ t, '"' ∉ t ∧ x = '"' :: (t ++ ['"'])) ∨ ∀ c ∈ x, isSpecialChar c = false

/-- A text between two quotes, or one without the characters of a class. -/
def IsQuotedOr (p : Char → Bool) (x : Text) : Prop :=
  (∃ t, '"' ∉ t ∧ x = '"' :: (t ++ ['"'])) ∨ ∀ c ∈ x, p c = false

/-- The characters that change the depth at which a line is cut. -/
def isNestingChar (c : Char) : Bool :=
  "\"[]\x7b\x7d()".toList.contains c

/-- The characters that end a label between pipes, or open a quote in it. -/
def isPipeChar (c : Char) : Bool :=
  "|\"".toList.contains c

/-- A written label needs quotes for every character that is special, so for fewer as well. -/
theorem IsWritten.quotedOr {x s : Text} (hx : IsWritten x)
    (special : ∀ c ∈ s, isSpecialChar c = true) : IsQuotedOr s.contains x := by
  apply hx.imp_right
  intro plain c hc
  by_contra hs
  rw [Bool.not_eq_false, List.contains_iff_mem] at hs
  have free := plain c hc
  rw [special c hs] at free
  cases free

theorem IsWritten.nesting {x : Text} (hx : IsWritten x) : IsQuotedOr isNestingChar x :=
  hx.quotedOr (by decide)

theorem IsWritten.piped {x : Text} (hx : IsWritten x) : IsQuotedOr isPipeChar x :=
  hx.quotedOr (by decide)

theorem isWritten_quoteLabel (s : Text) : IsWritten (quoteLabel s) := by
  rcases quoteLabel_cases s with hq | ⟨hq, plain⟩ <;> rw [hq]
  · exact .inl ⟨escapeQuotes s, not_quote_mem_escapeQuotes s, rfl⟩
  · exact .inr plain

theorem mem_quoteLabel {s : Text} {c : Char} (h : c ∈ quoteLabel s) :
    c ∈ s ∨ c ∈ '"' :: quoteEntity := by
  rcases quoteLabel_cases s with hq | ⟨hq, -⟩ <;> rw [hq] at h
  · simp only [quoted, List.mem_cons, List.mem_append, List.not_mem_nil, or_false] at h
    rcases h with h | h | h
    · exact .inr (h ▸ List.mem_cons_self)
    · rcases mem_escapeQuotes h with h | ⟨h, -⟩
      · exact .inr (List.mem_cons_of_mem _ h)
      · exact .inl h
    · exact .inr (h ▸ List.mem_cons_self)
  · exact .inl h

theorem strip_quoted (s : Text) : strip (quoted s) = quoted s := by
  have blank : isBlank '"' = false := by decide
  apply strip_eq_self
  · intro c hc
    cases hc
    exact blank
  · intro c hc
    rw [quoted, ← List.cons_append, List.getLast?_concat] at hc
    cases hc
    exact blank

theorem dropOuterQuotes_quoted (s : Text) : dropOuterQuotes (quoted s) = escapeQuotes s := by
  unfold quoted
  cases he : escapeQuotes s with
  | nil => rfl
  | cons c r =>
    have ends : (c :: (r ++ ['"'])).getLast? = some '"' := by
      rw [← List.cons_append, List.getLast?_concat]
    rw [List.cons_append, dropOuterQuotes, if_pos ends, ← List.cons_append, List.dropLast_concat]

theorem strip_quoteLabel {s : Text} (ht : strip s = s) : strip (quoteLabel s) = quoteLabel s := by
  rcases quoteLabel_cases s with hq | ⟨hq, -⟩ <;> rw [hq]
  · exact strip_quoted s
  · exact ht

/-- The quotes around a written label are taken off, and its entities are read. -/
theorem unescapeQuotes_quoteLabel (s : Text) :
    unescapeQuotes (dropOuterQuotes (quoteLabel s)) = unescapeQuotes s := by
  rcases quoteLabel_cases s with hq | ⟨hq, plain⟩ <;> rw [hq]
  · rw [dropOuterQuotes_quoted, unescapeQuotes_escapeQuotes]
  · have unopened : dropOuterQuotes s = s := by
      unfold dropOuterQuotes
      split
      · exact absurd (plain '"' List.mem_cons_self) (by decide)
      · rfl
    rw [unopened]

/-- What is read of a written label is the label with its own entities read as quotes. -/
theorem unquote_quoteLabel_eq {s : Text} (ht : strip s = s) :
    unquote (quoteLabel s) = unescapeQuotes s := by
  rw [unquote, strip_quoteLabel ht, unescapeQuotes_quoteLabel, strip_unescapeQuotes ht]

/-- **A trimmed label without an entity of its own comes back as it was.** -/
theorem unquote_quoteLabel {s : Text} (ht : strip s = s) (he : ¬ quoteEntity <:+: s) :
    unquote (quoteLabel s) = s :=
  (unquote_quoteLabel_eq ht).trans (unescapeQuotes_eq_self_iff.mpr he)

/-! ## Labels told apart -/

/-- A label without special characters is the only one that is escaped as it is. -/
theorem eq_of_escapeQuotes_eq {s t : Text} (plain : ∀ c ∈ t, isSpecialChar c = false)
    (same : escapeQuotes s = escapeQuotes t) : s = t := by
  have without : ∀ c, isSpecialChar c = true → c ∉ t := by
    intro c special hc
    rw [plain c hc] at special
    cases special
  rw [escapeQuotes_eq_self (without '"' (by decide))] at same
  have free : '"' ∉ s := by
    intro hm
    have hash : '#' ∈ escapeQuotes s := List.mem_flatMap.mpr ⟨'"', hm, by decide⟩
    exact without '#' (by decide) (same ▸ hash)
  rwa [escapeQuotes_eq_self free] at same

/-- Labels are written alike just if they differ in the spelling of quotes at most. -/
theorem quoteLabel_eq_iff {s t : Text} :
    quoteLabel s = quoteLabel t ↔ unescapeQuotes s = unescapeQuotes t := by
  constructor
  · intro same
    rw [← unescapeQuotes_quoteLabel s, same, unescapeQuotes_quoteLabel]
  · intro same
    have escaped : escapeQuotes s = escapeQuotes t := by
      rw [← escapeQuotes_unescapeQuotes s, same, escapeQuotes_unescapeQuotes]
    rcases quoteLabel_cases t with ht | ⟨-, plain⟩
    · rcases quoteLabel_cases s with hs | ⟨-, plain⟩
      · rw [hs, ht, quoted, quoted, escaped]
      · rw [eq_of_escapeQuotes_eq plain escaped.symm]
    · rw [eq_of_escapeQuotes_eq plain escaped]

/--
**A label comes back just if it holds no entity.** What comes back is the label with its entities
read as quotes, and labels are written alike just if they come back alike. So of labels without
entities no two are written alike.
-/
theorem label_restored_iff (s t : Text) :
    unquote (quoteLabel (cleanLabel s)) = unescapeQuotes (cleanLabel s) ∧
    (unquote (quoteLabel (cleanLabel s)) = cleanLabel s ↔ ¬ quoteEntity <:+: cleanLabel s) ∧
    (quoteLabel (cleanLabel s) = quoteLabel (cleanLabel t) ↔
      unquote (quoteLabel (cleanLabel s)) = unquote (quoteLabel (cleanLabel t))) := by
  have read (s : Text) : unquote (quoteLabel (cleanLabel s)) = unescapeQuotes (cleanLabel s) :=
    unquote_quoteLabel_eq (cleanLabel_isTidy s).strip_eq
  refine ⟨read s, ?_, ?_⟩
  · rw [read, unescapeQuotes_eq_self_iff]
  · rw [read, read, quoteLabel_eq_iff]

/-- An entity that a label holds comes back as a quote, and so it is written as a quote is. -/
theorem entity_misread :
    cleanLabel "#quot;".toList = "#quot;".toList ∧
    unquote (quoteLabel "#quot;".toList) ≠ "#quot;".toList ∧
    cleanLabel "\"".toList = "\"".toList ∧
    quoteLabel "#quot;".toList = quoteLabel "\"".toList := by
  decide

end Drawbridge
