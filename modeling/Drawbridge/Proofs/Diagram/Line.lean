import Drawbridge.Diagram.Writer
import Drawbridge.Proofs.Graph.Names
import Drawbridge.Proofs.Markup.Preparation

/-!
Lines of a diagram. A text is inline (`IsInline`) if it can stand in a line whatever else stands
there; inline texts put together are inline. A line (`IsLine`) is left as it is by all that is done
to a text before it is read, and a statement (`IsStatement`) does not end with a semicolon either,
which would be taken from it.
-/

namespace Drawbridge

/-! ## Texts in a line -/

/-- A text without line breaks. -/
def Unbroken (s : Text) : Prop :=
  ∀ c ∈ s, isLineBreak c = false

theorem Unbroken.append {s t : Text} (hs : Unbroken s) (ht : Unbroken t) : Unbroken (s ++ t) := by
  intro c hc
  rcases List.mem_append.mp hc with hc | hc
  · exact hs c hc
  · exact ht c hc

/-- A text that can stand in a line, whatever else stands there. -/
structure IsInline (p : Text) : Prop extends IsPrepared p where
  unbroken : Unbroken p

/-- A character that breaks no line and begins no fence and no tag. -/
def isInlineChar (c : Char) : Bool :=
  !(isLineBreak c || c = '<' || c = '\x60')

theorem isInline_of_all {p : Text} (h : ∀ c ∈ p, isInlineChar c = true) : IsInline p where
  toIsPrepared := by
    apply isPrepared_of_not_mem
    · exact fun hm => absurd (h _ hm) (by decide)
    · exact fun hm => absurd (h _ hm) (by decide)
  unbroken := by
    intro c hc
    have hi := h c hc
    simp only [isInlineChar, Bool.not_eq_true', Bool.or_eq_false_iff] at hi
    exact hi.1.1

theorem IsInline.append {p q : Text} (hp : IsInline p) (hq : IsInline q) : IsInline (p ++ q) where
  toIsPrepared := hp.toIsPrepared.append hq.toIsPrepared
  unbroken := hp.unbroken.append hq.unbroken

/-- A text of characters of a class that has no blanks and begins no fence and no tag. -/
theorem isInline_of_class {p : Char → Bool} (solid : ∀ c, p c = true → isBlank c = false)
    (tag : p '<' = false) (fence : p '\x60' = false) {s : Text} (h : ∀ c ∈ s, p c = true) :
    IsInline s := by
  apply isInline_of_all
  intro c hc
  have unbroken := not_lineBreak_of_not_blank (solid c (h c hc))
  simp [isInlineChar, unbroken, ne_of_class (h c hc) tag, ne_of_class (h c hc) fence]

/-- A label as it comes out of a scene, if it can be written. -/
structure IsLabel (l : Text) : Prop extends IsWritable l where
  tidy : IsTidy l

theorem isInline_quoteLabel {l : Text} (h : IsWritable l)
    (unbroken : ∀ c ∈ l, isLineBreak c = false) : IsInline (quoteLabel l) where
  toIsPrepared := isPrepared_quoteLabel h
  unbroken := by
    intro c hc
    rcases mem_quoteLabel hc with hc | hc
    · exact unbroken c hc
    · have entity : ∀ d ∈ '"' :: quoteEntity, isLineBreak d = false := by decide
      exact entity c hc

theorem IsLabel.isInline {l : Text} (h : IsLabel l) : IsInline (quoteLabel l) :=
  isInline_quoteLabel h.toIsWritable h.tidy.unbroken

/-- A title that can be written: trimmed and in one line. -/
structure IsTitle (l : Text) : Prop extends IsWritable l where
  trimmed : strip l = l
  unbroken : ∀ c ∈ l, isLineBreak c = false

theorem IsLabel.isTitle {l : Text} (h : IsLabel l) : IsTitle l :=
  ⟨h.toIsWritable, h.tidy.strip_eq, h.tidy.unbroken⟩

namespace IsName

variable {s : Text}

theorem isInline (h : IsName s) : IsInline s :=
  isInline_of_class (fun _ => not_blank_of_isIdentChar) (by decide) (by decide) h.ident

theorem isLabel (h : IsName s) : IsLabel s where
  toIsWritable := by
    have other : ∀ d, isIdentChar d = false → d ∉ s :=
      fun d hd hm => ne_of_class (h.ident d hm) hd rfl
    exact isWritable_of_not_mem (other _ (by decide)) (other _ (by decide)) (other _ (by decide))
  tidy := by
    have one : words s = [s] := by
      rw [words, splitWhere_plain h.solid]
      simp [h.ne_nil]
    rw [IsTidy, cleanLabel, one]
    rfl

end IsName

/-! ## Lines -/

/-- A line that is left as it is: no comment, and without blanks at its ends. -/
structure IsLine (s : Text) : Prop extends IsInline s where
  starts : ∃ c r, s = c :: r ∧ isIdentChar c = true
  ends : ∃ c, s.getLast? = some c ∧ isBlank c = false

theorem strip_eq_of_ends {s : Text} (starts : ∃ c r, s = c :: r ∧ isIdentChar c = true)
    (ends : ∃ c, s.getLast? = some c ∧ isBlank c = false) : strip s = s := by
  obtain ⟨c, r, hc, ident⟩ := starts
  obtain ⟨d, hd, solid⟩ := ends
  apply strip_eq_self
  · rw [hc]
    rintro e ⟨⟩
    exact not_blank_of_isIdentChar ident
  · rw [hd]
    rintro e ⟨⟩
    exact solid

theorem IsLine.strip_eq {s : Text} (h : IsLine s) : strip s = s :=
  strip_eq_of_ends h.starts h.ends

namespace IsName

variable {s : Text}

theorem starts (h : IsName s) : ∃ c r, s = c :: r ∧ isIdentChar c = true := by
  obtain ⟨c, r, rfl, capital⟩ := h.capital
  exact ⟨c, r, rfl, isIdentChar_of_isUpper capital⟩

theorem ends (h : IsName s) : ∃ c, s.getLast? = some c ∧ isIdentChar c = true := by
  have last := List.getLast?_eq_some_getLast h.ne_nil
  exact ⟨_, last, h.ident _ (List.mem_of_getLast? last)⟩

end IsName

/-- A line that is read as it is: no semicolon ends it. -/
structure IsStatement (s : Text) : Prop extends IsLine s where
  closed : s.getLast? ≠ some ';'

/-- The text ends neither with a blank nor with a semicolon. -/
def Closes (s : Text) : Prop :=
  ∃ c, s.getLast? = some c ∧ isBlank c = false ∧ c ≠ ';'

theorem Closes.append {q : Text} (h : Closes q) (p : Text) : Closes (p ++ q) := by
  obtain ⟨c, hc, plain⟩ := h
  refine ⟨c, ?_, plain⟩
  rw [List.getLast?_append, hc]
  rfl

theorem Closes.solid {s : Text} (h : Closes s) : ∃ c, s.getLast? = some c ∧ isBlank c = false := by
  obtain ⟨c, hc, solid, -⟩ := h
  exact ⟨c, hc, solid⟩

theorem Closes.ne_semicolon {s : Text} (h : Closes s) : s.getLast? ≠ some ';' := by
  obtain ⟨c, hc, -, other⟩ := h
  rw [hc]
  rintro ⟨⟩
  exact other rfl

theorem isStatement_of_closes {s : Text} (hi : IsInline s)
    (starts : ∃ c r, s = c :: r ∧ isIdentChar c = true) (ends : Closes s) : IsStatement s :=
  ⟨⟨hi, starts, ends.solid⟩, ends.ne_semicolon⟩

theorem IsName.closes {s : Text} (h : IsName s) : Closes s := by
  obtain ⟨c, hc, ident⟩ := h.ends
  refine ⟨c, hc, not_blank_of_isIdentChar ident, ?_⟩
  rintro rfl
  revert ident
  decide

/-- The name of a kind of diagram is a line, its header where there is no direction. -/
theorem DiagramType.isLine_name (kind : DiagramType) : IsLine kind.name := by
  cases kind
  · exact ⟨isInline_of_all (by decide), ⟨'f', _, rfl, by decide⟩, 't', rfl, by decide⟩
  · exact ⟨isInline_of_all (by decide), ⟨'c', _, rfl, by decide⟩, 'm', rfl, by decide⟩
  · exact ⟨isInline_of_all (by decide), ⟨'s', _, rfl, by decide⟩, 'm', rfl, by decide⟩

end Drawbridge
