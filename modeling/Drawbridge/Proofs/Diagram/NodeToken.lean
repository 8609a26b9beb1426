import Drawbridge.Diagram.NodeToken
import Drawbridge.Diagram.Writer
import Drawbridge.Proofs.Diagram.Label
import Drawbridge.Proofs.Graph.Names

/-!
Node tokens as they are written. `read?_bracketed` says that a name with brackets around a label,
and whatever style class after it, is read as just these parts, `read?_shaped` that a tidy label
comes back from it, and `read?_unshaped` that a name without brackets is read.
-/

namespace Drawbridge.NodeToken

theorem takeQuoted?_closed {t : Text} (h : '"' ∉ t) (r : Text) :
    takeQuoted? ('"' :: (t ++ ['"']) ++ r) = some ('"' :: (t ++ ['"']), r) := by
  have cut := cutAt?_append h r
  rw [List.cons_append, List.append_assoc, List.singleton_append, takeQuoted?, cut]
  rfl

theorem takeQuoted?_eq_none {s : Text} (h : s.head? ≠ some '"') : takeQuoted? s = none := by
  unfold takeQuoted?
  split
  · exact (h rfl).elim
  · rfl

/-- The first way to read a label before a bracket is the one that is meant. -/
theorem labelsBefore_quotedOr {p : Char → Bool} (quote : p '"' = true) {x : Text}
    (hx : IsQuotedOr p x) {closing : Char} (hs : p closing = true) (hq : closing ≠ '"')
    (b r : Text) :
    ∃ more, labelsBefore closing (closing :: b) (x ++ (closing :: b ++ r)) = (x, r) :: more := by
  have closes := afterPrefix?_append (closing :: b) r
  rcases hx with ⟨t, ht, rfl⟩ | plain <;> rw [labelsBefore]
  · rw [takeQuoted?_closed ht, Option.toList_some, List.singleton_append, List.filterMap_cons]
    simp only [closes, Option.map_some]
    exact ⟨_, rfl⟩
  · have unquoted : takeQuoted? (x ++ (closing :: b ++ r)) = none := by
      apply takeQuoted?_eq_none
      cases x with
      | nil => simpa using hq
      | cons c x =>
        intro hc
        cases hc
        exact ne_of_class quote (plain '"' List.mem_cons_self) rfl
    have before : ∀ c ∈ x, decide (c ≠ closing) = true := by
      intro c hc
      exact decide_eq_true (ne_of_class hs (plain c hc)).symm
    rw [unquoted, Option.toList_none, List.nil_append, List.cons_append,
      takeWhile_piece before (by simp), dropWhile_piece before (by simp), ← List.cons_append,
      List.filterMap_cons]
    simp only [closes, Option.map_some]
    exact ⟨_, rfl⟩

inductive Bracket where
  | square
  | round
  | double
  | curly
  deriving DecidableEq, Repr

namespace Bracket

def opening : Bracket → Text
  | square => ['[']
  | round => ['(']
  | double => ['(', '(']
  | curly => ['\x7b']

def closing : Bracket → Text
  | square => [']']
  | round => [')']
  | double => [')', ')']
  | curly => ['\x7d']

def shape : Bracket → Shape
  | square => .box
  | round => .box
  | double => .ellipse
  | curly => .diamond

def around : Shape → Bracket
  | .box => square
  | .ellipse => double
  | .diamond => curly

theorem brackets_eq (shape : Shape) :
    brackets shape = ((around shape).opening, (around shape).closing) := by
  cases shape <;> rfl

theorem shape_around (shape : Shape) : (around shape).shape = shape := by
  cases shape <;> rfl

theorem opening_head (b : Bracket) : ∃ c r, b.opening = c :: r ∧ isIdentChar c = false := by
  cases b
  · exact ⟨'[', [], rfl, by decide⟩
  · exact ⟨'(', [], rfl, by decide⟩
  · exact ⟨'(', ['('], rfl, by decide⟩
  · exact ⟨'{', [], rfl, by decide⟩

end Bracket

/-- A label does not open a round bracket itself. -/
theorem afterPrefix?_round {x : Text} (hx : IsQuotedOr isNestingChar x) (r : Text) :
    afterPrefix? ['('] (x ++ ')' :: r) = none := by
  rcases hx with ⟨t, -, rfl⟩ | plain
  · rfl
  · cases x with
    | nil => rfl
    | cons c x =>
      have other : '(' ≠ c := ne_of_class (by decide) (plain c List.mem_cons_self)
      rw [List.cons_append, afterPrefix?, if_neg other]

/-- The first way to read a shape is the one that is meant. -/
theorem shapesAt_bracket {x : Text} (hx : IsQuotedOr isNestingChar x) (b : Bracket) (r : Text) :
    ∃ more, shapesAt (b.opening ++ (x ++ (b.closing ++ r))) = ((b.shape, x), r) :: more := by
  have label : ∀ {closing : Char}, isNestingChar closing = true → closing ≠ '"' → ∀ b : Text,
      ∃ more, labelsBefore closing (closing :: b) (x ++ (closing :: b ++ r)) = (x, r) :: more :=
    fun hs hq b => labelsBefore_quotedOr (by decide) hx hs hq b r
  cases b with
  | square =>
    obtain ⟨more, h⟩ := label (show isNestingChar ']' = true by decide) (by decide) []
    simp only [shapesAt, Bracket.opening, Bracket.closing, Bracket.shape, List.cons_append,
      List.nil_append, afterPrefix?] at h ⊢
    simp [h]
  | round =>
    -- the double bracket is tried before, but the label opens no second one
    obtain ⟨more, h⟩ := label (show isNestingChar ')' = true by decide) (by decide) []
    have single := afterPrefix?_round hx r
    simp only [shapesAt, Bracket.opening, Bracket.closing, Bracket.shape, List.cons_append,
      List.nil_append] at h ⊢
    simp [afterPrefix?, h, single]
  | double =>
    obtain ⟨more, h⟩ := label (show isNestingChar ')' = true by decide) (by decide) [')']
    simp only [shapesAt, Bracket.opening, Bracket.closing, Bracket.shape, List.cons_append,
      List.nil_append, afterPrefix?] at h ⊢
    simp [h]
  | curly =>
    obtain ⟨more, h⟩ := label (show isNestingChar '}' = true by decide) (by decide) []
    simp only [shapesAt, Bracket.opening, Bracket.closing, Bracket.shape, List.cons_append,
      List.nil_append, afterPrefix?] at h ⊢
    simp [h]

/-- **A node in brackets is read as its name, its shape, its label and its style class.** -/
theorem read?_bracketed {id x tail : Text} (hid : IsIdent id) (hx : IsQuotedOr isNestingChar x)
    (b : Bracket) {style : Option Text} (hs : styleAfter? tail = some style) :
    read? (id ++ b.opening ++ x ++ b.closing ++ tail) =
      some ⟨id, some (b.shape, unquote x), style⟩ := by
  obtain ⟨c, r, hopen, hc⟩ := b.opening_head
  obtain ⟨more, first⟩ := shapesAt_bracket hx b tail
  simp only [List.append_assoc]
  unfold read?
  rw [hopen] at first ⊢
  rw [List.cons_append] at first ⊢
  rw [takeWhile_piece hid.ident hc, dropWhile_piece hid.ident hc, if_neg hid.ne_nil, first,
    List.findSome?_cons]
  simp [hs]

theorem read?_written {id x tail : Text} (hid : IsName id) (hx : IsWritten x) (shape : Shape)
    {style : Option Text} (hs : styleAfter? tail = some style) :
    read? (id ++ (brackets shape).1 ++ x ++ (brackets shape).2 ++ tail) =
      some ⟨id, some (shape, unquote x), style⟩ := by
  have read := read?_bracketed hid.isIdent hx.nesting (Bracket.around shape) hs
  rw [Bracket.shape_around] at read
  rw [Bracket.brackets_eq]
  exact read

theorem read?_shaped {id l tail : Text} (hid : IsName id) (shape : Shape) (ht : IsTidy l)
    (he : ¬ quoteEntity <:+: l) {style : Option Text} (hs : styleAfter? tail = some style) :
    read? (id ++ (brackets shape).1 ++ quoteLabel l ++ (brackets shape).2 ++ tail) =
      some ⟨id, some (shape, l), style⟩ := by
  rw [read?_written hid (isWritten_quoteLabel l) shape hs, unquote_quoteLabel ht.strip_eq he]

/-- Where a style class is read, or nothing, no identifier goes on and no bracket opens. -/
theorem tail_of_styleAfter? {tail : Text} {style : Option Text}
    (hs : styleAfter? tail = some style) : tail = [] ∨ ∃ r, tail = ':' :: r := by
  unfold styleAfter? at hs
  split at hs
  · exact .inl rfl
  · exact .inr ⟨_, rfl⟩
  · cases hs

theorem read?_unshaped {id tail : Text} (hid : IsIdent id) {style : Option Text}
    (hs : styleAfter? tail = some style) : read? (id ++ tail) = some ⟨id, none, style⟩ := by
  have parts : (id ++ tail).takeWhile isIdentChar = id ∧ (id ++ tail).dropWhile isIdentChar = tail ∧
      shapesAt tail = [] := by
    rcases tail_of_styleAfter? hs with rfl | ⟨r, rfl⟩
    · rw [List.append_nil]
      exact ⟨List.takeWhile_eq_self_iff.mpr hid.ident, List.dropWhile_eq_nil_iff.mpr hid.ident, rfl⟩
    · exact ⟨takeWhile_piece hid.ident (by decide) r, dropWhile_piece hid.ident (by decide) r, rfl⟩
  obtain ⟨name, rest, unshaped⟩ := parts
  unfold read?
  rw [name, rest, if_neg hid.ne_nil, unshaped, hs]
  rfl

theorem read?_name {id : Text} (hid : IsName id) : read? id = some ⟨id, none, none⟩ := by
  have bare := @read?_unshaped id [] hid.isIdent none rfl
  rwa [List.append_nil] at bare

end Drawbridge.NodeToken
