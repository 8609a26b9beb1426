import Drawbridge.Diagram.Renderer
import Drawbridge.Proofs.Diagram.Line
import Drawbridge.Proofs.Markup.Erasure

/-!
The lines of a diagram, row by row. `Rows` relates lines to what stands in them, behind an
indentation and with empty lines between. What is dropped from the whole text is dropped from each
row (`Rows.unmarked_joinLines`), so a renderer sees a header and the prepared rows, and nothing else
(`diagramLines_rows`), whatever the rows hold but line breaks; where they are lines, it sees them as
they are (`diagramLines_lined`). A reader takes such lines in one by one, each with its number
(`takeIn`), and `Reads` says where they lead it.
-/

namespace Drawbridge

/-- What can stand in a row: a text without line breaks that begins with a character of
identifiers. -/
structure IsRow (s : Text) : Prop where
  unbroken : Unbroken s
  starts : ∃ c r, s = c :: r ∧ isIdentChar c = true

theorem IsLine.isRow {s : Text} (h : IsLine s) : IsRow s :=
  ⟨h.unbroken, h.starts⟩

theorem IsLine.prepare_eq {s : Text} (h : IsLine s) : prepareForRendering s = s := by
  rw [prepareForRendering_eq h.toIsPrepared, h.strip_eq]

/-- A character of identifiers begins no piece that is dropped, and ends none. -/
theorem isIdentChar_plain {c : Char} (h : isIdentChar c = true) :
    isBlank c = false ∧ c ≠ '\x60' ∧ c ≠ '<' ∧ c ≠ '/' ∧ c ≠ '>' :=
  ⟨not_blank_of_isIdentChar h, ne_of_class h (by decide), ne_of_class h (by decide),
    ne_of_class h (by decide), ne_of_class h (by decide)⟩

namespace IsRow

variable {s : Text}

theorem unmarked (h : IsRow s) : IsRow (unmarked s) := by
  refine ⟨fun c hc => h.unbroken c (mem_of_mem_unmarked hc), ?_⟩
  obtain ⟨c, r, rfl, ident⟩ := h.starts
  obtain ⟨-, tick, tag, -, -⟩ := isIdentChar_plain ident
  exact ⟨c, _, unmarked_cons tick tag r, ident⟩

theorem strip_starts (h : IsRow s) : ∃ c r, strip s = c :: r ∧ isIdentChar c = true := by
  obtain ⟨c, r, rfl, ident⟩ := h.starts
  have solid := not_blank_of_isIdentChar ident
  rw [strip_cons_of_not_blank solid, stripRight_cons_of_not_blank solid]
  exact ⟨c, _, rfl, ident⟩

/-- A renderer keeps the row. -/
theorem kept (h : IsRow s) : (strip s ≠ [] && !"%%".toList.isPrefixOf (strip s)) = true := by
  obtain ⟨c, r, hs, ident⟩ := h.strip_starts
  have other : ('%' == c) = false := by
    rw [beq_eq_false_iff_ne]
    exact (ne_of_class ident (by decide)).symm
  rw [hs]
  show (decide (c :: r ≠ []) && !('%' == c && _)) = true
  rw [other]
  simp

end IsRow

/-- Prepared, a text between two lasting ones is what is left of it between them. -/
theorem prepare_between {p q : Text} (hp : IsPrepared p) (hq : IsPrepared q) (seals : Seals q)
    (starts : ∃ c r, p = c :: r ∧ isIdentChar c = true)
    (ends : ∃ c, q.getLast? = some c ∧ isBlank c = false) (x : Text) :
    prepareForRendering (p ++ (x ++ q)) = p ++ (unmarked x ++ q) := by
  obtain ⟨c, r, hc, ident⟩ := starts
  obtain ⟨d, hd, solid⟩ := ends
  rw [prepareForRendering_unmarked, hp.unmarked_between hq seals]
  apply strip_eq_of_ends
  · exact ⟨c, _, by rw [hc]; rfl, ident⟩
  · refine ⟨d, ?_, solid⟩
    rw [List.getLast?_append, List.getLast?_append, hd]
    rfl

/-! ## Indentation and empty lines -/

/-- Lines after an empty one, if there are any. -/
def afterGap (ls : List Text) : List Text :=
  if ls = [] then [] else [] :: ls

theorem mem_indentBy {k : Nat} {c : Char} (h : c ∈ indentBy k) : c = ' ' := by
  obtain ⟨i, hi, hc⟩ := List.mem_flatten.mp h
  rw [(List.mem_replicate.mp hi).2] at hc
  have spaces : ∀ c ∈ indent, c = ' ' := by decide
  exact spaces c hc

theorem indentBy_one : indentBy 1 = indent :=
  List.append_nil indent

theorem blank_indentBy (k : Nat) : ∀ c ∈ indentBy k, isBlank c = true := by
  intro c hc
  rw [mem_indentBy hc]
  decide

theorem isInline_indentBy (k : Nat) : IsInline (indentBy k) := by
  apply isInline_of_all
  intro c hc
  rw [mem_indentBy hc]
  decide

/-- Blanks before a text are trimmed. -/
theorem strip_append_blank {i : Text} (h : ∀ c ∈ i, isBlank c = true) (s : Text) :
    strip (i ++ s) = strip s := by
  induction i with
  | nil => rfl
  | cons c i ih =>
    rw [List.cons_append, strip_cons_blank (h c List.mem_cons_self)]
    exact ih fun d hd => h d (List.mem_cons_of_mem c hd)

theorem prepare_indentBy (k : Nat) (s : Text) :
    prepareForRendering (indentBy k ++ s) = prepareForRendering s := by
  rw [prepareForRendering_unmarked, (isInline_indentBy k).unmarked_append,
    strip_append_blank (blank_indentBy k)]
  rfl

/-- Lines with what stands in them: a text with an indentation, or nothing before other lines. -/
inductive Rows (P : Text → Prop) : List Text → List Text → Prop where
  | nil : Rows P [] []
  | gap {ls ss : List Text} (more : ss ≠ []) (rest : Rows P ls ss) : Rows P ([] :: ls) ss
  | line {ls ss : List Text} {s : Text} (k : Nat) (here : P s) (rest : Rows P ls ss) :
      Rows P ((indentBy k ++ s) :: ls) (s :: ss)

abbrev Lined := Rows IsLine

namespace Rows

variable {P Q : Text → Prop} {ls ks ss ts : List Text} {l : Text}

theorem append (h : Rows P ls ss) (h' : Rows P ks ts) : Rows P (ls ++ ks) (ss ++ ts) := by
  induction h with
  | nil => exact h'
  | gap more _ ih => exact .gap (List.append_ne_nil_of_left_ne_nil more _) ih
  | line k here _ ih => exact .line k here ih

theorem level (k : Nat) (h : ∀ s ∈ ss, P s) : Rows P (ss.map (indentBy k ++ ·)) ss := by
  induction ss with
  | nil => exact .nil
  | cons s ss ih =>
    exact .line k (h s List.mem_cons_self) (ih fun t ht => h t (List.mem_cons_of_mem s ht))

theorem ne_nil (h : Rows P ls ss) (some_left : ls ≠ []) : ss ≠ [] := by
  cases h with
  | nil => exact (some_left rfl).elim
  | gap more _ => exact more
  | line => exact List.cons_ne_nil _ _

theorem lines_ne_nil (h : Rows P ls ss) (some_left : ss ≠ []) : ls ≠ [] := by
  cases h with
  | nil => exact (some_left rfl).elim
  | gap => exact List.cons_ne_nil _ _
  | line => exact List.cons_ne_nil _ _

theorem afterGap (h : Rows P ls ss) : Rows P (afterGap ls) ss := by
  unfold Drawbridge.afterGap
  split
  · rename_i empty
    rw [← empty]
    exact h
  · rename_i some_left
    exact .gap (h.ne_nil some_left) h

theorem all_rows (h : Rows P ls ss) : ∀ s ∈ ss, P s := by
  induction h with
  | nil => nofun
  | gap _ _ ih => exact ih
  | line _ here _ ih => exact List.forall_mem_cons.mpr ⟨here, ih⟩

theorem map {f : Text → Text} (empty : f [] = [])
    (indented : ∀ k s, f (indentBy k ++ s) = indentBy k ++ f s) (here : ∀ s, P s → Q (f s))
    (h : Rows P ls ss) : Rows Q (ls.map f) (ss.map f) := by
  induction h with
  | nil => exact .nil
  | gap more _ ih =>
    rw [List.map_cons, empty]
    exact .gap (by simpa using more) ih
  | line k p _ ih =>
    rw [List.map_cons, indented]
    exact .line k (here _ p) ih

theorem mono (here : ∀ s, P s → Q s) (h : Rows P ls ss) : Rows Q ls ss := by
  have whole := h.map (f := id) rfl (fun _ _ => rfl) here
  rwa [List.map_id, List.map_id] at whole

/-! ## Rows in a text -/

theorem unbroken (h : Rows IsRow ls ss) : ∀ l ∈ ls, Unbroken l := by
  induction h with
  | nil => nofun
  | gap _ _ ih => exact List.forall_mem_cons.mpr ⟨nofun, ih⟩
  | line k here _ ih =>
    exact List.forall_mem_cons.mpr ⟨(isInline_indentBy k).unbroken.append here.unbroken, ih⟩

/-- After blanks, the text begins with a character of identifiers. -/
theorem joinLines_begins (h : Rows IsRow ls ss) (some_left : ls ≠ []) :
    ∃ g c r, joinLines ls = g ++ c :: r ∧ (∀ d ∈ g, isBlank d = true) ∧ isIdentChar c = true := by
  induction h with
  | nil => exact (some_left rfl).elim
  | gap more rest ih =>
    obtain ⟨g, c, r, begins, blanks, ident⟩ := ih (rest.lines_ne_nil more)
    refine ⟨'\n' :: g, c, r, ?_, List.forall_mem_cons.mpr ⟨by decide, blanks⟩, ident⟩
    rw [joinLines_cons [] (rest.lines_ne_nil more), begins]
    rfl
  | @line ls ss s k here rest ih =>
    obtain ⟨c, r, rfl, ident⟩ := here.starts
    by_cases last : ls = []
    · subst last
      exact ⟨indentBy k, c, r, rfl, blank_indentBy k, ident⟩
    · refine ⟨indentBy k, c, r ++ '\n' :: joinLines ls, ?_, blank_indentBy k, ident⟩
      rw [joinLines_cons _ last]
      simp

/-- No piece that is dropped reaches from one row into the next. -/
theorem seals (h : Rows IsRow ls ss) (some_left : ls ≠ []) : Seals ('\n' :: joinLines ls) := by
  obtain ⟨g, c, r, begins, blanks, ident⟩ := h.joinLines_begins some_left
  obtain ⟨solid, tick, -, slash, close⟩ := isIdentChar_plain ident
  refine ⟨'\n' :: g, c, r, by rw [begins]; rfl, ?_, solid, tick, slash, close, nofun⟩
  exact List.forall_mem_cons.mpr ⟨by decide, blanks⟩

/-- **What is dropped from the text is dropped from each row.** -/
theorem unmarked_joinLines (h : Rows IsRow ls ss) :
    unmarked (joinLines ls) = joinLines (ls.map unmarked) := by
  have newline (s : Text) : unmarked ('\n' :: s) = '\n' :: unmarked s :=
    unmarked_cons (by decide) (by decide) s
  induction h with
  | nil => rfl
  | gap more rest ih =>
    have some_left := rest.lines_ne_nil more
    rw [joinLines_cons [] some_left, List.map_cons,
      joinLines_cons _ (List.map_eq_nil_iff.not.mpr some_left), List.nil_append, newline, ih]
    rfl
  | @line ls ss s k here rest ih =>
    by_cases last : ls = []
    · subst last
      rfl
    · rw [joinLines_cons _ last, List.map_cons,
        joinLines_cons _ (List.map_eq_nil_iff.not.mpr last), unmarked_append (rest.seals last),
        newline, ih]

theorem unmarked (h : Rows IsRow ls ss) :
    Rows IsRow (ls.map unmarked) (ss.map unmarked) :=
  h.map rfl (fun k s => (isInline_indentBy k).unmarked_append s) fun _ hs => hs.unmarked

theorem last (h : Rows IsRow ls ss) : ∀ l ∈ ls.getLast?, strip l ≠ [] := by
  induction h with
  | nil => nofun
  | gap more rest ih =>
    rwa [List.getLast?_cons_of_ne_nil (rest.lines_ne_nil more)]
  | @line ls ss s k here rest ih =>
    by_cases some_left : ls = []
    · subst some_left
      intro l hl
      obtain ⟨c, r, hs, -⟩ := here.strip_starts
      rw [← Option.some.inj hl]
      show strip (indentBy k ++ s) ≠ []
      rw [strip_append_blank (blank_indentBy k), hs]
      exact List.cons_ne_nil c r
    · rwa [List.getLast?_cons_of_ne_nil some_left]

theorem lines_joinLines (h : Rows IsRow ls ss) : lines (joinLines ls) = ls := by
  apply Drawbridge.lines_joinLines h.unbroken
  rintro l hl rfl
  exact h.last [] hl rfl

/-- What is left of the lines are the trimmed rows. -/
theorem filter_eq (h : Rows IsRow ls ss) :
    (ls.map strip).filter (fun l => l ≠ [] && !"%%".toList.isPrefixOf l) = ss.map strip := by
  induction h with
  | nil => rfl
  | gap _ _ ih => rwa [List.map_cons, List.filter_cons_of_neg (by decide)]
  | line k here _ ih =>
    rw [List.map_cons, strip_append_blank (blank_indentBy k), List.filter_cons, if_pos here.kept,
      ih, List.map_cons]

theorem map_prepare (h : Rows IsRow ls ss) :
    (ls.filter (· ≠ [])).map prepareForRendering = ss.map prepareForRendering := by
  induction h with
  | nil => rfl
  | gap _ _ ih => rwa [List.filter_cons_of_neg (by simp)]
  | @line ls ss s k here _ ih =>
    obtain ⟨c, r, hs, -⟩ := here.starts
    have full : indentBy k ++ s ≠ [] :=
      List.append_ne_nil_of_right_ne_nil _ (hs ▸ List.cons_ne_nil c r)
    rw [List.filter_cons, if_pos (decide_eq_true full), List.map_cons, List.map_cons, ih,
      prepare_indentBy]

end Rows

/-! ## What a renderer sees -/

/-- **A renderer sees the header and the prepared rows, and nothing else.** -/
theorem diagramLines_rows {header : Text} {ls ss : List Text} (hh : IsRow header)
    (h : Rows IsRow ls ss) :
    diagramLines (prepareForRendering (joinLines (header :: ls))) =
      (header :: ss).map prepareForRendering := by
  have rows : Rows IsRow (header :: ls) (header :: ss) := .line 0 hh h
  have dropped := rows.unmarked
  obtain ⟨c, r, hs, ident⟩ := hh.unmarked.starts
  have first : ∃ c r, joinLines ((header :: ls).map unmarked) = c :: r ∧ isBlank c = false := by
    have head := head?_joinLines (List.cons_ne_nil c r) (ls.map unmarked)
    obtain ⟨t, ht⟩ := List.head?_eq_some_iff.mp head
    rw [List.map_cons, hs]
    exact ⟨c, t, ht, not_blank_of_isIdentChar ident⟩
  have read := lines_strip_joinLines dropped.unbroken first dropped.last
  rw [prepareForRendering_unmarked, rows.unmarked_joinLines, diagramLines, read, dropped.filter_eq,
    List.map_map]
  rfl

theorem diagramLines_lined {header : Text} {ls ss : List Text} (hh : IsLine header)
    (h : Lined ls ss) :
    diagramLines (prepareForRendering (joinLines (header :: ls))) = header :: ss := by
  rw [diagramLines_rows hh.isRow (h.mono fun _ hs => hs.isRow)]
  apply map_eq_self
  intro s hs
  rcases List.mem_cons.mp hs with rfl | hs
  · exact hh.prepare_eq
  · exact (h.all_rows s hs).prepare_eq

/-! ## Reading line by line -/

section Taking

variable {σ : Type} (step : σ → Nat → Text → Except Rejection σ)

/-- Takes lines in one by one, numbered from `k`. -/
def takeIn (k : Nat) (st : σ) (ls : List Text) : Except Rejection σ :=
  (ls.mapIdx fun i l => (i + k, l)).foldlM (fun st (k, l) => step st k l) st

/-- Lines are taken in from the first, and the others are numbered on from it. -/
theorem takeIn_cons (k : Nat) (st : σ) (l : Text) (ls : List Text) :
    takeIn step k st (l :: ls) = step st k l >>= fun st₁ => takeIn step (k + 1) st₁ ls := by
  have shifted : (fun i l => (i + 1 + k, l)) = fun (i : Nat) (l : Text) => (i + (k + 1), l) := by
    funext i l
    rw [Nat.add_assoc, Nat.add_comm 1 k]
  rw [takeIn, List.mapIdx_cons, List.foldlM_cons, shifted, Nat.zero_add]
  rfl

theorem takeIn_append (k : Nat) (st : σ) (ks ls : List Text) : takeIn step k st (ks ++ ls) =
    takeIn step k st ks >>= fun st₁ => takeIn step (k + ks.length) st₁ ls := by
  induction ks generalizing k st with
  | nil => rfl
  | cons l ks ih =>
    rw [List.cons_append, takeIn_cons, takeIn_cons, bind_assoc, List.length_cons,
      Nat.add_comm ks.length 1, ← Nat.add_assoc]
    simp only [ih]

/-- Lines lead a reader from one state to another, whatever the number of the first one. -/
def Reads (st : σ) (ls : List Text) (st' : σ) : Prop :=
  ∀ k, takeIn step k st ls = .ok st'

end Taking

namespace Reads

variable {σ : Type} {step : σ → Nat → Text → Except Rejection σ} {st st₁ st₂ : σ} {l : Text}
  {ls ks : List Text}

theorem nil (st : σ) : Reads step st [] st := fun _ => rfl

theorem cons (first : ∀ k, step st k l = .ok st₁) (rest : Reads step st₁ ls st₂) :
    Reads step st (l :: ls) st₂ := by
  intro k
  rw [takeIn_cons, first]
  exact rest (k + 1)

theorem append (first : Reads step st ks st₁) (rest : Reads step st₁ ls st₂) :
    Reads step st (ks ++ ls) st₂ := by
  intro k
  rw [takeIn_append, first]
  exact rest (k + ks.length)

/-- Lines that can be taken in one by one can be taken in all. -/
theorem exists_of_step {P : σ → Prop}
    (h : ∀ l ∈ ls, ∀ st, P st → ∃ st', P st' ∧ ∀ k, step st k l = .ok st') (start : P st) :
    ∃ st', P st' ∧ Reads step st ls st' := by
  induction ls generalizing st with
  | nil => exact ⟨st, start, .nil st⟩
  | cons l ls ih =>
    obtain ⟨st₁, kept, first⟩ := h l List.mem_cons_self st start
    obtain ⟨st₂, kept', rest⟩ := ih (fun m hm => h m (List.mem_cons_of_mem l hm)) kept
    exact ⟨st₂, kept', .cons first rest⟩

end Reads

end Drawbridge
