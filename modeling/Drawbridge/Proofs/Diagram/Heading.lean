import Drawbridge.Proofs.Diagram.LineNumbers
import Drawbridge.Proofs.Markup.Direction
import Drawbridge.Proofs.Markup.Erasure

/-!
The kind of a diagram is told twice. `detectType` searches a text for the first header word at the
start of a line, and `readDiagram` takes the first word of the first line that is neither blank nor
a comment.

* `headerWord?_eq_some_iff`: what a line that begins with a header word looks like;
* `detectType_strip`: a text announces what it does without the blanks at its ends;
* `findHeader?_of_diagramLines`: no blank line and no comment holds the search up, so that it finds
  the first word of the first line that counts;
* `announced_as_read`: a diagram that is rendered announces the kind that it is read as.
-/

namespace Drawbridge

/-! ## First words -/

theorem exists_first_piece (p : Char → Bool) (s : Text) :
    ∃ r, s = (splitWhere p s).headD [] ++ r ∧ ∀ c ∈ r.head?, p c = true := by
  induction s with
  | nil => exact ⟨[], rfl, nofun⟩
  | cons c s ih =>
    rw [splitWhere]
    by_cases separates : p c = true
    · rw [if_pos separates]
      exact ⟨c :: s, rfl, fun d hd => by cases hd; exact separates⟩
    · obtain ⟨r, whole, ends⟩ := ih
      refine ⟨r, ?_, ends⟩
      rw [if_neg separates, congrArg (c :: ·) whole]
      cases splitWhere p s <;> rfl

/-- Behind its leading blanks a text begins with its first word, which a blank ends. -/
theorem exists_first_word (s : Text) :
    ∃ r, stripLeft s = (words s).headD [] ++ r ∧ ∀ c ∈ r.head?, isBlank c = true := by
  induction s with
  | nil => exact ⟨[], rfl, nofun⟩
  | cons c s ih =>
    by_cases blank : isBlank c = true
    · have same : words (c :: s) = words s := by simp [words, splitWhere, blank]
      rwa [stripLeft, List.dropWhile_cons_of_pos blank, same]
    · obtain ⟨r, whole, ends⟩ := exists_first_piece isBlank (c :: s)
      refine ⟨r, ?_, ends⟩
      have first : (words (c :: s)).headD [] = (splitWhere isBlank (c :: s)).headD [] := by
        rw [words, splitWhere, if_neg blank]
        cases splitWhere isBlank s <;> simp [consHead]
      rw [stripLeft, List.dropWhile_cons_of_neg blank, first, ← whole]

theorem exists_stripRight (s : Text) :
    ∃ e, stripRight s ++ e = s ∧ ∀ c ∈ e, isBlank c = true :=
  ⟨s.rtakeWhile isBlank, List.rdropWhile_append_rtakeWhile, fun _ hc => List.mem_rtakeWhile_imp hc⟩

/-! ## Header words -/

variable {s w : Text}

theorem solid_of_mem_headerWords : ∀ w ∈ headerWords, ∀ c ∈ w, isBlank c = false := by
  decide +kernel

/-- No header word begins another one, and none is a comment. -/
theorem headerWords_apart :
    ∀ v ∈ headerWords, v.head? ≠ none ∧ v.head? ≠ some '%' ∧
      ∀ w ∈ headerWords, v <+: w → v = w := by
  decide +kernel

def beginsWith (s w : Text) : Bool :=
  match afterPrefix? w (stripLeft s) with
  | some r => atWordEnd r
  | none => false

theorem headerWord?_eq_find? (s : Text) : headerWord? s = headerWords.find? (beginsWith s) := rfl

theorem beginsWith_iff :
    beginsWith s w = true ↔ ∃ r, stripLeft s = w ++ r ∧ atWordEnd r = true := by
  unfold beginsWith
  constructor
  · intro found
    split at found
    · rename_i r behind
      exact ⟨r, eq_append_of_afterPrefix? behind, found⟩
    · cases found
  · rintro ⟨r, whole, ends⟩
    rw [whole, afterPrefix?_append]
    exact ends

theorem headerWord?_eq_some_iff : headerWord? s = some w ↔
    w ∈ headerWords ∧ ∃ r, stripLeft s = w ++ r ∧ atWordEnd r = true := by
  rw [headerWord?_eq_find?]
  constructor
  · intro found
    exact ⟨List.mem_of_find?_eq_some found, beginsWith_iff.mp (List.find?_some found)⟩
  · rintro ⟨known, r, whole, ends⟩
    have some_found : (headerWords.find? (beginsWith s)).isSome :=
      List.find?_isSome.mpr ⟨w, known, beginsWith_iff.mpr ⟨r, whole, ends⟩⟩
    obtain ⟨v, found⟩ := Option.isSome_iff_exists.mp some_found
    obtain ⟨r', other, -⟩ := beginsWith_iff.mp (List.find?_some found)
    have listed : v ∈ headerWords := List.mem_of_find?_eq_some found
    rw [found]
    rcases List.prefix_or_prefix_of_prefix ⟨r, whole.symm⟩ ⟨r', other.symm⟩ with first | first
    · rw [(headerWords_apart w known).2.2 v listed first]
    · rw [(headerWords_apart v listed).2.2 w known first]

/-- A text whose first word is a header word begins with it. -/
theorem headerWord?_of_words (known : (words s).headD [] ∈ headerWords) :
    headerWord? s = some ((words s).headD []) := by
  obtain ⟨r, whole, ends⟩ := exists_first_word s
  exact headerWord?_eq_some_iff.mpr ⟨known, r, whole, atWordEnd_append ends []⟩

theorem headerWord?_cons_blank {c : Char} (blank : isBlank c = true) (s : Text) :
    headerWord? (c :: s) = headerWord? s := by
  unfold headerWord?
  rw [stripLeft, List.dropWhile_cons_of_pos blank]
  rfl

theorem headerWord?_blank (blank : ∀ c ∈ s, isBlank c = true) : headerWord? s = none := by
  by_contra some_found
  obtain ⟨w, found⟩ := Option.ne_none_iff_exists'.mp some_found
  obtain ⟨known, r, whole, -⟩ := headerWord?_eq_some_iff.mp found
  rw [stripLeft, List.dropWhile_eq_nil_iff.mpr blank] at whole
  have empty := (List.append_eq_nil_iff.mp whole.symm).1
  exact (headerWords_apart w known).1 (by rw [empty]; rfl)

theorem headerWord?_percent (s : Text) : headerWord? ('%' :: s) = none := by
  by_contra some_found
  obtain ⟨w, found⟩ := Option.ne_none_iff_exists'.mp some_found
  obtain ⟨known, r, whole, -⟩ := headerWord?_eq_some_iff.mp found
  obtain ⟨filled, other, -⟩ := headerWords_apart w known
  have solid : stripLeft ('%' :: s) = '%' :: s := rfl
  rw [solid] at whole
  cases w with
  | nil => exact filled rfl
  | cons c w =>
    cases whole
    exact other rfl

/-- What comes behind a text that is not blank counts for nothing if a blank comes first. -/
theorem headerWord?_append (solid : ¬ ∀ c ∈ s, isBlank c = true) {e : Text}
    (ends : ∀ c ∈ e.head?, isBlank c = true) : headerWord? (s ++ e) = headerWord? s := by
  have longer : stripLeft (s ++ e) = stripLeft s ++ e :=
    dropWhile_append_of_ne_nil (mt List.dropWhile_eq_nil_iff.mp solid) e
  ext w
  rw [headerWord?_eq_some_iff, headerWord?_eq_some_iff, longer]
  refine and_congr_right fun known => ⟨?_, ?_⟩
  · rintro ⟨r, whole, ended⟩
    have begins : w <+: stripLeft s := by
      cases e with
      | nil => exact ⟨r, by rw [← whole, List.append_nil]⟩
      | cons c e =>
        have foreign : c ∉ w := fun hc =>
          ne_of_class (ends c rfl) (solid_of_mem_headerWords w known c hc) rfl
        exact isPrefix_of_isPrefix_append_cons foreign ⟨r, whole.symm⟩
    obtain ⟨r', cut⟩ := begins
    rw [← cut, List.append_assoc, List.append_cancel_left_eq] at whole
    rw [← whole, atWordEnd_append ends] at ended
    exact ⟨r', cut.symm, ended⟩
  · rintro ⟨r, whole, ended⟩
    exact ⟨r ++ e, by rw [whole, List.append_assoc], by rwa [atWordEnd_append ends]⟩

/-! ## The search -/

theorem findHeader?_of_headerWord? (found : headerWord? s = some w) :
    findHeader? true s = some w := by
  cases s with
  | nil =>
    rw [headerWord?_blank (List.forall_mem_nil _)] at found
    cases found
  | cons c s => rw [findHeader?, if_pos rfl, found]

/-- Where a line begins with no header word, the search goes on in its middle. -/
theorem findHeader?_middle (unfound : headerWord? s = none) :
    findHeader? true s = findHeader? false s := by
  cases s with
  | nil => rfl
  | cons c s =>
    rw [findHeader?, if_pos rfl, unfound]
    rfl

theorem findHeader?_false_cons (c : Char) (s : Text) :
    findHeader? false (c :: s) = findHeader? (c = '\n') s := rfl

theorem findHeader?_cons_blank {c : Char} (blank : isBlank c = true) (s : Text) :
    findHeader? true (c :: s) = findHeader? true s := by
  have same := headerWord?_cons_blank blank s
  cases found : headerWord? s with
  | some w =>
    rw [findHeader?_of_headerWord? found, findHeader?_of_headerWord? (same.trans found)]
  | none =>
    rw [findHeader?_middle (same.trans found), findHeader?_false_cons]
    by_cases feed : c = '\n'
    · rw [decide_eq_true feed]
    · rw [decide_eq_false feed, findHeader?_middle found]

/-- What ends a line: a line feed with the lines behind it, or the end of the text. -/
def EndsLine (e : Text) : Prop :=
  e = [] ∨ ∃ u, e = '\n' :: u

theorem EndsLine.blank {e : Text} (h : EndsLine e) : ∀ c ∈ e.head?, isBlank c = true := by
  rcases h with rfl | ⟨u, rfl⟩
  · nofun
  · intro c hc
    cases hc
    decide

/-- A line that begins with no header word is passed over. -/
theorem findHeader?_line {l e : Text} (unbroken : ∀ c ∈ l, c ≠ '\n') (ends : EndsLine e)
    (unfound : headerWord? (l ++ e) = none) :
    findHeader? true (l ++ e) = findHeader? true e.tail := by
  rw [findHeader?_middle unfound]
  clear unfound
  induction l with
  | nil => rcases ends with rfl | ⟨u, rfl⟩ <;> rfl
  | cons c l ih =>
    obtain ⟨other, unbroken⟩ := List.forall_mem_cons.mp unbroken
    rw [List.cons_append, findHeader?_false_cons, decide_eq_false other, ih unbroken]

theorem findHeader?_blank (blank : ∀ c ∈ s, isBlank c = true) (b : Bool) :
    findHeader? b s = none := by
  induction s generalizing b with
  | nil => rfl
  | cons c s ih =>
    have unfound : findHeader? true (c :: s) = findHeader? false (c :: s) :=
      findHeader?_middle (headerWord?_blank blank)
    have here : findHeader? b (c :: s) = findHeader? false (c :: s) := by
      cases b with
      | false => rfl
      | true => exact unfound
    rw [here, findHeader?_false_cons, ih (List.forall_mem_cons.mp blank).2]

/-- Blanks at the end of a text announce nothing. -/
theorem findHeader?_append_blank {e : Text} (blank : ∀ c ∈ e, isBlank c = true) (s : Text)
    (b : Bool) : findHeader? b (s ++ e) = findHeader? b s := by
  induction s generalizing b with
  | nil => rw [List.nil_append, findHeader?_blank blank, findHeader?]
  | cons c s ih =>
    have same : headerWord? (c :: (s ++ e)) = headerWord? (c :: s) := by
      by_cases all : ∀ d ∈ c :: s, isBlank d = true
      · have longer : ∀ d ∈ c :: (s ++ e), isBlank d = true := by
          intro d hd
          rcases List.mem_append.mp (List.cons_append ▸ hd) with hd | hd
          · exact all d hd
          · exact blank d hd
        rw [headerWord?_blank all, headerWord?_blank longer]
      · exact headerWord?_append all fun d hd => blank d (List.mem_of_mem_head? hd)
    rw [List.cons_append, findHeader?, findHeader?, same, ih]

/-- A text announces what it does without the blanks at its ends. -/
theorem detectType_strip (s : Text) : detectType (strip s) = detectType s := by
  have front : findHeader? true (stripLeft s) = findHeader? true s := by
    induction s with
    | nil => rfl
    | cons c s ih =>
      by_cases blank : isBlank c = true
      · rw [findHeader?_cons_blank blank, ← ih, stripLeft, List.dropWhile_cons_of_pos blank]
        rfl
      · rw [stripLeft, List.dropWhile_cons_of_neg blank]
  obtain ⟨e, whole, blank⟩ := exists_stripRight (stripLeft s)
  have behind : findHeader? true (strip s) = findHeader? true (stripLeft s) := by
    rw [← findHeader?_append_blank blank (strip s) true]
    exact congrArg _ whole
  rw [detectType, behind, front]
  rfl

/-! ## Lines that count -/

theorem diagramLines_cons_blank {c : Char} (blank : isBlank c = true) (ret : c ≠ '\r') (s : Text) :
    diagramLines (c :: s) = diagramLines s := by
  by_cases broken : isLineBreak c = true
  · rw [diagramLines, lines_break broken ret]
    rfl
  · rw [diagramLines, lines_cons (by simpa using broken)]
    cases cut : lines s with
    | nil =>
      have empty : strip [c] = [] := strip_cons_blank blank []
      simp [diagramLines, cut, consHead, empty]
    | cons l ls => simp only [diagramLines, cut, consHead, List.map_cons, strip_cons_blank blank]

/-- The first line of a text, which counts or not. -/
theorem diagramLines_line {l e : Text} (plain : ∀ c ∈ l, isLineBreak c = false) (filled : l ≠ [])
    (ends : EndsLine e) : diagramLines (l ++ e) =
      if isCounted l then strip l :: diagramLines e.tail else diagramLines e.tail := by
  have cut : lines (l ++ e) = l :: lines e.tail := by
    rcases ends with rfl | ⟨u, rfl⟩
    · rw [List.append_nil, lines_plain plain filled]
      rfl
    · exact lines_line plain (by decide) (by decide) u
  rw [diagramLines_eq_counted, diagramLines_eq_counted, cut, List.filter_cons]
  split <;> rfl

theorem exists_line {c : Char} {s : Text} (solid : isBlank c = false)
    (feeds : ∀ d ∈ c :: s, isLineBreak d = true → d = '\n') :
    ∃ l e, s = l ++ e ∧ (∀ d ∈ c :: l, isLineBreak d = false) ∧ EndsLine e := by
  obtain ⟨e, whole, ends⟩ := exists_headD_lines s
  have plain : ∀ d ∈ (lines s).headD [], isLineBreak d = false := by
    cases cut : lines s with
    | nil => nofun
    | cons l ls => exact not_lineBreak_of_mem_lines (by rw [cut]; exact List.mem_cons_self)
  refine ⟨_, e, whole, List.forall_mem_cons.mpr ⟨not_lineBreak_of_not_blank solid, plain⟩, ?_⟩
  cases e with
  | nil => exact .inl rfl
  | cons d u =>
    have later : d ∈ c :: s := by
      rw [whole]
      simp
    exact .inr ⟨u, by rw [feeds d later (ends d rfl)]⟩

/-- A line that does not count is a comment, if it is not blank. -/
theorem eq_percent_of_not_counted {c : Char} {l : Text} (solid : isBlank c = false)
    (comment : isCounted (c :: l) = false) : c = '%' := by
  have trimmed : strip (c :: l) = c :: stripRight l := by
    rw [strip_cons_of_not_blank solid, stripRight_cons_of_not_blank solid]
  rw [isCounted, trimmed] at comment
  have mark : "%%".toList <+: c :: stripRight l := by simpa using comment
  exact (List.cons_prefix_cons.mp mark).1.symm

/-- A line begins with a header word if this is the first word of the trimmed line. -/
theorem headerWord?_line {c : Char} {l e : Text} (solid : isBlank c = false)
    (known : (words (strip (c :: l))).headD [] ∈ headerWords) (ends : EndsLine e) :
    headerWord? (c :: l ++ e) = some ((words (strip (c :: l))).headD []) := by
  have trimmed : strip (c :: l) = stripRight (c :: l) := strip_cons_of_not_blank solid l
  have starts : stripRight (c :: l) = c :: stripRight l := stripRight_cons_of_not_blank solid l
  have filled : ¬ ∀ d ∈ stripRight (c :: l), isBlank d = true := by
    rw [starts, List.forall_mem_cons, solid]
    exact fun h => Bool.false_ne_true h.1
  obtain ⟨b, whole, blanks⟩ := exists_stripRight (c :: l)
  have behind : ∀ d ∈ (b ++ e).head?, isBlank d = true := by
    cases b with
    | nil => exact ends.blank
    | cons d b =>
      intro d' hd
      cases hd
      exact blanks d List.mem_cons_self
  rw [← headerWord?_of_words known, trimmed, ← headerWord?_append filled behind,
    ← List.append_assoc, whole]

/--
**The search finds the first word of the first line that counts.** Blank lines and comments before
it begin with no header word, and nothing behind it is looked at.
-/
theorem findHeader?_of_diagramLines {s header : Text} {ls : List Text}
    (feeds : ∀ c ∈ s, isLineBreak c = true → c = '\n') (seen : diagramLines s = header :: ls)
    (known : (words header).headD [] ∈ headerWords) :
    findHeader? true s = some ((words header).headD []) := by
  -- by the length of the text, of which a blank or a comment is taken away
  induction hn : s.length using Nat.strong_induction_on generalizing s with
  | _ n ih =>
    cases s with
    | nil => cases seen
    | cons c s =>
      rw [List.length_cons] at hn
      by_cases blank : isBlank c = true
      · have ret : c ≠ '\r' := by
          rintro rfl
          exact absurd (feeds '\r' List.mem_cons_self (by decide)) (by decide)
        rw [diagramLines_cons_blank blank ret] at seen
        rw [findHeader?_cons_blank blank]
        exact ih s.length (by omega) (List.forall_mem_cons.mp feeds).2 seen rfl
      · have solid : isBlank c = false := by simpa using blank
        obtain ⟨l, e, rfl, plain, ends⟩ := exists_line solid feeds
        rw [← List.cons_append] at seen feeds ⊢
        rw [diagramLines_line plain (List.cons_ne_nil c l) ends] at seen
        split at seen
        · obtain ⟨rfl, -⟩ := List.cons.inj seen
          exact findHeader?_of_headerWord? (headerWord?_line solid known ends)
        · rename_i comment
          have unbroken : ∀ d ∈ c :: l, d ≠ '\n' := fun d hd =>
            (ne_of_class (show isLineBreak '\n' = true by decide) (plain d hd)).symm
          have unfound : headerWord? (c :: l ++ e) = none := by
            rw [eq_percent_of_not_counted solid (by simpa using comment)]
            exact headerWord?_percent _
          have shorter : e.tail.length < n := by
            rw [List.length_append] at hn
            rw [List.length_tail]
            omega
          rw [findHeader?_line unbroken ends unfound]
          exact ih _ shorter (fun d hd => feeds d
            (List.mem_append_right _ (List.mem_of_mem_tail hd))) seen rfl

/-! ## Kinds of diagrams -/

inductive DiagramKind
  | flowchart
  | classes
  | sequence

namespace DiagramKind

def name : DiagramKind → Text
  | flowchart => "flowchart".toList
  | classes => "classDiagram".toList
  | sequence => "sequenceDiagram".toList

def openers : DiagramKind → List Text
  | flowchart => ["flowchart".toList, "graph".toList]
  | classes => ["classDiagram".toList]
  | sequence => ["sequenceDiagram".toList]

def read : DiagramKind → List Text → Except Rejection Draft
  | flowchart => FlowchartReader.read
  | classes => ClassReader.read
  | sequence => SequenceReader.read

theorem mem_headerWords {k : DiagramKind} (h : w ∈ k.openers) : w ∈ headerWords := by
  cases k <;> revert w <;> decide +kernel

/-- No word opens diagrams of two kinds. -/
theorem eq_of_mem_openers {j k : DiagramKind} (hj : w ∈ j.openers) (hk : w ∈ k.openers) :
    j = k := by
  cases j <;> cases k <;> first | rfl | (exfalso; revert w; decide +kernel)

theorem detectType_eq {k : DiagramKind} (found : findHeader? true s = some w) (h : w ∈ k.openers) :
    detectType s = k.name := by
  rw [detectType, found]
  clear found
  cases k <;> revert w <;> decide +kernel

end DiagramKind

/-- The text has a header of this kind, and the lines behind it amount to this diagram. -/
def ReadAs (s : Text) (k : DiagramKind) (d : Draft) : Prop :=
  ∃ header ls, diagramLines (prepareForRendering s) = header :: ls ∧
    (words header).headD [] ∈ k.openers ∧ k.read ls = .ok d

theorem ReadAs.unique {j k : DiagramKind} {d d' : Draft} (hj : ReadAs s j d) (hk : ReadAs s k d') :
    j = k ∧ d = d' := by
  obtain ⟨header, ls, seen, opens, read⟩ := hj
  obtain ⟨header', ls', seen', opens', read'⟩ := hk
  rw [seen] at seen'
  cases seen'
  obtain rfl := DiagramKind.eq_of_mem_openers opens opens'
  rw [read] at read'
  exact ⟨rfl, Except.ok.inj read'⟩

/-- What is read is read as a diagram of some kind. -/
theorem exists_readAs {d : Draft} (read : readDiagram s = .ok d) : ∃ k, ReadAs s k d := by
  unfold readDiagram at read
  split at read
  · cases read
  · rename_i header ls seen
    dsimp only at read
    split_ifs at read with flowchart classes sequence
    · have opens : (words header).headD [] ∈ DiagramKind.flowchart.openers := by
        simpa [DiagramKind.openers] using flowchart
      exact ⟨.flowchart, header, ls, seen, opens, read⟩
    · exact ⟨.classes, header, ls, seen, List.mem_singleton.mpr classes, read⟩
    · exact ⟨.sequence, header, ls, seen, List.mem_singleton.mpr sequence, read⟩

theorem exists_read_of_render {r : Rendering} (rendered : renderDiagram s = .ok r) :
    ∃ d, readDiagram s = .ok d ∧ Layout.render d = r := by
  unfold renderDiagram at rendered
  cases read : readDiagram s with
  | error e =>
    rw [read] at rendered
    cases rendered
  | ok d =>
    rw [read] at rendered
    exact ⟨d, rfl, Except.ok.inj rendered⟩

/--
**A diagram that is rendered announces the kind that it is read as.** Take a text without fences and
line-break tags, which only line feeds break. If it is rendered, then as a diagram of one kind, the
one that its search for a header word finds, whatever blank lines and comments stand before the
header and whatever the lines behind it are.
-/
theorem announced_as_read (plain : IsUnmarked s)
    (feeds : ∀ c ∈ s, isLineBreak c = true → c = '\n') {r : Rendering}
    (rendered : renderDiagram s = .ok r) :
    ∃ k d, ReadAs s k d ∧ r = Layout.render d ∧ detectType s = k.name ∧
      ∀ j d', ReadAs s j d' → j = k ∧ d' = d := by
  obtain ⟨d, read, rfl⟩ := exists_read_of_render rendered
  obtain ⟨k, header, ls, seen, opens, lines_read⟩ := exists_readAs read
  have found : findHeader? true (strip s) = some ((words header).headD []) := by
    rw [prepareForRendering_unmarked, plain.unmarked_eq] at seen
    exact findHeader?_of_diagramLines (fun c hc => feeds c ((strip_isInfix s).subset hc)) seen
      (DiagramKind.mem_headerWords opens)
  have whole : ReadAs s k d := ⟨header, ls, seen, opens, lines_read⟩
  have announced : detectType s = k.name := by
    rw [← detectType_strip]
    exact DiagramKind.detectType_eq found opens
  exact ⟨k, d, whole, rfl, announced, fun _ _ other => other.unique whole⟩

/-- The header stands behind a blank line and a comment on another kind, and a line of the third
kind behind it. -/
def headedText : Text :=
  "\n%% sequenceDiagram\n\n  graph TD\n  A --> B\n  classDiagram\n".toList

theorem announced_as_read_headedText :
    IsUnmarked headedText ∧ (∀ c ∈ headedText, isLineBreak c = true → c = '\n') ∧
      ∃ r d, renderDiagram headedText = .ok r ∧ ReadAs headedText .flowchart d ∧
        r = Layout.render d ∧ detectType headedText = "flowchart".toList := by
  have plain : IsUnmarked headedText := by
    refine ⟨by decide +kernel, ?_⟩
    rintro t ⟨b, r, gap, close, -, -, -, -, rfl⟩ stands
    exact absurd (stands.subset List.mem_cons_self) (by decide +kernel)
  have feeds : ∀ c ∈ headedText, isLineBreak c = true → c = '\n' := by decide +kernel
  have accepted : (renderDiagram headedText).toOption.isSome = true := by decide +kernel
  obtain ⟨r, hr⟩ := Option.isSome_iff_exists.mp accepted
  have rendered : renderDiagram headedText = .ok r := eq_ok_of_toOption hr
  obtain ⟨k, d, whole, shown, announced, -⟩ := announced_as_read plain feeds rendered
  have kind : k = .flowchart := by
    have opens : diagramLines (prepareForRendering headedText) =
        ["graph TD".toList, "A --> B".toList, "classDiagram".toList] := by decide +kernel
    obtain ⟨header, ls, seen, opener, -⟩ := whole
    obtain ⟨rfl, -⟩ := List.cons.inj (opens.symm.trans seen)
    exact DiagramKind.eq_of_mem_openers opener (by decide +kernel)
  subst kind
  exact ⟨plain, feeds, r, d, rendered, whole, shown, announced⟩

end Drawbridge
