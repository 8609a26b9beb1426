import Drawbridge.Diagram.Renderer
import Drawbridge.Proofs.Diagram.Drafting
import Drawbridge.Proofs.Text.Cutting
import Mathlib.Order.Bounds.Basic

/-!
The line that a rejection names. A reader numbers the lines that count and stops at the first one
that it cannot take in (`takeIn_error`, `StopsInOrder`), so the number it gives is the place of that
line among the lines that count (`exists_isRejectedLine`). Blank lines and comments are not among
these: the number is the place of the line in the text just if none of them stands before it
(`lineNumber_right_iff`).
-/

namespace Drawbridge

def Rejection.number? : Rejection → Option Nat
  | badLine n _ | unexpectedEnd n _ => some n
  | _ => none

/-- A rejection in the words of this renderer. -/
def Rejection.IsOwn (r : Rejection) : Prop :=
  ∀ m c, r ≠ .other m c

/-- The beginning of a message that names a line. -/
def lineWords (n : Nat) : Text :=
  "Parse error on line ".toList ++ decimal n ++ [':']

/-- The number of the line that a reader stops at. -/
def stoppedAt? {α : Type} : Except Rejection α → Option Nat
  | .ok _ => none
  | .error r => r.number?

/-! ## Messages -/

theorem Rejection.isOwn_of_number? {r : Rejection} {n : Nat} (h : r.number? = some n) :
    r.IsOwn := by
  rintro m c rfl
  cases h

theorem colon_not_mem_decimal (n : Nat) : ':' ∉ decimal n := by
  intro h
  exact absurd (isDigit_of_mem_decimal h) (by decide)

/-- A number before a colon is the one that was written there. -/
theorem decimal_isPrefix_iff {w : Text} {n k : Nat} {rest : Text} :
    w ++ decimal n ++ [':'] <+: w ++ decimal k ++ ':' :: rest ↔ k = n := by
  rw [List.append_assoc, List.append_assoc, List.prefix_append_right_inj]
  constructor
  · rintro ⟨t, same⟩
    rw [List.append_assoc, List.singleton_append] at same
    have cut := congrArg (cutAt? ':') same
    rw [cutAt?_append (colon_not_mem_decimal n), cutAt?_append (colon_not_mem_decimal k)] at cut
    exact (decimal_injective (Prod.mk.inj (Option.some.inj cut)).1).symm
  · rintro rfl
    exact ⟨rest, by rw [List.append_assoc, List.singleton_append]⟩

/-- A message begins with a line just if the rejection names it. -/
theorem lineWords_isPrefix_iff {r : Rejection} (own : r.IsOwn) {n : Nat} :
    lineWords n <+: r.message ↔ r.number? = some n := by
  show "Parse error on line ".toList ++ decimal n ++ [':'] <+: r.message ↔ _
  cases r with
  | badLine k line =>
    show _ <+: "Parse error on line ".toList ++ decimal k ++ [':', ' '] ++ line ↔ some k = some n
    rw [List.append_assoc _ [':', ' '], List.cons_append, decimal_isPrefix_iff, Option.some.injEq]
  | unexpectedEnd k line =>
    have words : ": unexpected 'end'".toList = ':' :: " unexpected 'end'".toList := by decide
    show _ <+: "Parse error on line ".toList ++ decimal k ++ ": unexpected 'end'".toList ↔
      some k = some n
    rw [words, decimal_isPrefix_iff, Option.some.injEq]
  | other m c => exact (own m c rfl).elim
  | empty =>
    show _ <+: "Diagram text is empty".toList ↔ none = some n
    simp
  | unsupported keyword line =>
    show _ <+: "Unsupported diagram type: ".toList ++ keyword ↔ none = some n
    simp
  | missingEnd id =>
    show _ <+: "Parse error: subgraph '".toList ++ id ++ "' is missing 'end'".toList ↔
      none = some n
    simp

/-! ## Lines that are named -/

/-- If a computation fails, it names this line. -/
def FailsAt {α : Type} (k : Nat) (x : Except Rejection α) : Prop :=
  ∀ r, x = .error r → r.number? = some k

namespace FailsAt

variable {α β : Type} {k : Nat}

theorem ok (a : α) : FailsAt k (.ok a) :=
  nofun

theorem error {r : Rejection} (h : r.number? = some k) :
    FailsAt k (.error r : Except Rejection α) := by
  intro r' same
  cases same
  exact h

theorem bind {x : Except Rejection α} {f : α → Except Rejection β} (first : FailsAt k x)
    (others : ∀ a, FailsAt k (f a)) : FailsAt k (x >>= f) := by
  cases x with
  | error r => exact error (first r rfl)
  | ok a => exact others a

end FailsAt

/-! ## Runs -/

section Run

variable {σ : Type} (step : σ → Nat → Text → Except Rejection σ)

/-- A line that cannot be taken in is named by its number. -/
def NamesLine : Prop :=
  ∀ st k l, FailsAt k (step st k l)

variable {step}

/--
**Lines are taken in up to the first that cannot be.** It is the one that is named, the lines before
it are taken in without it, and those behind it make no difference.
-/
theorem takeIn_error (names : NamesLine step) {ls : List Text} {i : Nat} {st : σ} {r : Rejection}
    (fails : takeIn step i st ls = .error r) :
    ∃ n, r.number? = some n ∧ i ≤ n ∧ n < ls.length + i ∧ ∀ k,
      (n < k + i → takeIn step i st (ls.take k) = .error r) ∧
      (k + i ≤ n → ∃ st', takeIn step i st (ls.take k) = .ok st') := by
  induction ls generalizing i st with
  | nil => cases fails
  | cons l ls ih =>
    rw [takeIn_cons] at fails
    cases first : step st i l with
    | error r' =>
      rw [first] at fails
      cases fails
      refine ⟨i, names st i l r first, Nat.le_refl i, by simp, fun k => ?_⟩
      cases k with
      | zero => exact ⟨by omega, fun _ => ⟨st, rfl⟩⟩
      | succ k =>
        rw [List.take_succ_cons, takeIn_cons, first]
        exact ⟨fun _ => rfl, by omega⟩
    | ok st₁ =>
      rw [first] at fails
      obtain ⟨n, number, behind, bound, rest⟩ := ih fails
      refine ⟨n, number, by omega, by simp; omega, fun k => ?_⟩
      cases k with
      | zero => exact ⟨by omega, fun _ => ⟨st, rfl⟩⟩
      | succ k =>
        rw [List.take_succ_cons, takeIn_cons, first]
        exact ⟨fun h => (rest k).1 (by omega), fun h => (rest k).2 (by omega)⟩

end Run

/-! ## Readers -/

/-- A reader of the lines behind a header stops at the first line that it cannot take in. -/
structure StopsInOrder (read : List Text → Except Rejection Draft) : Prop where
  own : ∀ {ls r}, read ls = .error r → r.IsOwn
  /-- The line is counted from the header, and reading stops there just if it comes that far. -/
  stops : ∀ {ls n}, stoppedAt? (read ls) = some n → 2 ≤ n ∧ n < ls.length + 2 ∧
    ∀ k, (stoppedAt? (read (ls.take k))).isSome = true ↔ n < k + 2

/-- Whatever a reader does at the end, it stops in order if nothing else than its lines stops it. -/
theorem stopsInOrder_of_takeIn {σ : Type} {step : σ → Nat → Text → Except Rejection σ} {st : σ}
    {finish : σ → Except Rejection Draft} (names : NamesLine step)
    (unnumbered : ∀ st r, finish st = .error r → r.number? = none ∧ r.IsOwn) :
    StopsInOrder fun ls => takeIn step 2 st ls >>= finish := by
  have at_end : ∀ st, stoppedAt? (finish st) = none := by
    intro st
    cases ended : finish st with
    | ok d => rfl
    | error r => exact (unnumbered st r ended).1
  constructor
  · intro ls r fails
    cases run : takeIn step 2 st ls with
    | error r' =>
      rw [run] at fails
      cases fails
      obtain ⟨n, number, -⟩ := takeIn_error names run
      exact Rejection.isOwn_of_number? number
    | ok st₁ =>
      rw [run] at fails
      exact (unnumbered st₁ r fails).2
  · intro ls n stopped
    cases run : takeIn step 2 st ls with
    | ok st₁ =>
      rw [run] at stopped
      exact absurd ((at_end st₁).symm.trans stopped) (Option.some_ne_none n).symm
    | error r =>
      rw [run] at stopped
      obtain ⟨m, number, behind, bound, beginnings⟩ := takeIn_error names run
      obtain rfl : m = n := Option.some.inj (number.symm.trans stopped)
      refine ⟨behind, bound, fun k => ?_⟩
      by_cases reached : m < k + 2
      · rw [(beginnings k).1 reached]
        exact iff_of_true (Option.isSome_iff_exists.mpr ⟨m, number⟩) reached
      · obtain ⟨st₁, taken⟩ := (beginnings k).2 (by omega)
        have unstopped : stoppedAt? (takeIn step 2 st (ls.take k) >>= finish) = none := by
          rw [taken]
          exact at_end st₁
        rw [unstopped]
        exact iff_of_false (by simp) reached

/-! ## Flowcharts, class diagrams and sequence diagrams -/

namespace FlowchartReader

theorem addTokenText_failsAt (d : Draft) (k : Nat) (groups : List Text) (token : Text) :
    FailsAt k (d.addTokenText k groups token) := by
  unfold Draft.addTokenText
  split
  · exact .ok _
  · exact .error rfl

theorem addTokens_failsAt (d : Draft) (k : Nat) (groups tokens : List Text) :
    FailsAt k (d.addTokens k groups tokens) := by
  induction tokens generalizing d with
  | nil => exact .ok _
  | cons token tokens ih =>
    rw [Draft.addTokens]
    exact (addTokenText_failsAt d k groups token).bind fun added =>
      (ih added.1).bind fun _ => .ok _

theorem namesLine : NamesLine State.addLine := by
  intro st k l
  unfold State.addLine
  dsimp only
  cases readStatement (strip (dropRightWhile (· = ';') l)) with
  | closeSubgraph =>
    show FailsAt k (if st.enclosing = [] then _ else _)
    split
    · exact .error rfl
    · exact .ok _
  | chain ch =>
    have added : FailsAt k (st.draft.addChain k st.enclosing ch) :=
      (addTokens_failsAt st.draft k st.enclosing _).bind fun _ => .ok _
    exact added.bind fun _ => .ok _
  | openNamed id title => exact .ok _
  | openTitled title => exact .ok _
  | direction => exact .ok _
  | defineStyle name body => exact .ok _
  | assignStyle ids name => exact .ok _

/-- A subgraph without an end is found behind the last line, and no line is named for it. -/
theorem stopsInOrder : StopsInOrder read := by
  refine stopsInOrder_of_takeIn namesLine fun st r fails => ?_
  split at fails <;> cases fails
  exact ⟨rfl, nofun⟩

end FlowchartReader

namespace ClassReader

theorem namesLine : NamesLine State.addLine := by
  intro st k l
  unfold State.addLine
  split
  · exact .ok _
  · split
    · exact .ok _
    · exact .error rfl

theorem stopsInOrder : StopsInOrder read :=
  stopsInOrder_of_takeIn namesLine nofun

end ClassReader

namespace SequenceReader

theorem namesLine : NamesLine addLine := by
  intro d k l
  unfold addLine
  split
  · exact .ok _
  · exact .error rfl

theorem stopsInOrder : StopsInOrder read := by
  have ends : read = fun ls => takeIn addLine 2 {} ls >>= Except.ok := by
    funext ls
    exact (bind_pure (takeIn addLine 2 {} ls)).symm
  rw [ends]
  exact stopsInOrder_of_takeIn namesLine nofun

end SequenceReader

/-! ## Diagrams -/

def readerOf (header : Text) : List Text → Except Rejection Draft :=
  let keyword := (words header).headD []
  if keyword = "flowchart".toList || keyword = "graph".toList then FlowchartReader.read
  else if keyword = "classDiagram".toList then ClassReader.read
  else if keyword = "sequenceDiagram".toList then SequenceReader.read
  else fun _ => .error (.unsupported keyword header)

/-- The lines of a text that is to be read, blank lines and comments among them. -/
def preparedLines (s : Text) : List Text :=
  lines (prepareForRendering s)

/-- Whether a line counts: it is neither blank nor a comment. -/
def isCounted (l : Text) : Bool :=
  strip l ≠ [] && !"%%".toList.isPrefixOf (strip l)

/-- Reads lines that count, the header first. -/
def readCounted : List Text → Except Rejection Draft
  | [] => .error .empty
  | header :: ls => readerOf header ls

def readLines (ls : List Text) : Except Rejection Draft :=
  readCounted ((ls.filter isCounted).map strip)

/-- The number of the first line with which a text is rejected, whatever follows it. -/
def IsRejectedLine (ls : List Text) (m : Nat) : Prop :=
  IsLeast {k | (stoppedAt? (readLines (ls.take k))).isSome = true} m

theorem diagramLines_eq_counted (s : Text) :
    diagramLines s = ((lines s).filter isCounted).map strip :=
  List.filter_map

theorem readDiagram_eq_readLines (s : Text) : readDiagram s = readLines (preparedLines s) := by
  unfold readDiagram readLines
  rw [diagramLines_eq_counted, ← preparedLines]
  cases ((preparedLines s).filter isCounted).map strip with
  | nil => rfl
  | cons header ls =>
    unfold readCounted readerOf
    dsimp only
    split_ifs <;> rfl

theorem readerOf_stopsInOrder (header : Text) : StopsInOrder (readerOf header) := by
  unfold readerOf
  dsimp only
  split_ifs
  · exact FlowchartReader.stopsInOrder
  · exact ClassReader.stopsInOrder
  · exact SequenceReader.stopsInOrder
  · constructor
    · intro ls r fails
      cases fails
      exact nofun
    · nofun

theorem readCounted_isOwn {ls : List Text} {r : Rejection} (fails : readCounted ls = .error r) :
    r.IsOwn := by
  cases ls with
  | nil =>
    cases fails
    exact nofun
  | cons header ls => exact (readerOf_stopsInOrder header).own fails

theorem readCounted_stops {ls : List Text} {n : Nat}
    (stopped : stoppedAt? (readCounted ls) = some n) :
    n ≤ ls.length ∧ ∀ k, (stoppedAt? (readCounted (ls.take k))).isSome = true ↔ n ≤ k := by
  cases ls with
  | nil => cases stopped
  | cons header ls =>
    obtain ⟨behind, bound, beginnings⟩ := (readerOf_stopsInOrder header).stops stopped
    refine ⟨by rw [List.length_cons]; omega, fun k => ?_⟩
    cases k with
    | zero => exact iff_of_false nofun (by omega)
    | succ k =>
      rw [List.take_succ_cons]
      exact (beginnings k).trans (by omega)

theorem filter_take {α : Type} (p : α → Bool) (l : List α) (k : Nat) :
    (l.take k).filter p = (l.filter p).take ((l.take k).countP p) := by
  rw [List.countP_eq_length_filter]
  exact List.prefix_iff_eq_take.mp ((List.take_prefix k l).filter p)

/-- Up to the `n`-th of the elements with a property, there are `n` of them. -/
theorem exists_countP_take {α : Type} (p : α → Bool) {l : List α} {n : Nat} (h : n ≤ l.countP p) :
    ∃ m, (l.take m).countP p = n ∧ ∀ k, n ≤ (l.take k).countP p ↔ m ≤ k := by
  induction l generalizing n with
  | nil =>
    obtain rfl : n = 0 := Nat.le_zero.mp h
    exact ⟨0, rfl, fun k => iff_of_true (Nat.zero_le _) (Nat.zero_le k)⟩
  | cons a l ih =>
    cases n with
    | zero => exact ⟨0, rfl, fun k => iff_of_true (Nat.zero_le _) (Nat.zero_le k)⟩
    | succ n =>
      -- how many are to be found behind `a`
      have behind : n + 1 - (if p a then 1 else 0) ≤ l.countP p := by
        rw [List.countP_cons] at h
        omega
      obtain ⟨m, count, least⟩ := ih behind
      refine ⟨m + 1, ?_, fun k => ?_⟩
      · rw [List.take_succ_cons, List.countP_cons, count]
        split <;> omega
      · cases k with
        | zero => exact iff_of_false (Nat.not_succ_le_zero n) (Nat.not_succ_le_zero m)
        | succ k =>
          rw [List.take_succ_cons, List.countP_cons, Nat.succ_le_succ_iff, ← least k]
          split <;> omega

/-- **The number is a place among the lines that count.** -/
theorem exists_isRejectedLine {ls : List Text} {n : Nat}
    (stopped : stoppedAt? (readLines ls) = some n) :
    ∃ m, IsRejectedLine ls m ∧ (ls.take m).countP isCounted = n ∧ m ≤ ls.length := by
  obtain ⟨bound, beginnings⟩ := readCounted_stops stopped
  rw [List.length_map, ← List.countP_eq_length_filter] at bound
  obtain ⟨m, count, least⟩ := exists_countP_take isCounted bound
  have stops : ∀ k, (stoppedAt? (readLines (ls.take k))).isSome = true ↔ m ≤ k := by
    intro k
    rw [readLines, filter_take, List.map_take, beginnings, least]
  refine ⟨m, ⟨(stops m).mpr (Nat.le_refl m), fun k hk => (stops k).mp hk⟩, count, ?_⟩
  apply (stops ls.length).mp
  rw [List.take_length, stopped]
  rfl

/--
**When the number of a rejected line is right.** The number falls short of the place of the line in
the text by the blank lines and comments before it, and is right just if there are none.
-/
theorem lineNumber_right_iff {s : Text} {r : Rejection} {n : Nat}
    (rejected : renderDiagram s = .error r) (named : lineWords n <+: r.message) :
    ∃ m, IsRejectedLine (preparedLines s) m ∧
      n + ((preparedLines s).take m).countP (fun l => !isCounted l) = m ∧
      (n = m ↔ ∀ l ∈ (preparedLines s).take m, isCounted l = true) := by
  have fails : readLines (preparedLines s) = .error r := by
    rw [← readDiagram_eq_readLines]
    unfold renderDiagram at rejected
    cases read : readDiagram s with
    | ok d =>
      rw [read] at rejected
      cases rejected
    | error r' =>
      rw [read] at rejected
      cases rejected
      rfl
  have stopped : stoppedAt? (readLines (preparedLines s)) = some n := by
    rw [fails]
    exact (lineWords_isPrefix_iff (readCounted_isOwn fails)).mp named
  obtain ⟨m, line, count, bound⟩ := exists_isRejectedLine stopped
  have length : ((preparedLines s).take m).length = m := List.length_take_of_le bound
  have others := List.length_eq_countP_add_countP isCounted
    (l := (preparedLines s).take m)
  refine ⟨m, line, ?_, ?_⟩
  · simp only [Bool.not_eq_true, Bool.decide_eq_false] at others
    omega
  · rw [← List.countP_eq_length, count, length]

/-- A comment and a blank line stand before the line that is rejected. -/
def annotatedText : Text :=
  "flowchart TD\n%% the way in\n\nA-->B\n]".toList

theorem lineNumber_right_iff_annotatedText :
    renderDiagram annotatedText = .error (.badLine 3 "]".toList) ∧
    ∃ m, IsRejectedLine (preparedLines annotatedText) m ∧
      3 + ((preparedLines annotatedText).take m).countP (fun l => !isCounted l) = m ∧
      (3 = m ↔ ∀ l ∈ (preparedLines annotatedText).take m, isCounted l = true) := by
  have refused : readDiagram annotatedText = .error (.badLine 3 "]".toList) := by decide +kernel
  have rejected : renderDiagram annotatedText = .error (.badLine 3 "]".toList) := by
    rw [renderDiagram, refused]
    rfl
  exact ⟨rejected, lineNumber_right_iff rejected (by decide +kernel)⟩

/-- **A wrong number.** The third line is rejected, and the message names the second. -/
theorem lineNumber_belowBlank :
    ∃ r, renderDiagram "flowchart TD\n\n]".toList = .error r ∧
      r.message = "Parse error on line 2: ]".toList ∧
      IsRejectedLine (preparedLines "flowchart TD\n\n]".toList) 3 := by
  have refused : readDiagram "flowchart TD\n\n]".toList = .error (.badLine 2 "]".toList) := by
    decide +kernel
  have rejected : renderDiagram "flowchart TD\n\n]".toList = .error (.badLine 2 "]".toList) := by
    rw [renderDiagram, refused]
    rfl
  refine ⟨_, rejected, by decide +kernel, by decide +kernel, ?_⟩
  intro k stopped
  by_contra before
  have shorter : ∀ k < 3, ¬ (stoppedAt? (readLines
      ((preparedLines "flowchart TD\n\n]".toList).take k))).isSome = true := by
    decide +kernel
  exact shorter k (Nat.lt_of_not_le before) stopped

end Drawbridge
