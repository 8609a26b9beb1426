import Drawbridge.Markup.Header
import Drawbridge.Proofs.Text.Words

/-!
Turning a flowchart. A text that begins with a flowchart header is cut at its direction
(`DirectedText`).

* `afterWordAnyCase?_eq_some_iff`: a word in whatever case;
* `flipHeader?_eq_some_iff`: the lines that are headers, and what becomes of them;
* `flipFirst?_directed`, `flipFirst?_lines_eq_none_iff`: the lines of a text, whether it begins with
  a header or not;
* `direction_turned_iff`: when nothing but the direction is another.
-/

namespace Drawbridge

/-! ## Words in either case -/

theorem toNat_toLower (c : Char) :
    c.toLower.toNat = if 65 ≤ c.toNat ∧ c.toNat ≤ 90 then c.toNat + 32 else c.toNat := by
  have upper : (c.val ≥ 'A'.val ∧ c.val ≤ 'Z'.val) ↔ 65 ≤ c.toNat ∧ c.toNat ≤ 90 := by
    simp only [ge_iff_le, UInt32.le_iff_toNat_le]
    rfl
  unfold Char.toLower
  by_cases h : c.val ≥ 'A'.val ∧ c.val ≤ 'Z'.val
  · have bounds := upper.mp h
    rw [dif_pos h, if_pos bounds]
    have more : ('a'.val - 'A'.val).toNat = 32 := by decide
    show (c.val + ('a'.val - 'A'.val)).toNat = _
    rw [UInt32.toNat_add, more, Char.toNat_val]
    omega
  · rw [dif_neg h, if_neg (mt upper.mpr h)]

theorem toNat_toUpper (c : Char) :
    c.toUpper.toNat = if 97 ≤ c.toNat ∧ c.toNat ≤ 122 then c.toNat - 32 else c.toNat := by
  have lower : ('a'.val ≤ c.val ∧ c.val ≤ 'z'.val) ↔ 97 ≤ c.toNat ∧ c.toNat ≤ 122 := by
    simp only [UInt32.le_iff_toNat_le]
    rfl
  unfold Char.toUpper
  by_cases h : 'a'.val ≤ c.val ∧ c.val ≤ 'z'.val
  · have bounds := lower.mp h
    rw [dif_pos h, if_pos bounds]
    have less : ('A'.val - 'a'.val).toNat = 2 ^ 32 - 32 := by decide
    show (c.val + ('A'.val - 'a'.val)).toNat = _
    rw [UInt32.toNat_add, less, Char.toNat_val]
    omega
  · rw [dif_neg h, if_neg (mt lower.mpr h)]

/-- Characters are alike in lower case just if they are alike in upper case. -/
theorem toLower_eq_iff_toUpper_eq {c d : Char} : c.toLower = d.toLower ↔ c.toUpper = d.toUpper := by
  simp only [← Char.toNat_inj, toNat_toLower, toNat_toUpper]
  split <;> split <;> split <;> split <;> omega

theorem map_toLower_eq_iff {s t : Text} :
    s.map Char.toLower = t.map Char.toLower ↔ s.map Char.toUpper = t.map Char.toUpper := by
  induction s generalizing t with
  | nil => simp
  | cons c s ih =>
    cases t with
    | nil => simp
    | cons d t => simp only [List.map_cons, List.cons.injEq, ih, toLower_eq_iff_toUpper_eq]

theorem afterWordAnyCase?_eq_some_iff {w s x r : Text} :
    afterWordAnyCase? w s = some (x, r) ↔ s = x ++ r ∧ x.map Char.toLower = w.map Char.toLower := by
  fun_induction afterWordAnyCase? w s generalizing x with
  | case1 s =>
    constructor
    · intro h
      cases h
      exact ⟨rfl, rfl⟩
    · rintro ⟨rfl, none_left⟩
      rw [List.map_nil, List.map_eq_nil_iff] at none_left
      rw [none_left, List.nil_append]
  | case2 a w =>
    refine iff_of_false nofun ?_
    rintro ⟨whole, same⟩
    obtain ⟨rfl, -⟩ := List.append_eq_nil_iff.mp whole.symm
    cases same
  | case3 a w c s same ih =>
    constructor
    · intro h
      obtain ⟨⟨y, u⟩, hy, hx⟩ := Option.map_eq_some_iff.mp h
      cases hx
      obtain ⟨rfl, rest⟩ := ih.mp hy
      exact ⟨rfl, by rw [List.map_cons, List.map_cons, same, rest]⟩
    · rintro ⟨whole, spelled⟩
      cases x with
      | nil => cases spelled
      | cons d y =>
        obtain ⟨rfl, rfl⟩ := List.cons.inj whole
        rw [ih.mpr ⟨rfl, (List.cons.inj spelled).2⟩]
        rfl
  | case4 a w c s other =>
    refine iff_of_false nofun ?_
    rintro ⟨whole, spelled⟩
    cases x with
    | nil => cases spelled
    | cons d y =>
      obtain ⟨rfl, -⟩ := List.cons.inj whole
      exact other (List.cons.inj spelled).1

/-- What one element gives is found first if no other gives anything else. -/
theorem findSome?_eq_some_of_unique {α β : Type} {f : α → Option β} {l : List α} {a : α} {b : β}
    (ha : a ∈ l) (h : f a = some b) (unique : ∀ a' ∈ l, ∀ b', f a' = some b' → b' = b) :
    l.findSome? f = some b := by
  cases found : l.findSome? f with
  | none =>
    rw [List.findSome?_eq_none_iff.mp found a ha] at h
    cases h
  | some b' =>
    obtain ⟨a', ha', hb'⟩ := List.exists_of_findSome?_eq_some found
    rw [unique a' ha' b' hb']

theorem toLower_of_isBlank {c : Char} (h : isBlank c = true) :
    c.toLower = c ∧ c.toUpper = c := by
  simp only [isBlank, Bool.or_eq_true, Bool.and_eq_true, decide_eq_true_eq] at h
  constructor
  · rw [← Char.toNat_inj, toNat_toLower]
    exact if_neg (by omega)
  · rw [← Char.toNat_inj, toNat_toUpper]
    exact if_neg (by omega)

/-! ## Header lines -/

def flowchartWords : List Text :=
  ["flowchart".toList, "graph".toList]

/-- A flowchart word, blanks on one line, and a direction before the end of a word. -/
structure IsHeader (word gap direction rest : Text) : Prop where
  word : word.map Char.toLower ∈ flowchartWords
  gap_ne_nil : gap ≠ []
  gap : ∀ c ∈ gap, isBlank c = true ∧ isLineBreak c = false
  direction : direction.map Char.toUpper ∈ directions
  ends : atWordEnd rest = true

namespace IsHeader

variable {word gap direction rest : Text}

theorem word_solid (h : IsHeader word gap direction rest) : ∀ c ∈ word, isBlank c = false := by
  intro c hc
  by_contra blank
  have blank : isBlank c = true := by simpa using blank
  have letters : ∀ w ∈ flowchartWords, ∀ c ∈ w, isBlank c = false := by decide
  have letter := letters _ h.word _ (List.mem_map_of_mem hc)
  rw [(toLower_of_isBlank blank).1, blank] at letter
  cases letter

theorem direction_solid (h : IsHeader word gap direction rest) :
    ∀ c ∈ direction, isBlank c = false := by
  intro c hc
  by_contra blank
  have blank : isBlank c = true := by simpa using blank
  have letters : ∀ d ∈ directions, ∀ c ∈ d, isBlank c = false := by decide
  have letter := letters _ h.direction _ (List.mem_map_of_mem hc)
  rw [(toLower_of_isBlank blank).2, blank] at letter
  cases letter

theorem exists_word (h : IsHeader word gap direction rest) :
    ∃ c u, word = c :: u ∧ isBlank c = false := by
  cases hw : word with
  | nil =>
    have empty := h.word
    rw [hw] at empty
    exact absurd empty (by decide)
  | cons c u => exact ⟨c, u, rfl, h.word_solid c (by rw [hw]; exact List.mem_cons_self)⟩

theorem direction_length (h : IsHeader word gap direction rest) : direction.length = 2 := by
  have two : ∀ d ∈ directions, d.length = 2 := by decide
  rw [← List.length_map Char.toUpper]
  exact two _ h.direction

theorem exists_direction (h : IsHeader word gap direction rest) :
    ∃ c u, direction = c :: u ∧ isBlank c = false := by
  cases hd : direction with
  | nil =>
    have two := h.direction_length
    rw [hd] at two
    cases two
  | cons c u => exact ⟨c, u, rfl, h.direction_solid c (by rw [hd]; exact List.mem_cons_self)⟩

end IsHeader

theorem findWord_eq_some_iff {s x r : Text} :
    (flowchartWords.findSome? fun w => afterWordAnyCase? w s) = some (x, r) ↔
      s = x ++ r ∧ x.map Char.toLower ∈ flowchartWords := by
  have lower : ∀ w ∈ flowchartWords, w.map Char.toLower = w := by decide
  constructor
  · intro h
    obtain ⟨w, hw, read⟩ := List.exists_of_findSome?_eq_some h
    obtain ⟨whole, spelled⟩ := afterWordAnyCase?_eq_some_iff.mp read
    rw [spelled, lower w hw]
    exact ⟨whole, hw⟩
  · rintro ⟨rfl, hx⟩
    have read : afterWordAnyCase? (x.map Char.toLower) (x ++ r) = some (x, r) :=
      afterWordAnyCase?_eq_some_iff.mpr ⟨rfl, (lower _ hx).symm⟩
    refine findSome?_eq_some_of_unique hx read ?_
    rintro w hw ⟨y, u⟩ other
    obtain ⟨whole, spelled⟩ := afterWordAnyCase?_eq_some_iff.mp other
    rw [lower w hw] at spelled
    rw [← spelled] at hw
    -- words with one first letter are the same, and so is what was read of them
    have first : ∀ v ∈ flowchartWords, ∀ w ∈ flowchartWords, v.head? = w.head? → v = w := by decide
    have some_letter : ∀ z : Text, z.map Char.toLower ∈ flowchartWords → ∃ c t, z = c :: t := by
      intro z hz
      refine List.exists_cons_of_ne_nil ?_
      rintro rfl
      exact absurd hz (by decide)
    obtain ⟨c, t, rfl⟩ := some_letter x hx
    obtain ⟨d, v, rfl⟩ := some_letter y hw
    obtain ⟨rfl, -⟩ := List.cons.inj whole
    have alike := first _ hx _ hw rfl
    have length : (c :: t).length = (c :: v).length := by
      simpa using congrArg List.length alike
    obtain ⟨rest, rfl⟩ := List.append_inj whole length
    rw [rest]

theorem findDirection_eq_some_iff {s x r : Text} :
    (directions.findSome? fun d => (afterWordAnyCase? d s).filter fun (_, t) => atWordEnd t) =
      some (x, r) ↔ s = x ++ r ∧ x.map Char.toUpper ∈ directions ∧ atWordEnd r = true := by
  have upper : ∀ d ∈ directions, d.map Char.toUpper = d ∧ d.length = 2 := by decide
  constructor
  · intro h
    obtain ⟨d, hd, read⟩ := List.exists_of_findSome?_eq_some h
    obtain ⟨read, ends⟩ := Option.filter_eq_some_iff.mp read
    obtain ⟨whole, spelled⟩ := afterWordAnyCase?_eq_some_iff.mp read
    rw [map_toLower_eq_iff.mp spelled, (upper d hd).1]
    exact ⟨whole, hd, ends⟩
  · rintro ⟨rfl, hx, ends⟩
    have read : afterWordAnyCase? (x.map Char.toUpper) (x ++ r) = some (x, r) :=
      afterWordAnyCase?_eq_some_iff.mpr ⟨rfl, map_toLower_eq_iff.mpr (upper _ hx).1.symm⟩
    refine findSome?_eq_some_of_unique hx (Option.filter_eq_some_iff.mpr ⟨read, ends⟩) ?_
    rintro d hd ⟨y, u⟩ other
    obtain ⟨whole, spelled⟩ :=
      afterWordAnyCase?_eq_some_iff.mp (Option.filter_eq_some_iff.mp other).1
    have length : x.length = y.length := by
      rw [← List.length_map Char.toUpper, (upper _ hx).2, ← List.length_map Char.toLower, spelled,
        List.length_map, (upper d hd).2]
    obtain ⟨rfl, rfl⟩ := List.append_inj whole length
    rfl

/-- Reading a header line is finding a word and then a direction. -/
theorem flipHeader?_eq (line : Text) : flipHeader? line =
    (flowchartWords.findSome? fun w => afterWordAnyCase? w (line.dropWhile isBlank)).bind
      fun (word, r) => if r.takeWhile isBlank = [] then none else
        (directions.findSome? fun d =>
          (afterWordAnyCase? d (r.dropWhile isBlank)).filter fun (_, t) => atWordEnd t).bind
            fun (direction, tail) => some (line.takeWhile isBlank ++ word ++
              ' ' :: (flipDirection (direction.map Char.toUpper) ++ tail)) :=
  rfl

/-- **The lines that are flowchart headers, and what becomes of them.** -/
theorem flipHeader?_eq_some_iff {line turned : Text}
    (unbroken : ∀ c ∈ line, isLineBreak c = false) : flipHeader? line = some turned ↔
      ∃ indent word gap direction tail, (∀ c ∈ indent, isBlank c = true) ∧
        IsHeader word gap direction tail ∧ line = indent ++ word ++ gap ++ direction ++ tail ∧
        turned = indent ++ word ++ ' ' :: (flipDirection (direction.map Char.toUpper) ++ tail) := by
  rw [flipHeader?_eq]
  constructor
  · intro h
    obtain ⟨⟨word, r⟩, found, h⟩ := Option.bind_eq_some_iff.mp h
    dsimp only at h
    split at h
    · cases h
    · rename_i some_gap
      obtain ⟨⟨direction, tail⟩, directed, h⟩ := Option.bind_eq_some_iff.mp h
      cases h
      obtain ⟨whole, isWord⟩ := findWord_eq_some_iff.mp found
      obtain ⟨rest, isDirection, ends⟩ := findDirection_eq_some_iff.mp directed
      have line_eq : line = line.takeWhile isBlank ++ word ++ r.takeWhile isBlank ++ direction ++
          tail := by
        calc line = line.takeWhile isBlank ++ (word ++ r) := by
              rw [← whole, List.takeWhile_append_dropWhile]
          _ = line.takeWhile isBlank ++ (word ++ (r.takeWhile isBlank ++ (direction ++ tail))) := by
              rw [← rest, List.takeWhile_append_dropWhile]
          _ = _ := by simp only [List.append_assoc]
      have gap : ∀ c ∈ r.takeWhile isBlank, isBlank c = true ∧ isLineBreak c = false := by
        intro c hc
        refine ⟨List.mem_takeWhile_imp hc, unbroken c ?_⟩
        rw [line_eq]
        simp [hc]
      exact ⟨_, word, _, direction, tail, fun c hc => List.mem_takeWhile_imp hc,
        ⟨isWord, some_gap, gap, isDirection, ends⟩, line_eq, rfl⟩
  · rintro ⟨indent, word, gap, direction, tail, blank, header, rfl, rfl⟩
    obtain ⟨c, u, hword, solid⟩ := header.exists_word
    obtain ⟨d, v, hdirection, solid'⟩ := header.exists_direction
    have gapBlank : ∀ c ∈ gap, isBlank c = true := fun c hc => (header.gap c hc).1
    have whole : indent ++ word ++ gap ++ direction ++ tail =
        indent ++ c :: (u ++ (gap ++ (direction ++ tail))) := by
      simp [hword]
    have rest : gap ++ (direction ++ tail) = gap ++ d :: (v ++ tail) := by
      simp [hdirection]
    have found := findWord_eq_some_iff.mpr
      ⟨(rfl : word ++ (gap ++ (direction ++ tail)) = _), header.word⟩
    have directed := findDirection_eq_some_iff.mpr
      ⟨(rfl : direction ++ tail = _), header.direction, header.ends⟩
    rw [hword, List.cons_append] at found
    rw [hdirection, List.cons_append] at directed
    rw [whole, dropWhile_piece blank solid, takeWhile_piece blank solid, found, Option.bind_some]
    dsimp only
    rw [rest, takeWhile_piece gapBlank solid', if_neg header.gap_ne_nil,
      dropWhile_piece gapBlank solid', directed, hword, hdirection]
    rfl

/-! ## Texts that begin with a header -/

theorem not_wordChar_of_isBlank {c : Char} (h : isBlank c = true) : isWordChar c = false := by
  simp only [isBlank, Bool.or_eq_true, Bool.and_eq_true, decide_eq_true_eq] at h
  have blanks : ∀ n ∈ [9, 10, 11, 12, 13, 28, 29, 30, 31, 32, 0x85, 0xa0, 0x1680, 0x2000, 0x2001,
      0x2002, 0x2003, 0x2004, 0x2005, 0x2006, 0x2007, 0x2008, 0x2009, 0x200a, 0x2028, 0x2029,
      0x202f, 0x205f, 0x3000], isWordChar (Char.ofNat n) = false := by decide +kernel
  rw [← Char.ofNat_toNat c]
  exact blanks c.toNat (by simp only [List.mem_cons]; omega)

theorem atWordEnd_append {r : Text} (ends : ∀ c ∈ r.head?, isBlank c = true) (s : Text) :
    atWordEnd (s ++ r) = atWordEnd s := by
  cases s with
  | cons c s => rfl
  | nil =>
    cases r with
    | nil => rfl
    | cons c r =>
      show (!isWordChar c) = true
      rw [not_wordChar_of_isBlank (ends c rfl)]
      rfl

theorem flipFirst?_append {ls : List Text} (blank : ∀ l ∈ ls, strip l = []) {l : Text}
    (solid : strip l ≠ []) (later : List Text) :
    flipFirst? (ls ++ l :: later) = (flipHeader? l).map fun t => ls ++ t :: later := by
  induction ls with
  | nil => exact if_neg solid
  | cons k ls ih =>
    obtain ⟨first, others⟩ := List.forall_mem_cons.mp blank
    rw [List.cons_append, flipFirst?, if_pos first, ih others, Option.map_map]
    rfl

theorem flipFirst?_blank {ls : List Text} (blank : ∀ l ∈ ls, strip l = []) :
    flipFirst? ls = none := by
  induction ls with
  | nil => rfl
  | cons k ls ih =>
    obtain ⟨first, others⟩ := List.forall_mem_cons.mp blank
    rw [flipFirst?, if_pos first, ih others]
    rfl

/-- A text that begins with a flowchart header, blanks aside, cut at its direction. -/
structure DirectedText where
  before : Text
  word : Text
  gap : Text
  direction : Text
  rest : Text
  blank : ∀ c ∈ before, isBlank c = true
  header : IsHeader word gap direction rest

namespace DirectedText

/-- The text with something else between the flowchart word and what follows the direction. -/
def around (t : DirectedText) (m : Text) : Text :=
  t.before ++ t.word ++ m ++ t.rest

def withDirection (t : DirectedText) (d : Text) : Text :=
  t.around (t.gap ++ d)

def text (t : DirectedText) : Text :=
  t.withDirection t.direction

/-- The direction, whatever its case. -/
def heading (t : DirectedText) : Text :=
  t.direction.map Char.toUpper

/-- A text that its lines make up again, with a single space before the direction. -/
structure IsPlain (t : DirectedText) : Prop where
  gap : t.gap = [' ']
  feeds : ∀ c ∈ t.text, isLineBreak c = true → c = '\n'
  last : t.text.getLast? ≠ some '\n'

theorem directed_unbroken (t : DirectedText) :
    ∀ c ∈ t.gap ++ t.direction, isLineBreak c = false := by
  intro c hc
  rcases List.mem_append.mp hc with hc | hc
  · exact (t.header.gap c hc).2
  · exact not_lineBreak_of_not_blank (t.header.direction_solid c hc)

/-- Whatever the direction is, the lines are the same but for the header. -/
theorem lines_around (t : DirectedText) :
    ∃ ls i, (∀ l ∈ ls, strip l = []) ∧ (∀ c ∈ i, isBlank c = true) ∧
      ∀ m, (∀ c ∈ m, isLineBreak c = false) → lines (t.around m) =
        ls ++ (i ++ t.word ++ m ++ (lines t.rest).headD []) :: (lines t.rest).tail := by
  obtain ⟨c, u, hword, solid⟩ := t.header.exists_word
  obtain ⟨ls, i, blanks, indent, cut⟩ := lines_blank_append t.blank
  refine ⟨ls, i, blanks, fun c hc => (indent c hc).1, fun m plain => ?_⟩
  have unbroken : ∀ d ∈ t.word ++ m, isLineBreak d = false := by
    intro d hd
    rcases List.mem_append.mp hd with hd | hd
    · exact not_lineBreak_of_not_blank (t.header.word_solid d hd)
    · exact plain d hd
  have first := lines_append unbroken (by simp [hword]) t.rest
  have whole : t.around m = t.before ++ c :: (u ++ m ++ t.rest) := by
    simp [around, hword]
  have same : t.word ++ m ++ t.rest = c :: (u ++ m ++ t.rest) := by
    simp [hword]
  rw [whole, cut c _ solid, ← same, first]
  simp only [List.headD_cons, List.tail_cons, List.append_assoc]

/-- What breaks the text stands before the header or behind it. -/
theorem feeds_around (t : DirectedText) {m : Text} (plain : ∀ c ∈ m, isLineBreak c = false) :
    (∀ c ∈ t.around m, isLineBreak c = true → c = '\n') ↔
      ∀ c ∈ t.before ++ t.rest, isLineBreak c = true → c = '\n' := by
  constructor
  · intro feeds c hc
    refine feeds c ?_
    rcases List.mem_append.mp hc with hc | hc <;> simp [around, hc]
  · intro feeds c hc broken
    simp only [around, List.mem_append] at hc
    rcases hc with ((hc | hc) | hc) | hc
    · exact feeds c (List.mem_append_left _ hc) broken
    · rw [not_lineBreak_of_not_blank (t.header.word_solid c hc)] at broken
      cases broken
    · rw [plain c hc] at broken
      cases broken
    · exact feeds c (List.mem_append_right _ hc) broken

theorem getLast?_around (t : DirectedText) {m : Text} (some_left : m ≠ [])
    (plain : ∀ c ∈ m, isLineBreak c = false) :
    (t.around m).getLast? = some '\n' ↔ t.rest.getLast? = some '\n' := by
  by_cases empty : t.rest = []
  · rw [around, empty, List.append_nil, List.getLast?_append_of_ne_nil _ some_left]
    refine iff_of_false (fun last => ?_) nofun
    have broken := plain _ (List.mem_of_getLast? last)
    revert broken
    decide
  · rw [around, List.getLast?_append_of_ne_nil _ empty]

end DirectedText

open DirectedText

/-- Only the header is turned, and one space stands before its direction then. -/
theorem flipFirst?_directed (t : DirectedText) :
    flipFirst? (lines t.text) = some (lines (t.around (' ' :: flipDirection t.heading))) := by
  obtain ⟨ls, i, blanks, indent, cut⟩ := t.lines_around
  have directed := cut _ t.directed_unbroken
  have turned := cut (' ' :: flipDirection t.heading) (by unfold flipDirection; split <;> decide)
  set line := i ++ t.word ++ (t.gap ++ t.direction) ++ (lines t.rest).headD [] with hline
  have line_unbroken : ∀ c ∈ line, isLineBreak c = false := by
    have line_mem : line ∈ lines t.text := by
      rw [text, withDirection, directed]
      exact List.mem_append_right ls List.mem_cons_self
    exact not_lineBreak_of_mem_lines line_mem
  have line_solid : strip line ≠ [] := by
    obtain ⟨c, u, hword, solid⟩ := t.header.exists_word
    intro blank
    rw [strip_eq_nil_iff.mp blank c (by simp [hline, hword])] at solid
    cases solid
  have header : IsHeader t.word t.gap t.direction ((lines t.rest).headD []) := by
    obtain ⟨after, whole, ends⟩ := exists_headD_lines t.rest
    refine { t.header with ends := ?_ }
    rw [← atWordEnd_append fun c hc => isBlank_of_isLineBreak (ends c hc), ← whole]
    exact t.header.ends
  have flipped := (flipHeader?_eq_some_iff line_unbroken).mpr
    ⟨i, t.word, t.gap, t.direction, _, indent, header, by rw [hline, ← List.append_assoc], rfl⟩
  rw [text, withDirection, directed, flipFirst?_append blanks line_solid, flipped, turned]
  simp only [Option.map_some, heading, List.append_assoc, List.cons_append]

/-- A header line, whatever blanks stand before it, makes a text a directed one. -/
theorem exists_directed {b i l r turned : Text} (blank : ∀ c ∈ b, isBlank c = true)
    (indent : ∀ c ∈ i, isBlank c = true) (solid : ∃ c u, l = c :: u ∧ isBlank c = false)
    (unbroken : ∀ c ∈ i ++ l, isLineBreak c = false)
    (ends : ∀ c ∈ r.head?, isLineBreak c = true) (flipped : flipHeader? (i ++ l) = some turned) :
    ∃ t : DirectedText, t.text = b ++ (l ++ r) := by
  obtain ⟨c, u, rfl, solid⟩ := solid
  obtain ⟨indent', word, gap, direction, tail, blank', header, line, -⟩ :=
    (flipHeader?_eq_some_iff unbroken).mp flipped
  obtain ⟨d, v, hword, solid'⟩ := header.exists_word
  have line_eq : c :: u = word ++ (gap ++ (direction ++ tail)) := by
    have both := congrArg (List.dropWhile isBlank) line
    simp only [hword, List.append_assoc, List.cons_append] at both
    rwa [dropWhile_piece indent solid, dropWhile_piece blank' solid', ← List.cons_append,
      ← hword] at both
  have ends' : atWordEnd (tail ++ r) = true := by
    rw [atWordEnd_append fun c hc => isBlank_of_isLineBreak (ends c hc)]
    exact header.ends
  refine ⟨⟨b, word, gap, direction, tail ++ r, blank, { header with ends := ends' }⟩, ?_⟩
  rw [line_eq]
  simp only [text, withDirection, around, List.append_assoc]

/-- Nothing is turned just in the texts that begin with no header. -/
theorem flipFirst?_lines_eq_none_iff {s : Text} :
    flipFirst? (lines s) = none ↔ ¬ ∃ t : DirectedText, t.text = s := by
  constructor
  · rintro none_turned ⟨t, rfl⟩
    rw [flipFirst?_directed] at none_turned
    cases none_turned
  · intro undirected
    by_cases blank : ∀ c ∈ s, isBlank c = true
    · refine flipFirst?_blank fun l hl => strip_eq_nil_iff.mpr fun c hc => ?_
      exact blank c (mem_of_mem_lines hl hc)
    · obtain ⟨b, i, l, r, ls, later, whole, cut, before, indent, blanks, starts, ends⟩ :=
        exists_first_line blank
      have unbroken : ∀ c ∈ i ++ l, isLineBreak c = false := by
        refine not_lineBreak_of_mem_lines (?_ : i ++ l ∈ lines s)
        rw [cut]
        exact List.mem_append_right ls List.mem_cons_self
      have solid : strip (i ++ l) ≠ [] := by
        obtain ⟨c, u, rfl, solid⟩ := starts
        intro empty
        rw [strip_eq_nil_iff.mp empty c (by simp)] at solid
        cases solid
      rw [cut, flipFirst?_append blanks solid, Option.map_eq_none_iff]
      cases flipped : flipHeader? (i ++ l) with
      | none => rfl
      | some turned =>
        rw [whole] at undirected
        exact (undirected (exists_directed before indent starts unbroken ends flipped)).elim

/-- Turning a text puts its lines together again, with one space before the other direction. -/
theorem toggleDirection_directed (t : DirectedText) :
    toggleDirection t.text = joinLines (lines (t.around (' ' :: flipDirection t.heading))) := by
  rw [toggleDirection, flipFirst?_directed]

theorem toggleDirection_eq_self {s : Text} (undirected : ¬ ∃ t : DirectedText, t.text = s) :
    toggleDirection s = s := by
  rw [toggleDirection, flipFirst?_lines_eq_none_iff.mpr undirected]

/-- The directions that are turned, and what they are turned to. -/
inductive Turns : Text → Text → Prop
  | down : Turns "TD".toList "LR".toList
  | below : Turns "TB".toList "LR".toList
  | across : Turns "LR".toList "TD".toList

theorem Turns.flipDirection_eq {d d' : Text} (h : Turns d d') : flipDirection d = d' := by
  cases h <;> rfl

theorem Turns.unbroken {d d' : Text} (h : Turns d d') : ∀ c ∈ d', isLineBreak c = false := by
  cases h <;> decide

theorem toggleDirection_eq_withDirection_iff (t : DirectedText) {d : Text}
    (turns : Turns t.heading d) : toggleDirection t.text = t.withDirection d ↔ t.IsPlain := by
  have spaced_plain : ∀ c ∈ ' ' :: d, isLineBreak c = false :=
    List.forall_mem_cons.mpr ⟨by decide, turns.unbroken⟩
  have gap_plain : ∀ c ∈ t.gap ++ d, isLineBreak c = false := by
    intro c hc
    rcases List.mem_append.mp hc with hc | hc
    · exact (t.header.gap c hc).2
    · exact turns.unbroken c hc
  have some_gap : ∀ m, t.gap ++ m ≠ [] := fun m =>
    List.append_ne_nil_of_left_ne_nil t.header.gap_ne_nil m
  have text_last := t.getLast?_around (some_gap t.direction) t.directed_unbroken
  have spaced_last := t.getLast?_around (List.cons_ne_nil ' ' d) spaced_plain
  rw [toggleDirection_directed, turns.flipDirection_eq]
  constructor
  · intro turned
    have feeds := (t.feeds_around gap_plain).mp (by
      intro c hc
      rw [← withDirection, ← turned] at hc
      exact eq_feed_of_mem_joinLines hc)
    have spaced_feeds := (t.feeds_around spaced_plain).mpr feeds
    have last : t.rest.getLast? ≠ some '\n' := by
      -- a line feed at the end is lost, and no shorter gap makes up for it
      intro feed
      obtain ⟨s, hs⟩ := List.getLast?_eq_some_iff.mp (spaced_last.mpr feed)
      have short : (t.around (' ' :: d)).length = s.length + 1 := by simp [hs]
      rw [hs] at spaced_feeds turned
      rw [joinLines_lines_concat fun c hc => spaced_feeds c (List.mem_append_left _ hc)] at turned
      have some_length := List.length_pos_iff.mpr t.header.gap_ne_nil
      rw [turned] at short
      simp only [withDirection, around, List.length_append, List.length_cons] at short
      omega
    rw [joinLines_lines spaced_feeds (mt spaced_last.mp last)] at turned
    refine ⟨?_, (t.feeds_around t.directed_unbroken).mpr feeds, mt text_last.mp last⟩
    have gap_eq : [' '] ++ d = t.gap ++ d :=
      List.append_cancel_left (List.append_cancel_right turned)
    exact (List.append_cancel_right gap_eq).symm
  · rintro ⟨gap, feeds, last⟩
    have feeds := (t.feeds_around spaced_plain).mpr ((t.feeds_around t.directed_unbroken).mp feeds)
    rw [joinLines_lines feeds (mt (text_last.mpr ∘ spaced_last.mp) last), withDirection, gap]
    rfl

/-- **Turning a text changes nothing but its direction exactly if the text is plain**: a single
space stands before the direction, only line feeds break it, and none stands at its end. Whatever
it is, its lines are put together with a single space before the other direction; and a text that
begins with no header is left alone. -/
theorem direction_turned_iff (s : Text) :
    (∀ t : DirectedText, t.text = s →
      toggleDirection s = joinLines (lines (t.around (' ' :: flipDirection t.heading))) ∧
      ∀ d, Turns t.heading d → (toggleDirection s = t.withDirection d ↔ t.IsPlain)) ∧
    ((¬ ∃ t : DirectedText, t.text = s) → toggleDirection s = s) := by
  refine ⟨?_, toggleDirection_eq_self⟩
  rintro t rfl
  exact ⟨toggleDirection_directed t, fun d => toggleDirection_eq_withDirection_iff t⟩

/-- A blank line, an indented header in small letters, and an arrow. -/
def indentedText : DirectedText where
  before := "\n  ".toList
  word := "graph".toList
  gap := " ".toList
  direction := "tb".toList
  rest := "\n  A-->B".toList
  blank := by decide
  header := ⟨by decide, by decide, by decide, by decide, by decide +kernel⟩

theorem direction_turned_iff_indentedText :
    Turns indentedText.heading "LR".toList ∧ indentedText.IsPlain ∧
      toggleDirection indentedText.text = "\n  graph LR\n  A-->B".toList ∧
      toggleDirection "A flowchart TD".toList = "A flowchart TD".toList := by
  have turns : Turns indentedText.heading "LR".toList := .below
  have plain : indentedText.IsPlain := ⟨rfl, by decide +kernel, by decide +kernel⟩
  have undirected : ¬ ∃ t : DirectedText, t.text = "A flowchart TD".toList :=
    flipFirst?_lines_eq_none_iff.mp (by decide +kernel)
  have turned := (direction_turned_iff indentedText.text).1 indentedText rfl
  exact ⟨turns, plain, (turned.2 _ turns).mpr plain,
    (direction_turned_iff "A flowchart TD".toList).2 undirected⟩

/-- A header that a line feed ends. -/
def endedText : DirectedText where
  before := []
  word := "flowchart".toList
  gap := " ".toList
  direction := "TD".toList
  rest := "\n".toList
  blank := by decide
  header := ⟨by decide, by decide, by decide, by decide, by decide +kernel⟩

/-- The line feed is lost; so are a second space before the direction and a carriage return. -/
theorem line_feed_lost :
    Turns endedText.heading "LR".toList ∧ endedText.text = "flowchart TD\n".toList ∧
      endedText.withDirection "LR".toList = "flowchart LR\n".toList ∧
      toggleDirection endedText.text = "flowchart LR".toList ∧
      toggleDirection "flowchart  TD".toList = "flowchart LR".toList ∧
      toggleDirection "flowchart TD\r\nA".toList = "flowchart LR\nA".toList :=
  ⟨.down, rfl, rfl, by decide +kernel, by decide +kernel, by decide +kernel⟩

end Drawbridge
