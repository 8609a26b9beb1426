import Drawbridge.Number.Reading
import Drawbridge.Proofs.Text.Blank

/-!
Numbers of digits and points. A text of decimal digits, of whatever scripts, is an integer unless it
has too many of them (`readInt_digits`). A text of digits and points is a decimal just if it has a
digit and no second point (`readFloat?_isSome_iff`).
-/

namespace Drawbridge

/-! ## Digits -/

/-- A digit of any script, or a point. -/
def isDecimalPart (c : Char) : Bool :=
  isDecimalDigit c || c = '.'

/-- A digit has a place behind one of the zeros. -/
theorem exists_zero {c : Char} {d : Nat} (h : digitValue? c = some d) :
    d ≤ 9 ∧ ∃ z ∈ digitZeros, c = Char.ofNat (z + d) := by
  unfold digitValue? at h
  obtain ⟨z, found, rfl⟩ := Option.map_eq_some_iff.mp h
  have near := List.find?_some found
  simp only [Bool.and_eq_true, decide_eq_true_eq] at near
  refine ⟨by omega, z, List.mem_of_find?_eq_some found, ?_⟩
  rw [Nat.add_sub_cancel' near.1, Char.ofNat_toNat]

theorem not_blank_of_isDecimalDigit {c : Char} (h : isDecimalDigit c = true) :
    isBlank c = false := by
  obtain ⟨d, hd⟩ := Option.isSome_iff_exists.mp h
  obtain ⟨le, z, hz, rfl⟩ := exists_zero hd
  have solid : ∀ z ∈ digitZeros, ∀ d < 10, isBlank (Char.ofNat (z + d)) = false := by
    decide +kernel
  exact solid z hz d (by omega)

theorem not_blank_of_isDecimalPart {c : Char} (h : isDecimalPart c = true) :
    isBlank c = false := by
  simp only [isDecimalPart, Bool.or_eq_true, decide_eq_true_eq] at h
  rcases h with h | rfl
  · exact not_blank_of_isDecimalDigit h
  · decide

def asciiDigit (c : Char) : Char :=
  match digitValue? c with
  | some d => Char.ofNat (48 + d)
  | none => c

theorem asciiDigits_eq (s : Text) : asciiDigits s = s.map asciiDigit := rfl

theorem isDigit_asciiDigit {c : Char} (h : isDecimalDigit c = true) :
    (asciiDigit c).isDigit = true := by
  obtain ⟨d, hd⟩ := Option.isSome_iff_exists.mp h
  have le := (exists_zero hd).1
  have ascii : ∀ d < 10, (Char.ofNat (48 + d)).isDigit = true := by decide
  unfold asciiDigit
  rw [hd]
  exact ascii d (by omega)

theorem asciiDigit_point : asciiDigit '.' = '.' := by decide

def isPlainPart (c : Char) : Bool :=
  c.isDigit || c = '.'

theorem isPlainPart_asciiDigit {c : Char} (h : isDecimalPart c = true) :
    isPlainPart (asciiDigit c) = true := by
  simp only [isDecimalPart, Bool.or_eq_true, decide_eq_true_eq] at h
  rcases h with h | rfl
  · simp [isPlainPart, isDigit_asciiDigit h]
  · decide

theorem asciiDigit_eq_point {c : Char} (h : isDecimalPart c = true) :
    asciiDigit c = '.' ↔ c = '.' := by
  simp only [isDecimalPart, Bool.or_eq_true, decide_eq_true_eq] at h
  rcases h with h | rfl
  · have digit := isDigit_asciiDigit h
    constructor
    · intro point
      rw [point] at digit
      cases digit
    · rintro rfl
      exact absurd h (by decide)
  · exact iff_of_true asciiDigit_point rfl

/-! ## Plain numbers -/

theorem dropGroupMarks?_plain {previous : Char} (hp : previous ≠ '_') {s : Text}
    (hs : ∀ c ∈ s, isPlainPart c = true) : dropGroupMarks? previous s = some s := by
  induction s generalizing previous with
  | nil => rw [dropGroupMarks?, if_neg hp]
  | cons c s ih =>
    have mark : c ≠ '_' := ne_of_class (hs c List.mem_cons_self) (by decide)
    rw [dropGroupMarks?, if_neg mark, if_neg (by simp [hp]),
      ih mark fun d hd => hs d (List.mem_cons_of_mem c hd)]
    rfl

/-- Digits and points are a number as they are, apart from their script. -/
theorem plainNumber?_eq {s : Text} (hs : ∀ c ∈ s, isDecimalPart c = true) :
    plainNumber? s = some (asciiDigits s) := by
  have solid : ∀ c ∈ s, isNumberBlank c = false := by
    intro c hc
    rw [isNumberBlank, not_blank_of_isDecimalPart (hs c hc), Bool.false_and]
  have start : s.dropWhile isNumberBlank = s := by
    cases s with
    | nil => rfl
    | cons c s => exact List.dropWhile_cons_of_neg (by simp [solid c List.mem_cons_self])
  have ending : dropRightWhile isNumberBlank s = s := by
    rw [dropRightWhile_eq, List.rdropWhile_eq_self_iff]
    intro h
    simp [solid _ (List.getLast_mem h)]
  unfold plainNumber?
  rw [start, ending, asciiDigits_eq]
  apply dropGroupMarks?_plain (by decide)
  intro c hc
  obtain ⟨d, hd, rfl⟩ := List.mem_map.mp hc
  exact isPlainPart_asciiDigit (hs d hd)

theorem takeSign_plain {s : Text} (hs : ∀ c ∈ s, isPlainPart c = true) :
    takeSign s = (false, s) := by
  unfold takeSign
  split
  · exact absurd (hs '-' List.mem_cons_self) (by decide)
  · exact absurd (hs '+' List.mem_cons_self) (by decide)
  · rfl

/-- **A run of digits is an integer, unless it is too long.** -/
theorem readInt_digits {s : Text} (hne : s ≠ []) (hs : ∀ c ∈ s, isDecimalDigit c = true) :
    readInt s =
      if maxDigits < s.length then .error (.tooManyDigits s.length)
      else .ok (natOfDigits (asciiDigits s)) := by
  have parts : ∀ c ∈ s, isDecimalPart c = true := fun c hc => by simp [isDecimalPart, hs c hc]
  have plain : ∀ c ∈ asciiDigits s, isPlainPart c = true := by
    intro c hc
    obtain ⟨d, hd, rfl⟩ := List.mem_map.mp hc
    exact isPlainPart_asciiDigit (parts d hd)
  have digits : (asciiDigits s).all Char.isDigit = true := by
    rw [List.all_eq_true]
    intro c hc
    obtain ⟨d, hd, rfl⟩ := List.mem_map.mp hc
    exact isDigit_asciiDigit (hs d hd)
  have length : (asciiDigits s).length = s.length := List.length_map _
  have full : asciiDigits s ≠ [] := by
    rw [asciiDigits_eq]
    simpa using hne
  unfold readInt
  rw [plainNumber?_eq parts]
  simp only [takeSign_plain plain, length]
  simp [full, digits]

/-! ## Decimals -/

/-- A digit and at most one point. -/
def IsDecimal (s : Text) : Prop :=
  s.count '.' ≤ 1 ∧ ∃ c ∈ s, c ≠ '.'

-- The characters of the text are looked at, not all that there are.
instance (s : Text) : Decidable (IsDecimal s) :=
  @instDecidableAnd _ _ (Nat.decLe _ _) (List.decidableBEx (fun c => c ≠ '.') s)

theorem isDigit_of_isPlainPart {c : Char} (h : isPlainPart c = true) :
    c.isDigit = true ↔ c ≠ '.' := by
  constructor
  · rintro digit rfl
    cases digit
  · intro other
    simpa [isPlainPart, other] using h

/-- Digits and points begin with digits, up to a point or to the end. -/
theorem plain_cases {s : Text} (hs : ∀ c ∈ s, isPlainPart c = true) :
    (∀ c ∈ s, c.isDigit = true) ∨
      ∃ w r, s = w ++ '.' :: r ∧ (∀ c ∈ w, c.isDigit = true) ∧ ∀ c ∈ r, isPlainPart c = true := by
  induction s with
  | nil => exact .inl nofun
  | cons c s ih =>
    have rest := ih fun d hd => hs d (List.mem_cons_of_mem c hd)
    have here := hs c List.mem_cons_self
    by_cases point : c = '.'
    · subst point
      exact .inr ⟨[], s, rfl, nofun, fun d hd => hs d (List.mem_cons_of_mem _ hd)⟩
    · have digit := (isDigit_of_isPlainPart here).mpr point
      rcases rest with all | ⟨w, r, rfl, whole, places⟩
      · exact .inl (List.forall_mem_cons.mpr ⟨digit, all⟩)
      · exact .inr ⟨c :: w, r, rfl, List.forall_mem_cons.mpr ⟨digit, whole⟩, places⟩

theorem count_point_of_digits {s : Text} (hs : ∀ c ∈ s, c.isDigit = true) : s.count '.' = 0 := by
  rw [List.count_eq_zero]
  intro h
  exact absurd (hs '.' h) (by decide)

theorem isDigit_point : Char.isDigit '.' = false := by decide

/-- Digits are a decimal if there are any. -/
theorem readDecimal?_digits {s : Text} (hs : ∀ c ∈ s, c.isDigit = true) :
    (readDecimal? s).isSome = true ↔ s ≠ [] := by
  have before : s.takeWhile Char.isDigit = s := List.takeWhile_eq_self_iff.mpr hs
  have after : s.dropWhile Char.isDigit = [] := List.dropWhile_eq_nil_iff.mpr hs
  unfold readDecimal?
  rw [before, after]
  by_cases empty : s = [] <;> simp [empty, readExponent?]

/-- Of a point between digits, a digit on either side is enough. -/
theorem readDecimal?_point {w r : Text} (hw : ∀ c ∈ w, c.isDigit = true)
    (hr : ∀ c ∈ r, c.isDigit = true) :
    (readDecimal? (w ++ '.' :: r)).isSome = true ↔ w ≠ [] ∨ r ≠ [] := by
  have before : (w ++ '.' :: r).takeWhile Char.isDigit = w := takeWhile_piece hw isDigit_point r
  have after : (w ++ '.' :: r).dropWhile Char.isDigit = '.' :: r :=
    dropWhile_piece hw isDigit_point r
  have places : r.takeWhile Char.isDigit = r := List.takeWhile_eq_self_iff.mpr hr
  have ending : r.dropWhile Char.isDigit = [] := List.dropWhile_eq_nil_iff.mpr hr
  unfold readDecimal?
  rw [before, after]
  simp only [places, ending]
  by_cases left : w = [] <;> by_cases right : r = [] <;> simp [left, right, readExponent?]

theorem readDecimal?_points {w p : Text} (hw : ∀ c ∈ w, c.isDigit = true)
    (hp : ∀ c ∈ p, c.isDigit = true) (tail : Text) :
    readDecimal? (w ++ '.' :: (p ++ '.' :: tail)) = none := by
  have before := takeWhile_piece hw isDigit_point (p ++ '.' :: tail)
  have after := dropWhile_piece hw isDigit_point (p ++ '.' :: tail)
  have places := takeWhile_piece hp isDigit_point tail
  have ending := dropWhile_piece hp isDigit_point tail
  have unread : readExponent? ('.' :: tail) = none := by
    rw [readExponent?]
    simp
  unfold readDecimal?
  rw [before, after]
  simp only [places, ending, unread]
  simp

/-- Among digits and points, the first digit is what is not a point. -/
theorem exists_digit {s : Text} (hs : ∀ c ∈ s, c.isDigit = true) :
    (∃ c ∈ s, c ≠ '.') ↔ s ≠ [] := by
  constructor
  · rintro ⟨c, hc, -⟩
    exact List.ne_nil_of_mem hc
  · intro full
    obtain ⟨c, r, rfl⟩ := List.exists_cons_of_ne_nil full
    refine ⟨c, List.mem_cons_self, ?_⟩
    rintro rfl
    exact absurd (hs '.' List.mem_cons_self) (by decide)

/-- A decimal of ASCII digits and points has a digit and no second point. -/
theorem readDecimal?_isSome_iff {s : Text} (hs : ∀ c ∈ s, isPlainPart c = true) :
    (readDecimal? s).isSome = true ↔ IsDecimal s := by
  rcases plain_cases hs with all | ⟨w, r, rfl, whole, parts⟩
  · rw [readDecimal?_digits all, IsDecimal, count_point_of_digits all, exists_digit all]
    exact (and_iff_right (Nat.zero_le 1)).symm
  rcases plain_cases parts with places | ⟨places, tail, rfl, digits, -⟩
  · have once : (w ++ '.' :: r).count '.' = 1 := by
      rw [List.count_append, List.count_cons_self, count_point_of_digits whole,
        count_point_of_digits places]
    have sides : (∃ c ∈ w ++ '.' :: r, c ≠ '.') ↔ (∃ c ∈ w, c ≠ '.') ∨ ∃ c ∈ r, c ≠ '.' := by
      simp [or_and_right, exists_or]
    rw [readDecimal?_point whole places, IsDecimal, once, sides, exists_digit whole,
      exists_digit places]
    exact (and_iff_right (Nat.le_refl 1)).symm
  · have more : 2 ≤ (w ++ '.' :: (places ++ '.' :: tail)).count '.' := by
      rw [List.count_append, List.count_cons_self, List.count_append, List.count_cons_self]
      omega
    rw [readDecimal?_points whole digits]
    refine iff_of_false Bool.false_ne_true ?_
    rintro ⟨most, -⟩
    omega

theorem toLower_plain {c : Char} (h : isPlainPart c = true) : c.toLower = c := by
  have low : c.toNat ≤ 57 := by
    simp only [isPlainPart, Bool.or_eq_true, decide_eq_true_eq] at h
    rcases h with h | rfl
    · exact (Char.isDigit_iff_toNat.mp h).2
    · decide
  unfold Char.toLower
  apply dif_neg
  rintro ⟨upper, -⟩
  have high : 65 ≤ c.toNat := UInt32.le_iff_toNat_le.mp upper
  omega

/-- The script of its digits does not matter to a decimal. -/
theorem isDecimal_asciiDigits {s : Text} (hs : ∀ c ∈ s, isDecimalPart c = true) :
    IsDecimal (asciiDigits s) ↔ IsDecimal s := by
  have points : (asciiDigits s).count '.' = s.count '.' := by
    rw [asciiDigits_eq, List.count_eq_countP, List.countP_map, List.count_eq_countP]
    apply List.countP_congr
    intro c hc
    simpa using asciiDigit_eq_point (hs c hc)
  rw [IsDecimal, IsDecimal, points]
  apply and_congr_right
  intro _
  constructor
  · rintro ⟨c, hc, other⟩
    obtain ⟨d, hd, rfl⟩ := List.mem_map.mp hc
    exact ⟨d, hd, fun point => other ((asciiDigit_eq_point (hs d hd)).mpr point)⟩
  · rintro ⟨d, hd, other⟩
    exact ⟨asciiDigit d, List.mem_map_of_mem hd,
      fun point => other ((asciiDigit_eq_point (hs d hd)).mp point)⟩

/-- **Digits and points are a decimal just if there is a digit and no second point.** -/
theorem readFloat?_isSome_iff {s : Text} (hs : ∀ c ∈ s, isDecimalPart c = true) :
    (readFloat? s).isSome = true ↔ IsDecimal s := by
  have plain : ∀ c ∈ asciiDigits s, isPlainPart c = true := by
    intro c hc
    obtain ⟨d, hd, rfl⟩ := List.mem_map.mp hc
    exact isPlainPart_asciiDigit (hs d hd)
  have lower : (asciiDigits s).map Char.toLower = asciiDigits s :=
    map_eq_self fun c hc => toLower_plain (plain c hc)
  have unnamed : ∀ {name : Text}, 'n' ∈ name → asciiDigits s ≠ name := by
    rintro name letter rfl
    exact absurd (plain 'n' letter) (by decide)
  have finite : ¬ (asciiDigits s = "inf".toList || asciiDigits s = "infinity".toList) = true := by
    rw [decide_eq_false (unnamed (by decide)), decide_eq_false (unnamed (by decide))]
    exact Bool.false_ne_true
  have real : ¬ asciiDigits s = "nan".toList := unnamed (by decide)
  have number : readFloat? s = readDecimal? (asciiDigits s) := by
    unfold readFloat?
    rw [plainNumber?_eq hs]
    dsimp only [bind, Option.bind]
    rw [takeSign_plain plain]
    dsimp only
    rw [lower, if_neg finite, if_neg real]
    cases readDecimal? (asciiDigits s) <;> rfl
  rw [number, readDecimal?_isSome_iff plain, isDecimal_asciiDigits hs]

end Drawbridge
