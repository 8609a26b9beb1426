import Mathlib.Data.List.TakeWhile
import Drawbridge.Json.Reader
import Drawbridge.Proofs.Text.Cutting

/-!
Strings, numbers and names of JSON.

* `SpelledTo.number`, `SpelledTo.name`: numbers and names are made of letters, digits, signs and
  points, and so neither of quotes nor of brackets;
* `readString_append`, `readName_append`, `readNumber_append`: with more text behind it each is read
  as before. A string and a name show where they end; a number does not, and ends for sure only
  before what may stand behind a value (`isDelimiter`).
-/

namespace Drawbridge.Json

/-! ## What numbers and names are made of -/

/-- The characters that names and numbers are made of. -/
def isScalarChar (c : Char) : Bool :=
  c.isAlphanum || c = '+' || c = '-' || c = '.'

/-- What is left of `s` is `r`, after a piece of such characters. -/
def SpelledTo (s r : Text) : Prop :=
  ∃ t, s = t ++ r ∧ ∀ c ∈ t, isScalarChar c = true

namespace SpelledTo

variable {s t r : Text}

theorem refl (s : Text) : SpelledTo s s :=
  ⟨[], rfl, nofun⟩

theorem trans (h : SpelledTo s t) (h' : SpelledTo t r) : SpelledTo s r := by
  obtain ⟨u, rfl, hu⟩ := h
  obtain ⟨v, rfl, hv⟩ := h'
  exact ⟨u ++ v, by rw [List.append_assoc], List.forall_mem_append.mpr ⟨hu, hv⟩⟩

theorem cons {c : Char} (hc : isScalarChar c = true) (h : SpelledTo s r) :
    SpelledTo (c :: s) r := by
  obtain ⟨u, rfl, hu⟩ := h
  exact ⟨c :: u, rfl, List.forall_mem_cons.mpr ⟨hc, hu⟩⟩

theorem digits (s : Text) : SpelledTo s (s.dropWhile Char.isDigit) := by
  refine ⟨s.takeWhile Char.isDigit, List.takeWhile_append_dropWhile.symm, ?_⟩
  intro c hc
  have digit : c.isDigit = true := List.mem_takeWhile_imp hc
  simp [isScalarChar, Char.isAlphanum, digit]

/-- A part that may be missing. -/
theorem option {α : Type} {read : Option (α × Text)}
    (h : ∀ x r, read = some (x, r) → SpelledTo s r) :
    SpelledTo s ((read.map Prod.snd).getD s) := by
  cases hr : read with
  | none => exact refl s
  | some xr => exact h xr.1 xr.2 hr

theorem whole {ds : Text} (h : readWhole s = some (ds, r)) : SpelledTo s r := by
  unfold readWhole at h
  split at h
  · cases h
    exact cons rfl (refl r)
  · dsimp only at h
    split at h
    · cases h
    · cases h
      exact digits s

theorem places {ds : Text} (h : readPlaces s = some (ds, r)) : SpelledTo s r := by
  unfold readPlaces at h
  split at h
  · dsimp only at h
    split at h
    · cases h
    · cases h
      exact cons rfl (digits _)
  · cases h

theorem sign (s : Text) : SpelledTo s (takeSign s).2 := by
  unfold takeSign
  split
  · exact cons rfl (refl _)
  · exact cons rfl (refl _)
  · exact refl s

theorem power {e : Int} (h : readPower s = some (e, r)) : SpelledTo s r := by
  unfold readPower at h
  split at h
  · rename_i c s
    split at h
    · rename_i mark
      have letter : isScalarChar c = true := by
        simp only [Bool.or_eq_true, decide_eq_true_eq] at mark
        rcases mark with rfl | rfl <;> rfl
      dsimp only at h
      split at h
      · cases h
      · cases h
        exact cons letter ((sign s).trans (digits _))
    · cases h
  · cases h

theorem unsigned {negative : Bool} {j : Json} (h : readUnsigned negative s = some (j, r)) :
    SpelledTo s r := by
  unfold readUnsigned at h
  split at h
  · cases h
  · rename_i ds u hw
    have read := ((whole hw).trans (option fun _ _ => places)).trans (option fun _ _ => power)
    dsimp only at h
    split at h
    · split at h
      · cases h
      · cases h
        exact read
    · cases h
      exact read

theorem number {j : Json} (h : readNumber s = some (j, r)) : SpelledTo s r := by
  unfold readNumber at h
  split at h
  · exact cons rfl (unsigned h)
  · exact unsigned h

theorem name {j : Json} (h : readName s = some (j, r)) : SpelledTo s r := by
  obtain ⟨⟨n, k⟩, hn, hf⟩ := List.exists_of_findSome?_eq_some h
  obtain ⟨u, hu, hr⟩ := Option.map_eq_some_iff.mp hf
  cases hr
  have letters : ∀ n ∈ Json.names, ∀ c ∈ n.1, isScalarChar c = true := by
    simp [Json.names, isScalarChar, Char.isAlphanum]
  exact ⟨n, eq_append_of_afterPrefix? hu, letters _ hn⟩

end SpelledTo

variable {s r : Text}

/-- What is read, with more text left. -/
def withMore {α : Type} (t : Text) : α × Text → α × Text :=
  Prod.map id (· ++ t)

/-- White space, a comma or a closing bracket: what may stand behind a value inside another one. -/
def isDelimiter (c : Char) : Bool :=
  isSpace c || c = ',' || c = ']' || c = '}'

def Delimited (r : Text) : Prop :=
  ∃ c u, r = c :: u ∧ isDelimiter c = true

/-! ## More text behind strings -/

theorem readPieces_append {ps : List Piece} (h : readPieces s = some (ps, r)) (t : Text) :
    readPieces (s ++ t) = some (ps, r ++ t) := by
  fun_induction readPieces s generalizing ps with
  | case1 => cases h
  | case2 s =>
    cases h
    rfl
  | case3 a b c d s n unit ih =>
    obtain ⟨⟨ps, _⟩, hps, hr⟩ := Option.map_eq_some_iff.mp h
    cases hr
    simp [readPieces, unit, ih hps]
  | case4 a b c d s unit => cases h
  | case5 c s notUnit e escape ih =>
    obtain ⟨⟨ps, _⟩, hps, hr⟩ := Option.map_eq_some_iff.mp h
    cases hr
    have other : c ≠ 'u' := by
      rintro rfl
      cases escape
    simp [readPieces, other, escape, ih hps]
  | case6 c s _ escape => cases h
  | case7 c s => cases h
  | case8 c s notQuote notUnit notEscape printable ih =>
    obtain ⟨⟨ps, _⟩, hps, hr⟩ := Option.map_eq_some_iff.mp h
    cases hr
    have other : c ≠ '\\' := by
      rintro rfl
      cases s with
      | nil => cases hps
      | cons d s => exact notEscape d s rfl rfl
    simp [readPieces, other, printable, ih hps]

theorem readString_append {k : Text} (h : readString s = some (k, r)) (t : Text) :
    readString (s ++ t) = some (k, r ++ t) := by
  obtain ⟨⟨ps, _⟩, hps, hr⟩ := Option.map_eq_some_iff.mp h
  cases hr
  rw [readString, readPieces_append hps]
  rfl

/-! ## More text behind numbers -/

/-- A run of digits that the text goes on behind. -/
theorem readDigits_append {ds : Text} (h : (if s.takeWhile Char.isDigit = [] then none else
      some (s.takeWhile Char.isDigit, s.dropWhile Char.isDigit)) = some (ds, r)) (hr : r ≠ [])
    (t : Text) : (if (s ++ t).takeWhile Char.isDigit = [] then none else
      some ((s ++ t).takeWhile Char.isDigit, (s ++ t).dropWhile Char.isDigit)) =
        some (ds, r ++ t) := by
  split at h
  · cases h
  · rename_i digits
    cases h
    rw [takeWhile_append_of_ne_nil hr, dropWhile_append_of_ne_nil hr, if_neg digits]

theorem readWhole_append {ds : Text} (h : readWhole s = some (ds, r)) (hr : r ≠ []) (t : Text) :
    readWhole (s ++ t) = some (ds, r ++ t) := by
  unfold readWhole at h
  split at h
  · cases h
    rfl
  · rename_i other
    cases s with
    | nil => cases h
    | cons c s =>
      unfold readWhole
      split
      · rename_i heq
        cases heq
        exact (other _ rfl).elim
      · exact readDigits_append h hr t

theorem readPlaces_append {ds : Text} (h : readPlaces s = some (ds, r)) (hr : r ≠ []) (t : Text) :
    readPlaces (s ++ t) = some (ds, r ++ t) := by
  unfold readPlaces at h
  split at h
  · exact readDigits_append h hr t
  · cases h

theorem readPlaces_cons {c : Char} (h : c ≠ '.') (s : Text) : readPlaces (c :: s) = none := by
  unfold readPlaces
  split
  · rename_i heq
    cases heq
    exact (h rfl).elim
  · rfl

theorem takeSign_append (hs : s ≠ []) (t : Text) :
    takeSign (s ++ t) = ((takeSign s).1, (takeSign s).2 ++ t) := by
  obtain ⟨c, s, rfl⟩ := List.exists_cons_of_ne_nil hs
  by_cases minus : c = '-'
  · subst minus
    rfl
  · by_cases plus : c = '+'
    · subst plus
      rfl
    · simp [takeSign, minus, plus]

theorem readPower_append {e : Int} (h : readPower s = some (e, r)) (hr : r ≠ []) (t : Text) :
    readPower (s ++ t) = some (e, r ++ t) := by
  unfold readPower at h
  split at h
  · rename_i c s
    split at h
    · rename_i mark
      dsimp only at h
      split at h
      · cases h
      · rename_i digits
        cases h
        have some_left : s ≠ [] := by
          rintro rfl
          exact hr rfl
        rw [List.cons_append, readPower, if_pos mark, takeSign_append some_left]
        dsimp only
        rw [takeWhile_append_of_ne_nil hr, dropWhile_append_of_ne_nil hr, if_neg digits]
    · cases h
  · cases h

theorem readPower_cons {c : Char} (h : (c = 'e' || c = 'E') = false) (s : Text) :
    readPower (c :: s) = none := by
  rw [readPower, if_neg (by simp [h])]

theorem exists_of_readPower {e : Int} (h : readPower s = some (e, r)) :
    ∃ c u, s = c :: u ∧ (c = 'e' || c = 'E') = true := by
  unfold readPower at h
  split at h
  · rename_i c u
    split at h
    · rename_i mark
      exact ⟨c, u, rfl, mark⟩
    · cases h
  · cases h

/-- A part that may be missing: it is the same if it is not begun in what is left. -/
theorem optional_append {α : Type} {part : Text → Option (α × Text)} {t : Text}
    (taken : ∀ x r, part s = some (x, r) → r ≠ [] → part (s ++ t) = some (x, r ++ t))
    (missing : part s = none → part (s ++ t) = none)
    (rest : ((part s).map Prod.snd).getD s ≠ []) : part (s ++ t) = (part s).map (withMore t) := by
  cases here : part s with
  | none => exact missing here
  | some xr =>
    rw [here] at rest
    exact taken xr.1 xr.2 here rest

@[simp]
theorem map_fst_withMore {α : Type} (t : Text) (o : Option (α × Text)) :
    (o.map (withMore t)).map Prod.fst = o.map Prod.fst := by
  cases o <;> rfl

/-- A number before a delimiter is the same with more text behind it. -/
theorem readUnsigned_append {negative : Bool} {j : Json}
    (h : readUnsigned negative s = some (j, r)) (hr : Delimited r) (t : Text) :
    readUnsigned negative (s ++ t) = some (j, r ++ t) := by
  unfold readUnsigned at h
  split at h
  · cases h
  · rename_i ds u whole
    dsimp only at h
    set v := ((readPlaces u).map Prod.snd).getD u with places_rest
    have power_rest : ((readPower v).map Prod.snd).getD v = r := by
      split at h
      · split at h
        · cases h
        · cases h
          rfl
      · cases h
        rfl
    obtain ⟨c, w, rfl, ends⟩ := hr
    have other : ∀ d, isDelimiter d = false → c ≠ d := fun d => ne_of_class ends
    have power : readPower (v ++ t) = (readPower v).map (withMore t) := by
      refine optional_append (fun _ _ h hr => readPower_append h hr t) (fun none => ?_) ?_
      · rw [none] at power_rest
        rw [show v = c :: w from power_rest]
        exact readPower_cons (by simp [other 'e' rfl, other 'E' rfl]) _
      · rw [power_rest]
        exact List.cons_ne_nil c w
    -- what follows the places is an exponent or the rest, and begins with no point
    have begins : ∃ d x, v = d :: x ∧ d ≠ '.' := by
      cases hp : readPower v with
      | none =>
        rw [hp] at power_rest
        exact ⟨c, w, power_rest, other '.' rfl⟩
      | some er =>
        obtain ⟨d, x, hv, mark⟩ := exists_of_readPower hp
        exact ⟨d, x, hv, ne_of_class (p := fun c => c = 'e' || c = 'E') mark rfl⟩
    obtain ⟨d, x, hv, point⟩ := begins
    have places : readPlaces (u ++ t) = (readPlaces u).map (withMore t) := by
      refine optional_append (fun _ _ h hr => readPlaces_append h hr t) (fun none => ?_) ?_
      · rw [none] at places_rest
        rw [show u = d :: x from places_rest.symm.trans hv]
        exact readPlaces_cons point _
      · rw [← places_rest, hv]
        exact List.cons_ne_nil d x
    have some_left : u ≠ [] := by
      intro empty
      rw [empty] at places_rest
      exact List.cons_ne_nil d x (hv.symm.trans places_rest)
    have next : ((readPlaces (u ++ t)).map Prod.snd).getD (u ++ t) = v ++ t := by
      rw [places, places_rest]
      cases readPlaces u <;> rfl
    unfold readUnsigned
    rw [readWhole_append whole some_left]
    dsimp only
    rw [next, places, power]
    have rest : (((readPower v).map (withMore t)).map Prod.snd).getD (v ++ t) = c :: w ++ t := by
      rw [← power_rest]
      cases readPower v <;> rfl
    simp only [map_fst_withMore, Option.isNone_map, rest]
    rw [power_rest] at h
    split at h
    · rename_i integer
      rw [if_pos integer]
      split at h
      · cases h
      · rename_i short
        cases h
        rw [if_neg short]
    · rename_i decimal
      cases h
      rw [if_neg decimal]

theorem readNumber_append {j : Json} (h : readNumber s = some (j, r)) (hr : Delimited r)
    (t : Text) : readNumber (s ++ t) = some (j, r ++ t) := by
  unfold readNumber at h
  split at h
  · exact readUnsigned_append h hr t
  · rename_i other
    cases s with
    | nil => cases h
    | cons c s =>
      unfold readNumber
      split
      · rename_i heq
        cases heq
        exact (other _ rfl).elim
      · exact readUnsigned_append h hr t

/-! ## More text behind names -/

theorem readName_name : ∀ nk ∈ names, ∀ t, readName (nk.1 ++ t) = some (nk.2, t) := by
  simp only [names, List.forall_mem_cons]
  refine ⟨?_, ?_, ?_, ?_, ?_, ?_, nofun⟩ <;> intro t <;> rfl

theorem readName_append {j : Json} (h : readName s = some (j, r)) (t : Text) :
    readName (s ++ t) = some (j, r ++ t) := by
  obtain ⟨nk, member, read⟩ := List.exists_of_findSome?_eq_some h
  obtain ⟨u, hu, same⟩ := Option.map_eq_some_iff.mp read
  cases same
  rw [eq_append_of_afterPrefix? hu, List.append_assoc]
  exact readName_name nk member _

theorem readName_digit {c : Char} (h : c.isDigit = true) (s : Text) :
    readName (c :: s) = none ∧ readName ('-' :: c :: s) = none := by
  have other : ∀ d, d.isDigit = false → d ≠ c := fun d hd => (ne_of_class h hd).symm
  constructor <;>
    simp [readName, names, afterPrefix?, other 'n' rfl, other 't' rfl, other 'f' rfl, other 'N' rfl,
      other 'I' rfl, other '-' rfl]

/-- A number begins with a digit, or with a minus sign and a digit. -/
theorem exists_of_readWhole {ds : Text} (h : readWhole s = some (ds, r)) :
    ∃ c u, s = c :: u ∧ c.isDigit = true := by
  unfold readWhole at h
  split at h
  · exact ⟨'0', _, rfl, rfl⟩
  · dsimp only at h
    split at h
    · cases h
    · rename_i digits
      cases s with
      | nil => exact (digits rfl).elim
      | cons c u =>
        refine ⟨c, u, rfl, ?_⟩
        by_contra other
        exact digits (List.takeWhile_cons_of_neg other)

theorem readName_of_readNumber {j : Json} (h : readNumber s = some (j, r)) (t : Text) :
    readName (s ++ t) = none := by
  have begins : ∀ {negative u j r}, readUnsigned negative u = some (j, r) →
      ∃ c v, u = c :: v ∧ c.isDigit = true := by
    intro negative u j r h
    unfold readUnsigned at h
    split at h
    · cases h
    · rename_i whole
      exact exists_of_readWhole whole
  unfold readNumber at h
  split at h
  · obtain ⟨c, v, rfl, digit⟩ := begins h
    exact (readName_digit digit _).2
  · obtain ⟨c, v, rfl, digit⟩ := begins h
    exact (readName_digit digit _).1

end Drawbridge.Json
