import Drawbridge.Json.Reader
import Drawbridge.Json.Writer

/-!
Reading what has been written. Strings are read back character by character
(`readString_escape`), and from them objects whose values are texts and truth values
(`parse_render`). An object that is cut off inside its last text cannot be read
(`parse_unclosed`).
-/

namespace Drawbridge.Json

/-! ## Strings -/

theorem hexUnit?_hexDigit {n : Nat} (h : n < 32) :
    hexUnit? '0' '0' (hexDigit (n / 16)) (hexDigit (n % 16)) = some n := by
  have all : ∀ n < 32, hexUnit? '0' '0' (hexDigit (n / 16)) (hexDigit (n % 16)) = some n := by
    decide
  exact all n h

theorem joinPieces_unit {n : Nat} (h : n < 0xd800) (ps : List Piece) :
    joinPieces (.unit n :: ps) = Char.ofNat n :: joinPieces ps := by
  have high : isHighUnit n = false := by simp [isHighUnit]; omega
  have low : isLowUnit n = false := by simp [isLowUnit]; omega
  rcases ps with _ | ⟨_ | _, ps⟩ <;> simp [joinPieces, high, low]

/-- A character is escaped by a letter or sign or by its number, or it is written as it is. -/
theorem escapeChar_cases (c : Char) :
    (∃ x ∈ ['"', '\\', 'n', 'r', 't', 'b', 'f'],
      escapeChar c = ['\\', x] ∧ unescape? x = some c) ∨
    (c.toNat < 32 ∧ escapeChar c =
      ['\\', 'u', '0', '0', hexDigit (c.toNat / 16), hexDigit (c.toNat % 16)]) ∨
    (escapeChar c = [c] ∧ c ≠ '"' ∧ c ≠ '\\' ∧ ' ' ≤ c) := by
  by_cases short : c = '"' ∨ c = '\\' ∨ c = '\n' ∨ c = '\r' ∨ c = '\t' ∨ c = '\x08' ∨ c = '\x0c'
  · left
    rcases short with rfl | rfl | rfl | rfl | rfl | rfl | rfl <;>
      exact ⟨_, by decide, rfl, rfl⟩
  · right
    simp only [not_or] at short
    obtain ⟨h₁, h₂, h₃, h₄, h₅, h₆, h₇⟩ := short
    by_cases control : c < ' '
    · exact .inl ⟨control, by simp [escapeChar, h₁, h₂, h₃, h₄, h₅, h₆, h₇, control]⟩
    · exact .inr ⟨by simp [escapeChar, h₁, h₂, h₃, h₄, h₅, h₆, h₇, control], h₁, h₂,
        Char.not_lt.mp control⟩

/-- What is written for a character is read as one part that stands for it. -/
theorem readPieces_escapeChar (c : Char) (s : Text) :
    ∃ p : Piece, (∀ ps, joinPieces (p :: ps) = c :: joinPieces ps) ∧
      readPieces (escapeChar c ++ s) = (readPieces s).map fun (ps, r) => (p :: ps, r) := by
  rcases escapeChar_cases c with ⟨x, -, written, meant⟩ | ⟨bound, written⟩ |
    ⟨written, quote, backslash, high⟩
  · refine ⟨.char c, fun ps => rfl, ?_⟩
    have unnumbered : x ≠ 'u' := by
      rintro rfl
      cases meant
    simp [written, readPieces, unnumbered, meant]
  · refine ⟨.unit c.toNat, fun ps => ?_, ?_⟩
    · rw [joinPieces_unit (by omega), Char.ofNat_toNat]
    · simp [written, readPieces, hexUnit?_hexDigit bound]
  · refine ⟨.char c, fun ps => rfl, ?_⟩
    simp [written, readPieces, backslash, Char.not_lt.mpr high]

/-- **Written characters are read back, whatever follows them.** -/
theorem readString_escape (v s : Text) : readString (v.flatMap escapeChar ++ s) =
    (readString s).map fun (t, r) => (v ++ t, r) := by
  induction v with
  | nil => simp
  | cons c v ih =>
    obtain ⟨p, join, read⟩ := readPieces_escapeChar c (v.flatMap escapeChar ++ s)
    have step : readString (escapeChar c ++ (v.flatMap escapeChar ++ s)) =
        (readString (v.flatMap escapeChar ++ s)).map fun (t, r) => (c :: t, r) := by
      rw [readString, read, readString, Option.map_map, Option.map_map]
      congr 1
      funext ⟨ps, r⟩
      simp [join]
    rw [List.flatMap_cons, List.append_assoc, step, ih, Option.map_map]
    rfl

theorem readString_renderString (v r : Text) :
    readString (v.flatMap escapeChar ++ '"' :: r) = some (v, r) := by
  rw [readString_escape]
  simp [readString, readPieces, joinPieces]

/-! ## Values -/

/-- Texts and truth values. -/
def isFlat : Json → Bool
  | str _ | bool _ => true
  | _ => false

theorem readValue_flat {j : Json} (h : j.isFlat = true) (fuel : Nat) (r : Text) :
    readValue (fuel + 1) (j.render ++ r) = some (j, r) := by
  cases j with
  | str v => simp [render, renderString, readValue, readString_renderString]
  | bool b => cases b <;> simp [render, readValue, readName, names, afterPrefix?, List.findSome?]
  | null | int _ | float _ | arr _ | obj _ => cases h

theorem skipSpace_flat {j : Json} (h : j.isFlat = true) (r : Text) :
    skipSpace (j.render ++ r) = j.render ++ r := by
  cases j with
  | str v => simp [render, renderString, skipSpace, isSpace]
  | bool b => cases b <;> simp [render, skipSpace, isSpace]
  | null | int _ | float _ | arr _ | obj _ => cases h

/-! ## Objects -/

def renderField (f : Text × Json) : Text :=
  renderString f.1 ++ (": ".toList ++ f.2.render)

/-- What is written for fields that others follow. -/
def renderInit (fs : List (Text × Json)) : Text :=
  fs.flatMap fun f => renderField f ++ ", ".toList

theorem renderFields_snoc (fs : List (Text × Json)) (f : Text × Json) :
    renderFields (fs ++ [f]) = renderInit fs ++ renderField f := by
  induction fs with
  | nil => rfl
  | cons g fs ih =>
    have more : renderFields (g :: (fs ++ [f])) =
        renderField g ++ (", ".toList ++ renderFields (fs ++ [f])) := by
      rcases hfs : fs ++ [f] with _ | ⟨h, hs⟩
      · simp at hfs
      · simp [renderFields, renderField]
    rw [List.cons_append, more, ih, renderInit, renderInit, List.flatMap_cons]
    simp only [List.append_assoc]

/-- A field at the front is read, and the reader goes on with what follows it. -/
theorem readFields_field {f : Text × Json} (h : f.2.isFlat = true) (fuel : Nat) (s : Text) :
    readFields (fuel + 2) (renderField f ++ s) =
      match skipSpace s with
      | '}' :: r => some ([f], r)
      | ',' :: r => (readFields (fuel + 1) (skipSpace r)).map fun (fs, r) => (f :: fs, r)
      | _ => none := by
  have gap : skipSpace (' ' :: (f.2.render ++ s)) = f.2.render ++ s := skipSpace_flat h s
  have whole : renderField f ++ s =
      '"' :: (f.1.flatMap escapeChar ++ '"' :: ':' :: ' ' :: (f.2.render ++ s)) := by
    simp [renderField, renderString]
  have colon (t : Text) : skipSpace (':' :: t) = ':' :: t := rfl
  have opened := readFields.eq_def (fuel + 2) (renderField f ++ s)
  simp only [whole, readString_renderString, colon, gap, readValue_flat h] at opened
  rw [whole]
  exact opened

theorem readFields_init {fs : List (Text × Json)} (h : ∀ f ∈ fs, f.2.isFlat = true) {s : Text}
    (hs : skipSpace s = s) (fuel : Nat) :
    readFields (fuel + 1 + fs.length) (renderInit fs ++ s) =
      (readFields (fuel + 1) s).map fun (gs, r) => (fs ++ gs, r) := by
  induction fs with
  | nil => simp [renderInit]
  | cons f fs ih =>
    have ih := ih fun g hg => h g (List.mem_cons_of_mem f hg)
    have begin : skipSpace (renderInit fs ++ s) = renderInit fs ++ s := by
      cases fs with
      | nil => exact hs
      | cons g gs => simp [renderInit, renderField, renderString, skipSpace, isSpace]
    have comma : skipSpace (", ".toList ++ (renderInit fs ++ s)) =
        ',' :: ' ' :: (renderInit fs ++ s) := rfl
    have blank : skipSpace (' ' :: (renderInit fs ++ s)) = renderInit fs ++ s := begin
    have whole : renderInit (f :: fs) ++ s =
        renderField f ++ (", ".toList ++ (renderInit fs ++ s)) := by
      simp [renderInit]
    have bound : fuel + 1 + (f :: fs).length = fuel + fs.length + 2 := by
      rw [List.length_cons]
      omega
    have bound' : fuel + fs.length + 1 = fuel + 1 + fs.length := by omega
    rw [whole, bound, readFields_field (h f List.mem_cons_self), comma]
    simp only [blank]
    rw [bound', ih, Option.map_map]
    rfl

theorem length_renderInit (fs : List (Text × Json)) : fs.length ≤ (renderInit fs).length := by
  induction fs with
  | nil => exact Nat.le_refl 0
  | cons f fs ih =>
    simp only [renderInit, List.flatMap_cons, List.length_append, List.length_cons] at ih ⊢
    have : 1 ≤ (renderField f).length := by simp [renderField, renderString]
    omega

/-- An object is read if its fields are, given any bound that suffices. -/
theorem readValue_fields {s : Text} (hs : ∃ t, s = '"' :: t) (fuel : Nat) :
    readValue (fuel + 1) ('{' :: s) =
      (readFields fuel s).map fun (fs, r) => (.obj (Dictionary.ofList fs), r) := by
  obtain ⟨t, rfl⟩ := hs
  rfl

theorem renderInit_append_quote (fs : List (Text × Json)) (f : Text × Json) (s : Text) :
    ∃ t, renderInit fs ++ (renderField f ++ s) = '"' :: t := by
  cases fs with
  | nil => exact ⟨_, rfl⟩
  | cons g gs => exact ⟨_, rfl⟩

/-- The bound that `parse` sets on the depth of calls allows for every field. -/
theorem parse_bound (gs : List (Text × Json)) (s : Text) :
    ∃ n, 2 * (renderInit gs ++ s).length + 3 = n + 1 + 1 + gs.length := by
  have := length_renderInit gs
  refine ⟨2 * (renderInit gs ++ s).length + 1 - gs.length, ?_⟩
  rw [List.length_append]
  omega

theorem parse_object {s : Text} (hs : ∃ t, s = '"' :: t) : parse ('{' :: s) =
    (readFields (2 * s.length + 3) s).bind fun (fs, r) =>
      if skipSpace r = [] then some (obj (Dictionary.ofList fs)) else none := by
  have begin : skipSpace ('{' :: s) = '{' :: s := rfl
  have bound : 2 * ('{' :: s).length + 2 = 2 * s.length + 3 + 1 := rfl
  rw [parse, begin, bound, readValue_fields hs]
  cases readFields (2 * s.length + 3) s <;> rfl

/-- **An object of texts and truth values is read back**, white space after it being no matter. -/
theorem parse_render {fs : List (Text × Json)} (hne : fs ≠ []) (h : ∀ f ∈ fs, f.2.isFlat = true)
    {t : Text} (ht : skipSpace t = []) :
    parse ((obj fs).render ++ t) = some (obj (Dictionary.ofList fs)) := by
  obtain ⟨gs, f, rfl⟩ : ∃ gs f, fs = gs ++ [f] :=
    ⟨fs.dropLast, fs.getLast hne, (List.dropLast_concat_getLast hne).symm⟩
  have hf : f.2.isFlat = true := h f (by simp)
  have hgs : ∀ g ∈ gs, g.2.isFlat = true := fun g hg => h g (by simp [hg])
  have written : (obj (gs ++ [f])).render ++ t =
      '{' :: (renderInit gs ++ (renderField f ++ '}' :: t)) := by
    simp [render, renderFields_snoc]
  obtain ⟨n, hn⟩ := parse_bound gs (renderField f ++ '}' :: t)
  have last : readFields (n + 1 + 1) (renderField f ++ '}' :: t) = some ([f], t) :=
    readFields_field hf n ('}' :: t)
  have quoted := renderInit_append_quote gs f ('}' :: t)
  rw [written, parse_object quoted, hn, readFields_init hgs rfl, last]
  simp [ht]

/-- **An object that is cut off inside its last text cannot be read.** What follows the cut does
not close the text. -/
theorem parse_unclosed {gs : List (Text × Json)} (h : ∀ g ∈ gs, g.2.isFlat = true) (k v : Text)
    {s : Text} (hs : readString s = none) :
    parse ('{' :: (renderInit gs ++ (renderString k ++ (": ".toList ++ '"' ::
      (v.flatMap escapeChar ++ s))))) = none := by
  generalize hlast : renderString k ++ (": ".toList ++ '"' :: (v.flatMap escapeChar ++ s)) = last
  obtain ⟨n, hn⟩ := parse_bound gs last
  have unread : readFields (n + 1 + 1) last = none := by
    have quoted : last = '"' :: (k.flatMap escapeChar ++
        '"' :: ':' :: ' ' :: '"' :: (v.flatMap escapeChar ++ s)) := by
      simp [← hlast, renderString]
    have colon (t : Text) : skipSpace (':' :: t) = ':' :: t := rfl
    have gap (t : Text) : skipSpace (' ' :: '"' :: t) = '"' :: t := rfl
    have value : readValue (n + 1) ('"' :: (v.flatMap escapeChar ++ s)) = none := by
      simp [readValue, readString_escape, hs]
    rw [quoted, readFields]
    simp only [readString_renderString, colon, gap, value]
  have begins : ∃ t, renderInit gs ++ last = '"' :: t := by
    rw [← hlast]
    cases gs with
    | nil => exact ⟨_, rfl⟩
    | cons g gs => exact ⟨_, rfl⟩
  have start : skipSpace last = last := by
    rw [← hlast]
    rfl
  rw [parse_object begins, hn, readFields_init h start, unread]
  rfl

end Drawbridge.Json
