import Drawbridge.Proofs.Json.Tokens

/-!
What follows a value does not change how it is read. An array and an object show where they end, and
what they hold ends before white space, a comma or a closing bracket (`Delimited`).

* `readValue_array`, `readValue_object`: the readers on an array or object that holds something;
* `Follows`: with more text behind it a value is read as before, and so are items and fields;
  the bound on the depth of calls may grow (`follows`, by induction on it).
-/

namespace Drawbridge.Json

variable {s r : Text}

/-- White space before something else is skipped as before. -/
theorem skipSpace_append (h : skipSpace s ≠ []) (t : Text) :
    skipSpace (s ++ t) = skipSpace s ++ t :=
  dropWhile_append_of_ne_nil h t

theorem skipSpace_append_cons {c : Char} {u : Text} (h : skipSpace s = c :: u) (t : Text) :
    skipSpace (s ++ t) = c :: (u ++ t) := by
  rw [skipSpace_append (by rw [h]; exact List.cons_ne_nil c u), h, List.cons_append]

/-- What is left after a value begins with a delimiter if a delimiter comes next. -/
theorem delimited_of_skipSpace {c : Char} {u : Text} (h : skipSpace s = c :: u)
    (hc : isDelimiter c = true) : Delimited s := by
  cases s with
  | nil => cases h
  | cons d s =>
    refine ⟨d, s, rfl, ?_⟩
    by_cases space : isSpace d = true
    · simp [isDelimiter, space]
    · rw [skipSpace, List.dropWhile_cons_of_neg space] at h
      cases h
      exact hc

/-- The text begins with a character that opens a string, an array or an object. -/
def Opens (s : Text) : Prop :=
  ∃ c u, s = c :: u ∧ c ∈ ['"', '[', '{']

theorem readValue_scalar {c : Char} (h : c ∉ ['"', '[', '{']) (fuel : Nat) (s : Text) :
    readValue (fuel + 1) (c :: s) =
      (readName (c :: s)).orElse fun _ => readNumber (c :: s) := by
  simp only [List.mem_cons, List.not_mem_nil, or_false, not_or] at h
  simp [readValue, h]

/-- An array that is not closed at once has items. -/
theorem readValue_array {c : Char} {u : Text} (hs : skipSpace s = c :: u) (hc : c ≠ ']')
    (fuel : Nat) : readValue (fuel + 1) ('[' :: s) =
      (readItems fuel (c :: u)).map fun (xs, r) => (.arr xs, r) := by
  simp only [readValue, hs]
  split
  · rename_i heq
    cases heq
    exact (hc rfl).elim
  · rfl

/-- An object that is not closed at once has fields. -/
theorem readValue_object {c : Char} {u : Text} (hs : skipSpace s = c :: u) (hc : c ≠ '}')
    (fuel : Nat) : readValue (fuel + 1) ('{' :: s) =
      (readFields fuel (c :: u)).map fun (fs, r) => (.obj (Dictionary.ofList fs), r) := by
  simp only [readValue, hs]
  split
  · rename_i heq
    cases heq
    exact (hc rfl).elim
  · rfl

theorem readValue_nil (fuel : Nat) : readValue fuel [] = none := by
  cases fuel <;> rfl

theorem readItems_nil (fuel : Nat) : readItems fuel [] = none := by
  cases fuel with
  | zero => rfl
  | succ fuel => rw [readItems, readValue_nil]

theorem readFields_nil (fuel : Nat) : readFields fuel [] = none := by
  cases fuel <;> rfl

/-- What the readers of values, items and fields make of a text that goes on behind what they read,
given a bound on the depth of calls that may be larger. -/
structure Follows (fuel : Nat) : Prop where
  value {s r : Text} {j : Json} : readValue fuel s = some (j, r) → Opens s ∨ Delimited r →
    ∀ fuel' ≥ fuel, ∀ t, readValue fuel' (s ++ t) = some (j, r ++ t)
  items {s r : Text} {js : List Json} : readItems fuel s = some (js, r) →
    ∀ fuel' ≥ fuel, ∀ t, readItems fuel' (s ++ t) = some (js, r ++ t)
  fields {s r : Text} {fs : List (Text × Json)} : readFields fuel s = some (fs, r) →
    ∀ fuel' ≥ fuel, ∀ t, readFields fuel' (s ++ t) = some (fs, r ++ t)

namespace Follows

variable {fuel fuel' : Nat}

theorem scalar {c : Char} {j : Json} (hc : c ∉ ['"', '[', '{'])
    (h : readValue (fuel + 1) (c :: s) = some (j, r)) (hr : Delimited r) (t : Text) :
    readValue (fuel' + 1) (c :: s ++ t) = some (j, r ++ t) := by
  rw [readValue_scalar hc] at h
  rw [List.cons_append, readValue_scalar hc, ← List.cons_append]
  cases name : readName (c :: s) with
  | some jr =>
    rw [name] at h
    cases h
    rw [readName_append name]
    rfl
  | none =>
    rw [name] at h
    rw [readName_of_readNumber h, readNumber_append h hr]
    rfl

theorem array (follows : Follows fuel) {j : Json}
    (h : readValue (fuel + 1) ('[' :: s) = some (j, r)) (more : fuel ≤ fuel') (t : Text) :
    readValue (fuel' + 1) ('[' :: (s ++ t)) = some (j, r ++ t) := by
  cases hs : skipSpace s with
  | nil =>
    simp only [readValue, hs, readItems_nil] at h
    cases h
  | cons c u =>
    have hst := skipSpace_append_cons hs t
    by_cases close : c = ']'
    · subst close
      simp only [readValue, hs] at h
      cases h
      simp only [readValue, hst]
    · rw [readValue_array hs close] at h
      obtain ⟨⟨js, _⟩, hjs, hr⟩ := Option.map_eq_some_iff.mp h
      cases hr
      rw [readValue_array hst close, ← List.cons_append, follows.items hjs fuel' more t]
      rfl

theorem object (follows : Follows fuel) {j : Json}
    (h : readValue (fuel + 1) ('{' :: s) = some (j, r)) (more : fuel ≤ fuel') (t : Text) :
    readValue (fuel' + 1) ('{' :: (s ++ t)) = some (j, r ++ t) := by
  cases hs : skipSpace s with
  | nil =>
    simp only [readValue, hs, readFields_nil] at h
    cases h
  | cons c u =>
    have hst := skipSpace_append_cons hs t
    by_cases close : c = '}'
    · subst close
      simp only [readValue, hs] at h
      cases h
      simp only [readValue, hst]
    · rw [readValue_object hs close] at h
      obtain ⟨⟨fs, _⟩, hfs, hr⟩ := Option.map_eq_some_iff.mp h
      cases hr
      rw [readValue_object hst close, ← List.cons_append, follows.fields hfs fuel' more t]
      rfl

theorem value_succ (follows : Follows fuel) {j : Json} (h : readValue (fuel + 1) s = some (j, r))
    (ends : Opens s ∨ Delimited r) (more : fuel ≤ fuel') (t : Text) :
    readValue (fuel' + 1) (s ++ t) = some (j, r ++ t) := by
  cases s with
  | nil => cases h
  | cons c s =>
    by_cases hc : c ∈ ['"', '[', '{']
    · simp only [List.mem_cons, List.not_mem_nil, or_false] at hc
      rcases hc with rfl | rfl | rfl
      · simp only [readValue] at h
        obtain ⟨⟨k, _⟩, hk, hr⟩ := Option.map_eq_some_iff.mp h
        cases hr
        simp [readValue, readString_append hk]
      · exact follows.array h more t
      · exact follows.object h more t
    · refine scalar hc h (ends.resolve_left ?_) t
      rintro ⟨d, u, same, hd⟩
      cases same
      exact hc hd

theorem items_succ (follows : Follows fuel) {js : List Json}
    (h : readItems (fuel + 1) s = some (js, r)) (more : fuel ≤ fuel') (t : Text) :
    readItems (fuel' + 1) (s ++ t) = some (js, r ++ t) := by
  unfold readItems at h
  split at h
  · cases h
  · rename_i j u hu
    split at h
    · rename_i rest hs
      cases h
      have value := follows.value hu (.inr (delimited_of_skipSpace hs rfl)) fuel' more t
      simp only [readItems, value, skipSpace_append_cons hs]
    · rename_i rest hs
      obtain ⟨⟨js, _⟩, hjs, hr⟩ := Option.map_eq_some_iff.mp h
      cases hr
      have value := follows.value hu (.inr (delimited_of_skipSpace hs rfl)) fuel' more t
      have some_left : skipSpace rest ≠ [] := by
        intro empty
        rw [empty, readItems_nil] at hjs
        cases hjs
      simp only [readItems, value, skipSpace_append_cons hs, skipSpace_append some_left,
        follows.items hjs fuel' more t, Option.map_some]
    · cases h

theorem fields_succ (follows : Follows fuel) {fs : List (Text × Json)}
    (h : readFields (fuel + 1) s = some (fs, r)) (more : fuel ≤ fuel') (t : Text) :
    readFields (fuel' + 1) (s ++ t) = some (fs, r ++ t) := by
  unfold readFields at h
  split at h
  · split at h
    · cases h
    · rename_i key u hkey
      split at h
      · rename_i colon hcolon
        split at h
        · cases h
        · rename_i j v hv
          have some_value : skipSpace colon ≠ [] := by
            intro empty
            rw [empty, readValue_nil] at hv
            cases hv
          split at h
          · rename_i rest hs
            cases h
            have value := follows.value hv (.inr (delimited_of_skipSpace hs rfl)) fuel' more t
            simp only [readFields, List.cons_append, readString_append hkey,
              skipSpace_append_cons hcolon, skipSpace_append some_value, value,
              skipSpace_append_cons hs]
          · rename_i rest hs
            obtain ⟨⟨fs, _⟩, hfs, hr⟩ := Option.map_eq_some_iff.mp h
            cases hr
            have value := follows.value hv (.inr (delimited_of_skipSpace hs rfl)) fuel' more t
            have some_left : skipSpace rest ≠ [] := by
              intro empty
              rw [empty, readFields_nil] at hfs
              cases hfs
            simp only [readFields, List.cons_append, readString_append hkey,
              skipSpace_append_cons hcolon, skipSpace_append some_value, value,
              skipSpace_append_cons hs, skipSpace_append some_left,
              follows.fields hfs fuel' more t, Option.map_some]
          · cases h
      · cases h
  · cases h

end Follows

/-- **More text behind what has been read changes nothing.** -/
theorem follows (fuel : Nat) : Follows fuel := by
  induction fuel with
  | zero => exact ⟨nofun, nofun, nofun⟩
  | succ fuel ih =>
    constructor
    · intro s r j h ends fuel' more t
      obtain ⟨k, rfl⟩ := Nat.exists_eq_add_of_lt more
      exact ih.value_succ h ends (Nat.le_add_right fuel k) t
    · intro s r js h fuel' more t
      obtain ⟨k, rfl⟩ := Nat.exists_eq_add_of_lt more
      exact ih.items_succ h (Nat.le_add_right fuel k) t
    · intro s r fs h fuel' more t
      obtain ⟨k, rfl⟩ := Nat.exists_eq_add_of_lt more
      exact ih.fields_succ h (Nat.le_add_right fuel k) t

end Drawbridge.Json
