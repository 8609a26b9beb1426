import Drawbridge.Markup.EmbeddedJson
import Drawbridge.Proofs.Json.Following
import Drawbridge.Proofs.Markup.Fence
import Drawbridge.Proofs.Stream.Grammar

/-!
JSON found inside prose. The text of an array or an object (`IsValueText`) is told from the prose
around it, in which no bracket of its own stands on the wrong side.

* `readValue_valueText`: such a text is read off whatever follows it;
* `parse_valueText`, `parse_eq_none`: the whole is read only if nothing but white space stands
  around the value, and then as the value;
* `bracketed?_valueText`: the bracketed piece of the whole is the value's text;
* `extractJson_embedded`: so the value is found either way.
-/

namespace Drawbridge

open Json (readValue readName readNumber skipSpace isSpace isScalarChar SpelledTo)

/-- A text that is read as an array or an object, from its own opening bracket to its own closing
one. -/
structure IsValueText (o : Text) (j : Json) : Prop where
  read : Json.parse o = some j
  brackets : (∃ m, o = '{' :: (m ++ ['}'])) ∨ ∃ m, o = '[' :: (m ++ [']'])

/-- Prose before a value: no bracket opens in it, and no string. -/
def IsLeadIn (p : Text) : Prop :=
  ∀ c ∈ ['{', '[', '"'], c ∉ p

/-- Prose behind a value: no bracket closes in it. -/
def IsLeadOut (s : Text) : Prop :=
  ∀ c ∈ ['}', ']'], c ∉ s

theorem throughLast?_append {c : Char} {s : Text} (h : c ∉ s) (m : Text) :
    throughLast? c (m ++ c :: s) = some (m ++ [c]) := by
  have nothing : throughLast? c s = none := by
    induction s with
    | nil => rfl
    | cons d s ih =>
      rw [List.mem_cons, not_or] at h
      rw [throughLast?, ih h.2]
      exact if_neg (Ne.symm h.1)
  induction m with
  | nil => simp [throughLast?, nothing]
  | cons d m ih => simp [throughLast?, ih]

theorem bracketed?_leadIn {p : Text} (h : IsLeadIn p) (s : Text) :
    bracketed? (p ++ s) = bracketed? s := by
  induction p with
  | nil => rfl
  | cons c p ih =>
    have brace : c ≠ '{' := by
      rintro rfl
      exact h '{' (by decide) List.mem_cons_self
    have bracket : c ≠ '[' := by
      rintro rfl
      exact h '[' (by decide) List.mem_cons_self
    have rest := ih fun d hd hm => h d hd (List.mem_cons_of_mem c hm)
    simp [bracketed?, brace, bracket, rest]

namespace IsValueText

variable {o p s : Text} {j : Json}

theorem begins (h : IsValueText o j) : ∃ c m, o = c :: m ∧ c ∈ ['{', '['] := by
  rcases h.brackets with ⟨m, rfl⟩ | ⟨m, rfl⟩
  · exact ⟨_, _, rfl, by decide⟩
  · exact ⟨_, _, rfl, by decide⟩

theorem ends (h : IsValueText o j) : ∃ c, o.getLast? = some c ∧ isSpace c = false := by
  rcases h.brackets with ⟨m, rfl⟩ | ⟨m, rfl⟩
  · exact ⟨'}', List.getLast?_concat (l := '{' :: m), rfl⟩
  · exact ⟨']', List.getLast?_concat (l := '[' :: m), rfl⟩

theorem skipSpace_eq (h : IsValueText o j) (s : Text) : skipSpace (o ++ s) = o ++ s := by
  obtain ⟨c, m, rfl, hc⟩ := h.begins
  have solid : ∀ c ∈ ['{', '['], ¬ isSpace c = true := by decide
  exact List.dropWhile_cons_of_neg (solid c hc)

/-- **The text is read off whatever follows it.** -/
theorem readValue_valueText (h : IsValueText o j) {fuel : Nat} (hf : 2 * o.length + 2 ≤ fuel)
    (s : Text) : readValue fuel (o ++ s) = some (j, s) := by
  have read := h.read
  have start := h.skipSpace_eq []
  rw [List.append_nil] at start
  rw [Json.parse, start] at read
  split at read
  · rename_i k r value
    split at read
    · rename_i blank
      cases read
      -- what is left is white space, and the text does not end in any
      have nothing : r = [] := by
        obtain ⟨t, whole, -⟩ := (readers _).value value
        obtain ⟨c, last, solid⟩ := h.ends
        by_contra some_left
        rw [whole, List.getLast?_append_of_ne_nil t some_left] at last
        have space := List.dropWhile_eq_nil_iff.mp blank c (List.mem_of_getLast? last)
        rw [solid] at space
        cases space
      subst nothing
      have opens : Json.Opens o := by
        obtain ⟨c, m, same, hc⟩ := h.begins
        exact ⟨c, m, same, List.mem_cons_of_mem '"' (List.mem_pair.mpr (List.mem_pair.mp hc).symm)⟩
      exact (Json.follows _).value value (.inl opens) fuel hf s
    · cases read
  · cases read

/-! ## The whole text -/

/-- With white space before it, the value is the whole if white space follows it. -/
theorem parse_valueText (h : IsValueText o j) (hp : skipSpace p = []) (s : Text) :
    Json.parse (p ++ (o ++ s)) = if skipSpace s = [] then some j else none := by
  have start : skipSpace (p ++ (o ++ s)) = o ++ s := by
    rw [skipSpace, List.dropWhile_append_of_pos (List.dropWhile_eq_nil_iff.mp hp)]
    exact h.skipSpace_eq s
  have bound : 2 * o.length + 2 ≤ 2 * (p ++ (o ++ s)).length + 2 := by
    simp only [List.length_append]
    omega
  rw [Json.parse, start, h.readValue_valueText bound]

/-- With something else before it, the whole is not read: only a name or a number could stand there,
and the value would be left behind it. -/
theorem parse_eq_none (h : IsValueText o j) (lead : IsLeadIn p) (hp : skipSpace p ≠ [])
    (s : Text) : Json.parse (p ++ (o ++ s)) = none := by
  obtain ⟨d, q, hq⟩ := List.exists_cons_of_ne_nil hp
  have within : ∀ c ∈ d :: q, c ∈ p := by
    intro c hc
    rw [← hq] at hc
    exact List.dropWhile_subset isSpace hc
  have plain : d ∉ ['"', '[', '{'] := by
    intro hd
    refine lead d ?_ (within d List.mem_cons_self)
    simp only [List.mem_cons, List.not_mem_nil, or_false] at hd ⊢
    rcases hd with rfl | rfl | rfl <;> decide
  have start : skipSpace (p ++ (o ++ s)) = d :: (q ++ (o ++ s)) :=
    Json.skipSpace_append_cons hq (o ++ s)
  rw [Json.parse, start]
  split
  · rename_i k r value
    have spelled : SpelledTo (d :: (q ++ (o ++ s))) r := by
      rw [Json.readValue_scalar plain] at value
      cases name : readName (d :: (q ++ (o ++ s))) with
      | some kr =>
        rw [name] at value
        cases value
        exact .name name
      | none =>
        rw [name] at value
        exact .number value
    obtain ⟨t, whole, letters⟩ := spelled
    refine if_neg fun blank => ?_
    obtain ⟨c, m, rfl, hc⟩ := h.begins
    -- the bracket is not among the characters that were read, nor is it white space
    have member : c ∈ t ++ r := by
      rw [← whole]
      simp
    have bracket : ∀ c ∈ ['{', '['], isScalarChar c = false ∧ isSpace c = false := by decide
    rcases List.mem_append.mp member with hc' | hc'
    · exact absurd (letters c hc') (by rw [(bracket c hc).1]; decide)
    · exact absurd (List.dropWhile_eq_nil_iff.mp blank c hc') (by rw [(bracket c hc).2]; decide)
  · rfl

/-- **The whole is the value or nothing.** -/
theorem parse_embedded (h : IsValueText o j) (lead : IsLeadIn p) (s : Text) :
    Json.parse (p ++ (o ++ s)) = some j ∨ Json.parse (p ++ (o ++ s)) = none := by
  by_cases hp : skipSpace p = []
  · rw [h.parse_valueText hp]
    split
    · exact .inl rfl
    · exact .inr rfl
  · exact .inr (h.parse_eq_none lead hp s)

/-! ## The bracketed piece -/

theorem bracketed?_valueText (h : IsValueText o j) (lead : IsLeadIn p) (out : IsLeadOut s) :
    bracketed? (p ++ (o ++ s)) = some o := by
  rw [bracketed?_leadIn lead]
  rcases h.brackets with ⟨m, rfl⟩ | ⟨m, rfl⟩
  · have found := throughLast?_append (out '}' (by decide)) m
    simp [bracketed?, found]
  · have found := throughLast?_append (out ']' (by decide)) m
    simp [bracketed?, found]

end IsValueText

/--
**A value inside prose is recovered**, whatever its nesting and its strings: an answer in which no
bracket and no string opens before the value, and no bracket closes behind it, gives the value.
-/
theorem extractJson_embedded {p o s : Text} {j : Json} (value : IsValueText o j)
    (lead : IsLeadIn p) (out : IsLeadOut s) (unfenced : ¬ ticks <:+: p ++ o ++ s) :
    extractJsonFrom (.str (p ++ o ++ s)) = j := by
  have some_text : ∃ c u, p ++ o ++ s = c :: u := by
    obtain ⟨c, m, rfl, -⟩ := value.begins
    exact List.exists_cons_of_ne_nil (by simp)
  obtain ⟨c, u, whole⟩ := some_text
  have given : extractJsonFrom (.str (p ++ o ++ s)) = extractJson (p ++ o ++ s) := by
    rw [whole]
    rfl
  rw [given, extractJson, unfence_eq_self unfenced, List.append_assoc]
  rcases value.parse_embedded lead s with read | read
  · rw [read]
  · rw [read, value.bracketed?_valueText lead out, Option.bind_some, value.read]
    rfl

/-- An array with brackets, quotes and backslashes in its strings. -/
def tangledArray : Text :=
  "[\"]\x7d\\\"[\", \x7b\"a]\": [[], -1.5e3]\x7d]".toList

theorem tangledArray_isValueText : ∃ j, IsValueText tangledArray j := by
  have read : (Json.parse tangledArray).isSome = true := by decide +kernel
  obtain ⟨j, hj⟩ := Option.isSome_iff_exists.mp read
  exact ⟨j, hj, .inr ⟨tangledArray.tail.dropLast, by decide⟩⟩

/-- The array is found between prose and alone on its lines. -/
theorem extractJson_embedded_tangledArray : ∃ j, Json.parse tangledArray = some j ∧
    extractJsonFrom (.str ("1, \x7d as JSON:\n".toList ++ tangledArray ++ " [or \x7b".toList)) = j ∧
    extractJsonFrom (.str ("\n".toList ++ tangledArray ++ " \n".toList)) = j := by
  obtain ⟨j, value⟩ := tangledArray_isValueText
  refine ⟨j, value.read, ?_, ?_⟩
  · exact extractJson_embedded value (by unfold IsLeadIn; decide) (by unfold IsLeadOut; decide)
      (by decide +kernel)
  · exact extractJson_embedded value (by unfold IsLeadIn; decide) (by unfold IsLeadOut; decide)
      (by decide +kernel)

end Drawbridge
