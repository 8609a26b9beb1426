import Mathlib.Data.List.TakeWhile
import Drawbridge.Proofs.Json.Tokens
import Drawbridge.Proofs.Stream.Interleaving
import Drawbridge.Proofs.Stream.Objects

/-!
The scan of braces against the grammar of JSON. What the JSON reader reads off a text is passed
over by the scan, so an object that the reader accepts is a block.

* `takeString?_of_readPieces`: a string ends at the same quote for both;
* `Readers`: what each of the readers of values, items and fields has read off, by induction on the
  depth of calls (`readers`);
* `ObjectText.isBlock`: an accepted object is a block;
* `objects_found`: the end of an accepted object is found at its closing brace and not before, and
  a stream of such objects gives exactly them.
-/

namespace Drawbridge

open Json (Piece hexUnit? hexValue? unescape? readPieces readString readNumber readName readValue
  readItems readFields skipSpace isSpace SpelledTo)

/-! ## Strings -/

theorem takeString?_plain {c : Char} (hq : c ≠ '"') (hb : c ≠ '\\') (s : Text) :
    takeString? (c :: s) = (takeString? s).map fun (t, r) => (c :: t, r) := by
  cases s <;> simp [takeString?, hq, hb]

/-- Inside a string that ends, a backslash escapes the character after it. -/
theorem ne_backslash {c : Char} {s t r : Text} (h : takeString? s = some (t, r))
    (notEscape : ∀ d u, c = '\\' → s = d :: u → False) : c ≠ '\\' := by
  rintro rfl
  cases s with
  | nil => cases h
  | cons d s => exact notEscape d s rfl rfl

theorem takeString?_append {s t r : Text} (h : takeString? s = some (t, r)) (x : Text) :
    takeString? (t ++ x) = some (t, x) := by
  fun_induction takeString? s generalizing t with
  | case1 => cases h
  | case2 c s ih =>
    obtain ⟨⟨u, _⟩, hu, hr⟩ := Option.map_eq_some_iff.mp h
    cases hr
    simp [takeString?, ih hu]
  | case3 c s =>
    cases h
    cases x <;> simp [takeString?]
  | case4 c s notEscape notQuote ih =>
    obtain ⟨⟨u, _⟩, hu, hr⟩ := Option.map_eq_some_iff.mp h
    cases hr
    rw [List.cons_append, takeString?_plain notQuote (ne_backslash hu notEscape), ih hu]
    rfl

theorem passes_quoted {s t r : Text} (h : takeString? s = some (t, r)) : Passes ('"' :: t) := by
  intro depth x
  rw [List.cons_append, takeBlock?_quote (takeString?_append h x)]
  rfl

theorem hexValue?_some {c : Char} {n : Nat} (h : hexValue? c = some n) : c ≠ '"' ∧ c ≠ '\\' := by
  constructor <;>
  · rintro rfl
    cases h

theorem hexUnit?_some {a b c d : Char} {n : Nat} (h : hexUnit? a b c d = some n) :
    ∀ x ∈ [a, b, c, d], x ≠ '"' ∧ x ≠ '\\' := by
  simp only [hexUnit?, Option.bind_eq_bind, Option.bind_eq_some_iff] at h
  obtain ⟨i, ha, j, hb, k, hc, l, hd, -⟩ := h
  simp only [List.forall_mem_cons]
  exact ⟨hexValue?_some ha, hexValue?_some hb, hexValue?_some hc, hexValue?_some hd,
    fun _ h => nomatch h⟩

/-- **A string that is read ends where the scan ends it.** -/
theorem takeString?_of_readPieces {s r : Text} {ps : List Piece}
    (h : readPieces s = some (ps, r)) : ∃ t, takeString? s = some (t, r) := by
  fun_induction readPieces s generalizing ps with
  | case1 => cases h
  | case2 s =>
    cases h
    exact ⟨['"'], by cases r <;> rfl⟩
  | case3 a b c d s n unit ih =>
    obtain ⟨⟨ps, _⟩, hps, hr⟩ := Option.map_eq_some_iff.mp h
    cases hr
    obtain ⟨t, ht⟩ := ih hps
    have plain := hexUnit?_some unit
    simp only [List.forall_mem_cons] at plain
    obtain ⟨ha, hb, hc, hd, -⟩ := plain
    refine ⟨'\\' :: 'u' :: a :: b :: c :: d :: t, ?_⟩
    rw [takeString?, takeString?_plain ha.1 ha.2, takeString?_plain hb.1 hb.2,
      takeString?_plain hc.1 hc.2, takeString?_plain hd.1 hd.2, ht]
    rfl
  | case4 a b c d s unit => cases h
  | case5 c s _ e escape ih =>
    obtain ⟨⟨ps, _⟩, hps, hr⟩ := Option.map_eq_some_iff.mp h
    cases hr
    obtain ⟨t, ht⟩ := ih hps
    exact ⟨'\\' :: c :: t, by rw [takeString?, ht]; rfl⟩
  | case6 c s _ escape => cases h
  | case7 c s => cases h
  | case8 c s notQuote notUnit notEscape printable ih =>
    obtain ⟨⟨ps, _⟩, hps, hr⟩ := Option.map_eq_some_iff.mp h
    cases hr
    obtain ⟨t, ht⟩ := ih hps
    refine ⟨c :: t, ?_⟩
    rw [takeString?_plain notQuote (ne_backslash ht notEscape), ht]
    rfl

/-! ## Reading off -/

/-- What is left of `s` is `r`, after a piece that the scan passes over. -/
def PassedTo (s r : Text) : Prop :=
  ∃ t, s = t ++ r ∧ Passes t

namespace PassedTo

variable {s t r : Text}

theorem refl (s : Text) : PassedTo s s :=
  ⟨[], rfl, passes_nil⟩

theorem trans (h : PassedTo s t) (h' : PassedTo t r) : PassedTo s r := by
  obtain ⟨u, rfl, hu⟩ := h
  obtain ⟨v, rfl, hv⟩ := h'
  exact ⟨u ++ v, by rw [List.append_assoc], hu.append hv⟩

theorem of_plain {u : Text} (h : ∀ c ∈ u, c ≠ '"' ∧ c ≠ '{' ∧ c ≠ '}') (r : Text) :
    PassedTo (u ++ r) r :=
  ⟨u, rfl, passes_plain h⟩

theorem cons {c : Char} (hc : c ≠ '"' ∧ c ≠ '{' ∧ c ≠ '}') (h : PassedTo s r) :
    PassedTo (c :: s) r :=
  trans (of_plain (u := [c]) (by simpa using hc) s) h

/-- Characters of a class without quotes and braces may be dropped. -/
theorem dropWhile {p : Char → Bool} (hq : p '"' = false) (ho : p '{' = false)
    (hc : p '}' = false) (s : Text) : PassedTo s (s.dropWhile p) := by
  have plain : ∀ c ∈ s.takeWhile p, c ≠ '"' ∧ c ≠ '{' ∧ c ≠ '}' := by
    intro c h
    have hp := List.mem_takeWhile_imp h
    exact ⟨ne_of_class hp hq, ne_of_class hp ho, ne_of_class hp hc⟩
  have whole := of_plain plain (s.dropWhile p)
  rwa [List.takeWhile_append_dropWhile] at whole

theorem skipSpace (s : Text) : PassedTo s (skipSpace s) :=
  dropWhile rfl rfl rfl s

theorem string {k : Text} (h : readString s = some (k, r)) : PassedTo ('"' :: s) r := by
  obtain ⟨⟨ps, _⟩, hps, hr⟩ := Option.map_eq_some_iff.mp h
  cases hr
  obtain ⟨t, ht⟩ := takeString?_of_readPieces hps
  exact ⟨'"' :: t, by rw [eq_append_of_takeString? ht, List.cons_append], passes_quoted ht⟩

theorem spelled (h : SpelledTo s r) : PassedTo s r := by
  obtain ⟨t, rfl, plain⟩ := h
  refine of_plain (fun c hc => ?_) r
  have letter := plain c hc
  exact ⟨ne_of_class letter rfl, ne_of_class letter rfl, ne_of_class letter rfl⟩

end PassedTo

/-! ## Values -/

/-- What the readers of values, items and fields have read off, given a bound on the depth of
calls. The fields of an object end before its closing brace. -/
structure Readers (fuel : Nat) : Prop where
  value {s r : Text} {j : Json} : readValue fuel s = some (j, r) → PassedTo s r
  items {s r : Text} {js : List Json} : readItems fuel s = some (js, r) → PassedTo s r
  fields {s r : Text} {fs : List (Text × Json)} :
    readFields fuel s = some (fs, r) → PassedTo s ('}' :: r)

namespace Readers

variable {fuel : Nat} {s r : Text}

theorem object (readers : Readers fuel) {j : Json}
    (h : readValue (fuel + 1) ('{' :: s) = some (j, r)) : PassedTo s ('}' :: r) := by
  simp only [readValue] at h
  split at h
  · rename_i rest hs
    cases h
    exact hs ▸ PassedTo.skipSpace s
  · obtain ⟨⟨fs, _⟩, hfs, hr⟩ := Option.map_eq_some_iff.mp h
    cases hr
    exact (PassedTo.skipSpace s).trans (readers.fields hfs)

theorem value_succ (readers : Readers fuel) {j : Json}
    (h : readValue (fuel + 1) s = some (j, r)) : PassedTo s r := by
  have whole := h
  unfold readValue at h
  split at h
  · obtain ⟨⟨k, _⟩, hk, hr⟩ := Option.map_eq_some_iff.mp h
    cases hr
    exact .string hk
  · rename_i s
    refine .cons (by decide) ((PassedTo.skipSpace s).trans ?_)
    split at h
    · rename_i rest hs
      cases h
      rw [hs]
      exact .cons (by decide) (.refl r)
    · obtain ⟨⟨js, _⟩, hjs, hr⟩ := Option.map_eq_some_iff.mp h
      cases hr
      exact readers.items hjs
  · rename_i s
    obtain ⟨t, rfl, ht⟩ := readers.object whole
    exact ⟨'{' :: (t ++ ['}']), by simp, Passes.braces ht⟩
  · cases hn : readName s with
    | some jr =>
      rw [hn] at h
      cases h
      exact .spelled (.name hn)
    | none =>
      rw [hn] at h
      exact .spelled (.number h)

theorem items_succ (readers : Readers fuel) {js : List Json}
    (h : readItems (fuel + 1) s = some (js, r)) : PassedTo s r := by
  unfold readItems at h
  split at h
  · cases h
  · rename_i j t ht
    have before := (readers.value ht).trans (.skipSpace t)
    split at h
    · rename_i rest hs
      cases h
      rw [hs] at before
      exact before.trans (.cons (by decide) (.refl r))
    · rename_i rest hs
      obtain ⟨⟨js, _⟩, hjs, hr⟩ := Option.map_eq_some_iff.mp h
      cases hr
      rw [hs] at before
      exact before.trans (.cons (by decide) ((PassedTo.skipSpace rest).trans (readers.items hjs)))
    · cases h

theorem fields_succ (readers : Readers fuel) {fs : List (Text × Json)}
    (h : readFields (fuel + 1) s = some (fs, r)) : PassedTo s ('}' :: r) := by
  unfold readFields at h
  split at h
  · split at h
    · cases h
    · rename_i key t hkey
      have key := (PassedTo.string hkey).trans (.skipSpace t)
      split at h
      · rename_i colon hcolon
        rw [hcolon] at key
        replace key := key.trans (.cons (by decide) (.skipSpace colon))
        split at h
        · cases h
        · rename_i j u hu
          have before := (key.trans (readers.value hu)).trans (.skipSpace u)
          split at h
          · rename_i rest hs
            cases h
            rwa [hs] at before
          · rename_i rest hs
            obtain ⟨⟨fs, _⟩, hfs, hr⟩ := Option.map_eq_some_iff.mp h
            cases hr
            rw [hs] at before
            exact before.trans
              (.cons (by decide) ((PassedTo.skipSpace rest).trans (readers.fields hfs)))
          · cases h
      · cases h
  · cases h

end Readers

/-- **What the JSON reader reads off is passed over by the scan of braces.** -/
theorem readers (fuel : Nat) : Readers fuel := by
  induction fuel with
  | zero => exact ⟨nofun, nofun, nofun⟩
  | succ fuel ih => exact ⟨ih.value_succ, ih.items_succ, ih.fields_succ⟩

/-! ## Objects -/

/-- A text that is read as an object, with no white space around it. -/
structure IsObjectText (o : Text) : Prop where
  read : ∃ fs, Json.parse o = some (.obj fs)
  opens : o.head? = some '{'
  closes : o.getLast? = some '}'

/-- **The text of an object is a block.** -/
theorem IsObjectText.isBlock {o : Text} (h : IsObjectText o) : IsBlock o := by
  obtain ⟨⟨fs, read⟩, opens, closes⟩ := h
  obtain ⟨s, rfl⟩ := List.head?_eq_some_iff.mp opens
  rw [Json.parse, show skipSpace ('{' :: s) = '{' :: s from rfl] at read
  split at read
  · rename_i j r value
    split at read
    · rename_i blank
      obtain ⟨t, rfl, ht⟩ := (readers _).object value
      -- what follows the closing brace is white space, and the text ends in a brace
      have nothing : r = [] := by
        rcases List.eq_nil_or_concat r with rfl | ⟨u, c, rfl⟩
        · rfl
        · have whole : '{' :: (t ++ '}' :: u.concat c) = '{' :: (t ++ '}' :: u) ++ [c] := by simp
          rw [whole, List.getLast?_concat] at closes
          cases closes
          have space := List.dropWhile_eq_nil_iff.mp blank '}' (by simp)
          cases space
      subst nothing
      exact ⟨t, rfl, ht⟩
    · cases read
  · cases read

/-- A block is found at its end, if nothing opens before it, and no part of it is. -/
theorem IsBlock.objectEnd?_eq {o p : Text} (h : IsBlock o) (hp : '{' ∉ p) (s : Text) :
    objectEnd? (p ++ o ++ s) 0 = some (p.length + o.length) := by
  have found := objectEnd?_append [] (p ++ (o ++ s))
  rw [h.firstObject?_eq hp s, List.nil_append, List.length_nil] at found
  rw [List.append_assoc]
  refine found.trans ?_
  simp only [Option.map_some, List.length_append]
  congr 1
  omega

theorem IsBlock.objectEnd?_prefix {o o' p : Text} (h : IsBlock o) (hp : '{' ∉ p)
    (cut : o' <+: o) (proper : o' ≠ o) : objectEnd? (p ++ o') 0 = none := by
  obtain ⟨x, rfl⟩ := cut
  have missing : firstObject? (p ++ o') = none := by
    rw [Option.eq_none_iff_forall_ne_some]
    rintro ⟨m, r⟩ found
    -- an object in the part would be the first one of the whole, with nothing left
    have whole := firstObject?_append found x
    have block := h.firstObject?_eq hp []
    rw [List.append_nil, ← List.append_assoc, whole] at block
    have rest : r ++ x = [] := (Prod.mk.inj (Option.some.inj block)).2
    exact proper (by rw [(List.append_eq_nil_iff.mp rest).2, List.append_nil])
  have found := objectEnd?_append [] (p ++ o')
  rw [missing] at found
  exact found

/-- **The scan of braces agrees with the grammar of JSON.** Wherever an accepted object stands, its
end is found and no end is found in a proper part of it; a stream of accepted objects with other
text around them gives exactly these, however it arrives and is taken. -/
theorem objects_found :
    (∀ o p : Text, IsObjectText o → '{' ∉ p →
      (∀ s, objectEnd? (p ++ o ++ s) 0 = some (p.length + o.length)) ∧
      ∀ o', o' <+: o → o' ≠ o → objectEnd? (p ++ o') 0 = none) ∧
    ∀ (p : Text) (parts : List (Text × Text)) (actions : List Action), '{' ∉ p →
      (∀ q ∈ parts, IsObjectText q.1 ∧ '{' ∉ q.2) →
      (History.run .json actions).fed = p ++ parts.flatMap (fun q => q.1 ++ q.2) →
      ((History.run .json actions).act .drain).taken = parts.map Prod.fst := by
  constructor
  · intro o p ho hp
    exact ⟨ho.isBlock.objectEnd?_eq hp, fun o' => ho.isBlock.objectEnd?_prefix hp⟩
  · intro p parts actions hp hparts hfed
    have kept := History.run_kept .json actions
    obtain ⟨gone, hgone, hbegins⟩ := (History.act_kept kept .drain).begins
    -- after a drain no object is pending, so all messages of the text have been taken
    have all := hbegins.segment_eq
    rw [segment_none (History.first?_drained kept), List.append_nil] at all
    have fed : ((History.run .json actions).act .drain).fed = (History.run .json actions).fed := rfl
    rw [← hgone, ← messages_blocks hp fun q hq => ⟨(hparts q hq).1.isBlock, (hparts q hq).2⟩,
      ← hfed, messages, ← fed, all]

/-- An object in an object, with braces, quotes and backslashes in its texts. -/
def tangledObject : Text :=
  "\x7b\"\x7d\": \"\\\"\x7b\\\\\", \"a\": \x7b\"b\": \"\\u007b\"\x7d\x7d".toList

theorem tangledObject_isObjectText : IsObjectText tangledObject := by
  have object : (Json.parse tangledObject).any Json.isObject = true := by decide +kernel
  refine ⟨?_, rfl, rfl⟩
  obtain ⟨j, read, isObject⟩ := (Option.any_eq_true _ _).mp object
  cases j with
  | obj fs => exact ⟨fs, read⟩
  | _ => cases isObject

theorem objects_found_tangled :
    objectEnd? ("ok \x7d ".toList ++ tangledObject ++ "\x7d \x7b".toList) 0 =
      some ("ok \x7d ".toList.length + tangledObject.length) ∧
    objectEnd? ("ok \x7d ".toList ++ tangledObject.take 12) 0 = none ∧
    ((History.run .json [.feed ("ok ".toList ++ tangledObject.take 12), .drain,
      .feed (tangledObject.drop 12 ++ "\n".toList), .take 1, .feed tangledObject]).act
        .drain).taken = [tangledObject, tangledObject] := by
  have accepted := tangledObject_isObjectText
  have found := objects_found.1 tangledObject "ok \x7d ".toList accepted (by decide)
  have streamed := objects_found.2 "ok ".toList
    [(tangledObject, "\n".toList), (tangledObject, [])]
    [.feed ("ok ".toList ++ tangledObject.take 12), .drain,
      .feed (tangledObject.drop 12 ++ "\n".toList), .take 1, .feed tangledObject]
  have parts : ∀ q ∈ [(tangledObject, "\n".toList), (tangledObject, [])],
      IsObjectText q.1 ∧ '{' ∉ q.2 := by
    simp only [List.forall_mem_cons]
    exact ⟨⟨accepted, by decide⟩, ⟨accepted, by decide⟩, nofun⟩
  refine ⟨found.1 _, found.2 _ (List.take_prefix 12 _) (by decide),
    streamed (by decide) parts ?_⟩
  have whole := List.take_append_drop 12 tangledObject
  generalize tangledObject.take 12 = begin at whole ⊢
  generalize tangledObject.drop 12 = rest at whole ⊢
  simp [History.run, History.act, History.took, History.start, ← whole]

end Drawbridge
