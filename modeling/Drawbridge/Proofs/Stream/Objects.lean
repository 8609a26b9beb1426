import Drawbridge.Proofs.Json.RoundTrip
import Drawbridge.Proofs.Stream.Segmentation
import Drawbridge.Proofs.Text.Cutting

/-!
Written objects as messages. Braces inside the texts of an object do not count, so an object is cut
out of a stream as it was written.

* `Passes`: a piece of text that the search for a closing brace passes over;
* `passes_renderFields`: the fields of an object are one;
* `messages_blocks`: blocks with other text between them are the messages of a stream, and
  `messages_objects` is the case of written objects.
-/

namespace Drawbridge

open Json (escapeChar renderString renderInit renderField renderFields)

/-! ## Passing over text -/

theorem takeString?_escapeChar (c : Char) (s : Text) : takeString? (escapeChar c ++ s) =
    (takeString? s).map fun (t, r) => (escapeChar c ++ t, r) := by
  have hex (n : Nat) (h : n < 16) (s : Text) : takeString? (Json.hexDigit n :: s) =
      (takeString? s).map fun (t, r) => (Json.hexDigit n :: t, r) := by
    have all : ∀ n < 16, Json.hexDigit n ≠ '"' ∧ Json.hexDigit n ≠ '\\' := by decide
    obtain ⟨hq, hb⟩ := all n h
    cases s <;> simp [takeString?, hq, hb]
  rcases Json.escapeChar_cases c with ⟨x, -, written, -⟩ | ⟨bound, written⟩ |
    ⟨written, quote, backslash, -⟩
  · simp [written, takeString?]
  · simp [written, takeString?, hex (c.toNat / 16) (by omega), hex (c.toNat % 16) (by omega),
      Function.comp_def]
  · cases s <;> simp [written, takeString?, quote, backslash]

theorem takeString?_escape (v s : Text) : takeString? (v.flatMap escapeChar ++ s) =
    (takeString? s).map fun (t, r) => (v.flatMap escapeChar ++ t, r) := by
  induction v with
  | nil => simp
  | cons c v ih =>
    rw [List.flatMap_cons, List.append_assoc, takeString?_escapeChar, ih, Option.map_map]
    simp [Function.comp_def]

/-- The search for a closing brace passes over a text. -/
def Passes (t : Text) : Prop :=
  ∀ depth s, takeBlock? depth (t ++ s) = (takeBlock? depth s).map fun (u, r) => (t ++ u, r)

theorem passes_nil : Passes [] := by
  intro depth s
  simp

theorem Passes.append {t u : Text} (ht : Passes t) (hu : Passes u) : Passes (t ++ u) := by
  intro depth s
  rw [List.append_assoc, ht, hu, Option.map_map]
  simp [Function.comp_def]

/-- Nothing but quotes and braces matters. -/
theorem passes_plain {t : Text} (h : ∀ c ∈ t, c ≠ '"' ∧ c ≠ '{' ∧ c ≠ '}') : Passes t := by
  induction t with
  | nil => exact passes_nil
  | cons c t ih =>
    have single : Passes [c] := by
      intro depth s
      obtain ⟨hq, ho, hc⟩ := h c List.mem_cons_self
      exact takeBlock?_plain hq ho hc depth s
    exact single.append (ih fun d hd => h d (List.mem_cons_of_mem c hd))

theorem passes_renderString (v : Text) : Passes (renderString v) := by
  intro depth s
  have whole : renderString v ++ s = '"' :: (v.flatMap escapeChar ++ '"' :: s) := by
    simp [renderString]
  have closed : takeString? (v.flatMap escapeChar ++ '"' :: s) =
      some (v.flatMap escapeChar ++ ['"'], s) := by
    rw [takeString?_escape]
    rfl
  rw [whole, takeBlock?_quote closed]
  simp [renderString]

theorem passes_render {j : Json} (h : j.isFlat = true) : Passes j.render := by
  cases j with
  | str v =>
    rw [Json.render]
    exact passes_renderString v
  | bool b =>
    apply passes_plain
    cases b <;> decide
  | null | int _ | float _ | arr _ | obj _ => cases h

theorem passes_renderField {f : Text × Json} (h : f.2.isFlat = true) : Passes (renderField f) := by
  have colon : Passes ": ".toList := passes_plain (by decide)
  exact (passes_renderString f.1).append (colon.append (passes_render h))

theorem passes_renderFields {fs : List (Text × Json)} (h : ∀ f ∈ fs, f.2.isFlat = true) :
    Passes (renderFields fs) := by
  have comma : Passes ", ".toList := passes_plain (by decide)
  have passes_init {gs : List (Text × Json)} (h : ∀ g ∈ gs, g.2.isFlat = true) :
      Passes (renderInit gs) := by
    induction gs with
    | nil => exact passes_nil
    | cons g gs ih =>
      rw [renderInit, List.flatMap_cons]
      exact ((passes_renderField (h g List.mem_cons_self)).append comma).append
        (ih fun f hf => h f (List.mem_cons_of_mem g hf))
  rcases List.eq_nil_or_concat fs with rfl | ⟨gs, f, rfl⟩
  · exact passes_nil
  · rw [List.concat_eq_append] at h ⊢
    rw [Json.renderFields_snoc]
    exact (passes_init fun g hg => h g (by simp [hg])).append (passes_renderField (h f (by simp)))

/-- A pair of braces around a piece that is passed over is passed over itself. -/
theorem Passes.braces {t : Text} (h : Passes t) : Passes ('{' :: (t ++ ['}'])) := by
  intro depth s
  have whole : '{' :: (t ++ ['}']) ++ s = '{' :: (t ++ '}' :: s) := by simp
  have opened : takeBlock? depth ('{' :: (t ++ '}' :: s)) =
      (takeBlock? (depth + 1) (t ++ '}' :: s)).map fun (u, r) => ('{' :: u, r) := by
    rw [takeBlock?.eq_def]
    rfl
  have closed : takeBlock? (depth + 1) ('}' :: s) =
      (takeBlock? depth s).map fun (u, r) => ('}' :: u, r) := by
    rw [takeBlock?.eq_def]
    rfl
  rw [whole, opened, h, closed, Option.map_map, Option.map_map]
  simp [Function.comp_def]

/-! ## Objects in a stream -/

/-- A text in braces, of which the inside is passed over. -/
def IsBlock (o : Text) : Prop :=
  ∃ t, o = '{' :: (t ++ ['}']) ∧ Passes t

/-- A block is the first object, if none opens before it. -/
theorem IsBlock.firstObject?_eq {o p : Text} (h : IsBlock o) (hp : '{' ∉ p) (r : Text) :
    firstObject? (p ++ (o ++ r)) = some (o, r) := by
  obtain ⟨t, rfl, ht⟩ := h
  have whole : p ++ ('{' :: (t ++ ['}']) ++ r) = p ++ '{' :: (t ++ '}' :: r) := by simp
  have closed : takeBlock? 0 ('}' :: r) = some (['}'], r) := by
    rw [takeBlock?]
    rfl
  rw [whole, firstObject?_append_cons hp, ht, closed]
  rfl

/-- **Blocks with other text between them are the messages of the stream.** -/
theorem messages_blocks {p : Text} (hp : '{' ∉ p) {parts : List (Text × Text)}
    (h : ∀ q ∈ parts, IsBlock q.1 ∧ '{' ∉ q.2) :
    messages .json (p ++ parts.flatMap fun q => q.1 ++ q.2) = parts.map Prod.fst := by
  have every : (segment .json (p ++ parts.flatMap fun q => q.1 ++ q.2)).1 =
      parts.map Prod.fst := by
    induction parts generalizing p with
    | nil =>
      have nothing : first? .json (p ++ []) = none := by
        rw [List.append_nil]
        exact firstObject?_of_not_mem hp
      rw [List.flatMap_nil, segment_none nothing]
      rfl
    | cons q parts ih =>
      obtain ⟨block, after⟩ := h q List.mem_cons_self
      have first : first? .json (p ++ (q :: parts).flatMap fun q => q.1 ++ q.2) =
          some (q.1, q.2 ++ parts.flatMap fun q => q.1 ++ q.2) := by
        rw [List.flatMap_cons, List.append_assoc]
        exact block.firstObject?_eq hp _
      rw [segment_some first, ih after fun q' hq => h q' (List.mem_cons_of_mem q hq)]
      rfl
  rw [messages, every]
  exact List.filter_eq_self.mpr fun _ _ => rfl

/-- **Objects with a separator after each of them are the messages of the stream.** -/
theorem messages_objects {sep : Text} (hsep : '{' ∉ sep) {fss : List (List (Text × Json))}
    (h : ∀ fs ∈ fss, ∀ f ∈ fs, f.2.isFlat = true) :
    messages .json (fss.flatMap fun fs => (Json.obj fs).render ++ sep) =
      fss.map fun fs => (Json.obj fs).render := by
  have blocks : ∀ q ∈ fss.map fun fs => ((Json.obj fs).render, sep),
      IsBlock q.1 ∧ '{' ∉ q.2 := by
    intro q hq
    obtain ⟨fs, hfs, rfl⟩ := List.mem_map.mp hq
    exact ⟨⟨renderFields fs, by rw [Json.render], passes_renderFields (h fs hfs)⟩, hsep⟩
  have found := messages_blocks (p := []) List.not_mem_nil blocks
  rw [List.nil_append, List.flatMap_map, List.map_map] at found
  exact found

end Drawbridge
