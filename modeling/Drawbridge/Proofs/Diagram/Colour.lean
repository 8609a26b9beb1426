import Drawbridge.Proofs.Diagram.Line
import Drawbridge.Proofs.Graph.Styles

/-!
Plain colours as they are written. They have no brackets, so they are not read as components
(`paren_mem_of_readRgb?`), and are written as they are (`colourOf_plain`).
-/

namespace Drawbridge

theorem afterLetter?_suffix {c : Char} {s r : Text} (h : afterLetter? c s = some r) : r <:+ s := by
  unfold afterLetter? at h
  split at h
  · rename_i d s
    split at h
    · cases h
      exact List.suffix_cons d r
    · cases h
  · cases h

theorem paren_mem_of_readRgb? {s : Text} {c : RgbText} (h : readRgb? s = some c) : '(' ∈ s := by
  unfold readRgb? at h
  obtain ⟨r, hr, h⟩ := Option.bind_eq_some_iff.mp h
  obtain ⟨r₁, hr₁, hr⟩ := Option.bind_eq_some_iff.mp hr
  obtain ⟨r₂, hr₂, hr₃⟩ := Option.bind_eq_some_iff.mp hr
  have letters : r <:+ s :=
    ((afterLetter?_suffix hr₃).trans (afterLetter?_suffix hr₂)).trans (afterLetter?_suffix hr₁)
  have opacity : (afterLetter? 'a' r).getD r <:+ r := by
    cases ha : afterLetter? 'a' r with
    | none => exact List.suffix_rfl
    | some r' => exact afterLetter?_suffix ha
  obtain ⟨r₃, hopen, -⟩ := Option.bind_eq_some_iff.mp h
  cases hr' : (afterLetter? 'a' r).getD r with
  | nil =>
    rw [hr'] at hopen
    cases hopen
  | cons d t =>
    rw [hr'] at hopen opacity
    rw [afterPrefix?] at hopen
    split at hopen
    · rename_i hd
      subst hd
      exact letters.subset (opacity.subset List.mem_cons_self)
    · cases hopen

theorem colourText_plain {s : Text} (h : ∀ c ∈ s, isColourChar c = true) :
    colourText s = .ok s := by
  have unbracketed : readRgb? (strip s) = none := by
    cases hr : readRgb? (strip s) with
    | none => rfl
    | some c =>
      have hm := (strip_isInfix s).subset (paren_mem_of_readRgb? hr)
      exact absurd (h _ hm) (by decide)
  have kept : (s.map fun c => if c = ',' then ' ' else c) = s := by
    apply map_eq_self
    intro c hc
    exact if_neg (ne_of_class (h c hc) (by decide))
  rw [colourText, unbracketed, kept]

def colourName (j : Json) : Text :=
  j.text?.getD []

theorem colourOf_plain {j : Json} (h : IsColour j) : colourOf j = .ok (colourName j) := by
  obtain ⟨s, rfl, -, plain⟩ := h
  exact colourText_plain plain

theorem isInline_colourName {j : Json} (h : IsColour j) : IsInline (colourName j) := by
  obtain ⟨s, rfl, -, plain⟩ := h
  exact isInline_of_class (fun _ => not_blank_of_isColourChar) (by decide) (by decide) plain

end Drawbridge
