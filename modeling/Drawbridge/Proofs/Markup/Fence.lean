import Drawbridge.Markup.Fence
import Drawbridge.Proofs.Text.Blank

/-!
Taking code out of its fence. Without three backticks in a row a text has no fence
(`unfence_eq_self`), and the body of a block has none (`not_ticks_of_beforeTicks?`), so there is
nothing to be taken out twice (`unfence_unfence`).
-/

namespace Drawbridge

def ticks : Text := ['\x60', '\x60', '\x60']

theorem afterTicks?_eq_some {s r : Text} : afterTicks? s = some r ↔ s = ticks ++ r := by
  unfold afterTicks?
  split
  · simp [ticks]
  · rename_i h
    constructor
    · intro h'
      cases h'
    · intro hs
      exact (h r hs).elim

theorem afterTicks?_of_prefix {s : Text} (h : ticks <+: s) : ∃ r, afterTicks? s = some r := by
  obtain ⟨r, rfl⟩ := h
  exact ⟨r, afterTicks?_eq_some.mpr rfl⟩

theorem ticks_of_findOpening? {start : Bool} {s body : Text}
    (h : findOpening? start s = some body) : ticks <:+: s := by
  induction s generalizing start with
  | nil => cases h
  | cons c s ih =>
    rw [findOpening?] at h
    split at h
    · rename_i opened
      split at opened
      · unfold afterOpening? at opened
        split at opened
        · cases opened
        · rename_i r hr
          have whole := List.dropWhile_suffix (fun c => c = ' ' || c = '\t') (l := c :: s)
          rw [afterTicks?_eq_some.mp hr] at whole
          exact (List.prefix_append ticks r).isInfix.trans whole.isInfix
      · cases opened
    · exact (ih h).trans (List.suffix_cons c s).isInfix

theorem prefix_of_beforeTicks? {s b : Text} (h : beforeTicks? s = some b) : b <+: s := by
  induction s generalizing b with
  | nil => cases h
  | cons c s ih =>
    rw [beforeTicks?] at h
    split at h
    · cases h
      exact List.nil_prefix
    · obtain ⟨b', hb', rfl⟩ := Option.map_eq_some_iff.mp h
      exact List.cons_prefix_cons.mpr ⟨rfl, ih hb'⟩

theorem not_ticks_of_beforeTicks? {s b : Text} (h : beforeTicks? s = some b) :
    ¬ ticks <:+: b := by
  induction s generalizing b with
  | nil => cases h
  | cons c s ih =>
    have whole := prefix_of_beforeTicks? h
    rw [beforeTicks?] at h
    split at h
    · cases h
      decide
    · rename_i none_here
      obtain ⟨b', hb', rfl⟩ := Option.map_eq_some_iff.mp h
      intro hi
      rcases List.infix_cons_iff.mp hi with hp | hi
      · obtain ⟨r, hr⟩ := afterTicks?_of_prefix (hp.trans whole)
        rw [none_here] at hr
        cases hr
      · exact ih hb' hi

theorem unfence_eq_self {s : Text} (h : ¬ ticks <:+: s) : unfence s = s := by
  have unopened : findOpening? true s = none := by
    cases ho : findOpening? true s with
    | none => rfl
    | some body => exact (h (ticks_of_findOpening? ho)).elim
  rw [unfence, unopened]
  rfl

/-- **Code without its fence has none to be taken out of.** -/
theorem unfence_unfence (s : Text) : unfence (unfence s) = unfence s := by
  rcases hb : (findOpening? true s).bind beforeTicks? with _ | body
  · have whole : unfence s = s := by rw [unfence, hb]
    rw [whole, whole]
  · have stripped : unfence s = strip body := by rw [unfence, hb]
    obtain ⟨rest, -, hbody⟩ := Option.bind_eq_some_iff.mp hb
    rw [stripped]
    apply unfence_eq_self
    intro hi
    exact not_ticks_of_beforeTicks? hbody (hi.trans (strip_isInfix body))

end Drawbridge
