import Drawbridge.Canvas
import Drawbridge.Proofs.Graph.Reading
import Drawbridge.Proofs.Markup.Erasure

/-!
Preparing a text twice. Where a piece is dropped (`DropsAt`), what stands before it and what stands
behind it come together, and may form a piece that nobody drops (`Meets`).

* `infix_erase_cases`: what is found in a text after the dropping stood in it before, at a place
  where nothing is dropped, or has come together;
* `not_ticks_erase_fence`: no fence comes together where fences are dropped;
* `isUnmarked_unmarked_iff`: so a fence or a tag is left just if one comes together where a tag is
  dropped (`Rejoins`);
* `prepareForRendering_eq_self_iff`: just the trimmed texts without fences and tags are left alone;
* `preparation_settles_iff`: all of this, and what it means for a canvas, which prepares twice.
-/

namespace Drawbridge

/-! ## Where pieces are dropped -/

section Erase

variable {size : Text → Nat} {s w : Text}

theorem eraseFrom_eq_erase (size : Text → Nat) (k : Nat) (s : Text) :
    eraseFrom size k s = erase size (s.drop k) := by
  induction k generalizing s with
  | zero => rfl
  | succ k ih =>
    cases s with
    | nil => rfl
    | cons c s => exact ih s

theorem erase_keep {c : Char} (h : size (c :: s) = 0) :
    erase size (c :: s) = c :: erase size s := by
  simp only [erase, eraseFrom, h]

theorem erase_drop {n : Nat} (h : size s = n + 1) : erase size s = erase size (s.drop (n + 1)) := by
  cases s with
  | nil => rfl
  | cons c s =>
    rw [List.drop_succ_cons, ← eraseFrom_eq_erase]
    simp only [erase, eraseFrom, h]

/-- Just a text in which no piece begins is left as it is. -/
theorem erase_eq_self_iff : erase size s = s ↔ ∀ u, u <:+ s → u ≠ [] → size u = 0 := by
  refine ⟨fun h => ?_, erase_eq_self⟩
  induction s with
  | nil => exact fun u hu hne => (hne (List.suffix_nil.mp hu)).elim
  | cons c s ih =>
    cases here : size (c :: s) with
    | zero =>
      rw [erase_keep here] at h
      intro u hu hne
      rcases List.suffix_cons_iff.mp hu with rfl | hu
      · exact here
      · exact ih (List.cons.inj h).2 u hu hne
    | succ n =>
      rw [erase_drop here, List.drop_succ_cons] at h
      have shorter := (eraseFrom_sublist size 0 (s.drop n)).length_le
      rw [show eraseFrom size 0 (s.drop n) = c :: s from h, List.length_drop,
        List.length_cons] at shorter
      omega

/-- In a text a piece is dropped, with `kept` left of what is before it and `rest` behind it. -/
inductive DropsAt (size : Text → Nat) : Text → Text → Text → Prop
  | here {s : Text} {n : Nat} : size s = n + 1 → DropsAt size s [] (s.drop (n + 1))
  | keep {c : Char} {s kept rest : Text} : size (c :: s) = 0 → DropsAt size s kept rest →
      DropsAt size (c :: s) (c :: kept) rest
  | past {s kept rest : Text} {n : Nat} : size s = n + 1 →
      DropsAt size (s.drop (n + 1)) kept rest → DropsAt size s kept rest

/-- The text comes together where a piece is dropped: it begins before it and ends behind it. -/
def Meets (size : Text → Nat) (s w : Text) : Prop :=
  ∃ kept rest a b, DropsAt size s kept rest ∧ a ≠ [] ∧ b ≠ [] ∧ w = a ++ b ∧ a <:+ kept ∧
    b <+: erase size rest

theorem DropsAt.erase_eq {kept rest : Text} (h : DropsAt size s kept rest) :
    erase size s = kept ++ erase size rest := by
  induction h with
  | here hs => exact erase_drop hs
  | keep hs _ ih => rw [erase_keep hs, ih, List.cons_append]
  | past hs _ ih => rw [erase_drop hs, ih]

/-- Where nothing has been kept yet, a piece begins. -/
theorem DropsAt.size_ne_zero {rest : Text} (h : DropsAt size s [] rest) : size s ≠ 0 := by
  cases h with
  | here hs => simp [hs]
  | past hs _ => simp [hs]

theorem Meets.isInfix (h : Meets size s w) : w <:+: erase size s := by
  obtain ⟨kept, rest, a, b, drops, -, -, rfl, ⟨p, hp⟩, ⟨q, hq⟩⟩ := h
  exact ⟨p, q, by rw [drops.erase_eq, ← hp, ← hq]; simp⟩

theorem Meets.keep {c : Char} (hs : size (c :: s) = 0) (h : Meets size s w) :
    Meets size (c :: s) w := by
  obtain ⟨kept, rest, a, b, drops, ha, hb, same, before, behind⟩ := h
  exact ⟨c :: kept, rest, a, b, .keep hs drops, ha, hb, same,
    before.trans (List.suffix_cons c kept), behind⟩

theorem Meets.past {n : Nat} (hs : size s = n + 1) (h : Meets size (s.drop (n + 1)) w) :
    Meets size s w := by
  obtain ⟨kept, rest, a, b, drops, found⟩ := h
  exact ⟨kept, rest, a, b, .past hs drops, found⟩

/-- What is left begins as the text does, up to the first piece that is dropped. -/
theorem prefix_erase_cases (hw : w <+: erase size s) (hne : w ≠ []) (first : size s = 0) :
    w <+: s ∨ Meets size s w := by
  suffices whole : w <+: s ∨ ∃ kept rest b, DropsAt size s kept rest ∧ kept ≠ [] ∧ b ≠ [] ∧
      w = kept ++ b ∧ b <+: erase size rest by
    rcases whole with whole | ⟨kept, rest, b, drops, hk, hb, same, behind⟩
    · exact .inl whole
    · exact .inr ⟨kept, rest, kept, b, drops, hk, hb, same, List.suffix_rfl, behind⟩
  induction s generalizing w with
  | nil => exact (hne (List.prefix_nil.mp hw)).elim
  | cons c s ih =>
    rw [erase_keep first] at hw
    obtain ⟨d, v, rfl⟩ := List.exists_cons_of_ne_nil hne
    obtain ⟨rfl, hv⟩ := List.cons_prefix_cons.mp hw
    by_cases one : v = []
    · exact .inl (List.cons_prefix_cons.mpr ⟨rfl, one ▸ List.nil_prefix⟩)
    cases next : size s with
    | zero =>
      rcases ih hv one next with inside | ⟨kept, rest, b, drops, -, hb, rfl, behind⟩
      · exact .inl (List.cons_prefix_cons.mpr ⟨rfl, inside⟩)
      · exact .inr ⟨d :: kept, rest, b, .keep first drops, List.cons_ne_nil d kept, hb, rfl, behind⟩
    | succ n =>
      rw [erase_drop next] at hv
      exact .inr ⟨[d], _, v, .keep first (.here next), List.cons_ne_nil d [], one, rfl, hv⟩

/-- **What is found after the dropping stood there before or has come together.** -/
theorem infix_erase_cases (hw : w <:+: erase size s) (hne : w ≠ []) :
    (∃ u, u <:+ s ∧ w <+: u ∧ size u = 0) ∨ Meets size s w := by
  induction hn : s.length using Nat.strongRecOn generalizing s with
  | ind n ih =>
    cases s with
    | nil => exact (hne (List.infix_nil.mp hw)).elim
    | cons c s =>
      rw [List.length_cons] at hn
      cases here : size (c :: s) with
      | zero =>
        rw [erase_keep here] at hw
        rcases List.infix_cons_iff.mp hw with hp | hw
        · rw [← erase_keep here] at hp
          exact (prefix_erase_cases hp hne here).imp_left fun hp => ⟨_, List.suffix_rfl, hp, here⟩
        · rcases ih s.length (by omega) hw rfl with ⟨u, hu, found⟩ | meets
          · exact .inl ⟨u, hu.trans (List.suffix_cons c s), found⟩
          · exact .inr (meets.keep here)
      | succ k =>
        rw [erase_drop here, List.drop_succ_cons] at hw
        have shorter : (s.drop k).length < n := by
          rw [List.length_drop]
          omega
        rcases ih _ shorter hw rfl with ⟨u, hu, found⟩ | meets
        · exact .inl ⟨u, (hu.trans (List.drop_suffix k s)).trans (List.suffix_cons c s), found⟩
        · exact .inr (Meets.past here meets)

end Erase

/-! ## Fences -/

/-- Before a fence that is dropped no backtick is kept, or the fence would have begun with it. -/
theorem DropsAt.last_ne_tick {s kept rest : Text} (h : DropsAt fenceSize s kept rest) :
    ∀ c ∈ kept.getLast?, c ≠ '\x60' := by
  induction h with
  | here => nofun
  | @keep d s kept rest hs drops ih =>
    cases kept with
    | cons e kept =>
      intro c hc
      exact ih c (by rwa [List.getLast?_cons_cons] at hc)
    | nil =>
      rintro c hc rfl
      cases hc
      have behind := fenceSize_ne_zero_iff.mp drops.size_ne_zero
      have begins : ticks <+: '\x60' :: s := by
        obtain ⟨r, rfl⟩ := behind
        exact ⟨'\x60' :: r, rfl⟩
      exact fenceSize_ne_zero_iff.mpr begins hs
  | past _ _ ih => exact ih

/-- **No fence is left where fences are dropped**, nor does one come together. -/
theorem not_ticks_erase_fence (s : Text) : ¬ ticks <:+: erase fenceSize s := by
  intro h
  rcases infix_erase_cases h (by decide) with ⟨u, -, begins, still⟩ | ⟨kept, rest, a, b, found⟩
  · exact fenceSize_ne_zero_iff.mpr begins still
  · obtain ⟨drops, ha, -, same, before, -⟩ := found
    have backticks : ∀ c ∈ ticks, c = '\x60' := by decide
    have last : a.getLast ha ∈ kept.getLast? := by
      obtain ⟨p, rfl⟩ := before
      rw [List.getLast?_append_of_ne_nil p ha]
      exact List.getLast_mem_getLast? ha
    refine drops.last_ne_tick _ last (backticks _ ?_)
    rw [same]
    exact List.mem_append_left b (List.getLast_mem ha)

/-! ## Texts without fences and tags -/

/-- Once fences are dropped, a fence or a tag comes together where a tag is dropped. -/
def Rejoins (s : Text) : Prop :=
  ∃ w, (w = ticks ∨ IsBreakTag w) ∧ Meets breakTagSize (erase fenceSize s) w

theorem isUnmarked_unmarked_iff (s : Text) : IsUnmarked (unmarked s) ↔ ¬ Rejoins s := by
  constructor
  · rintro bare ⟨w, rfl | tag, meets⟩
    · exact bare.fence meets.isInfix
    · exact bare.tag w tag meets.isInfix
  · intro apart
    constructor
    · intro h
      rcases infix_erase_cases h (by decide) with ⟨u, hu, begins, -⟩ | meets
      · exact not_ticks_erase_fence s (begins.isInfix.trans hu.isInfix)
      · exact apart ⟨ticks, .inl rfl, meets⟩
    · intro w tag h
      rcases infix_erase_cases h (foreign_of_isBreakTag tag).1 with ⟨u, -, begins, still⟩ | meets
      · exact breakTagSize_ne_zero_iff.mpr ⟨w, tag, begins⟩ still
      · exact apart ⟨w, .inr tag, meets⟩

theorem isUnmarked_strip_iff (t : Text) : IsUnmarked (strip t) ↔ IsUnmarked t := by
  have fence : ticks <:+: strip t ↔ ticks <:+: t := by
    apply isInfix_strip_iff
    all_goals
      intro c hc
      cases hc
      decide
  have tag : ∀ w, IsBreakTag w → (w <:+: strip t ↔ w <:+: t) := by
    rintro w ⟨b, r, gap, close, -, -, -, hclose, rfl⟩
    apply isInfix_strip_iff
    · intro c hc
      cases hc
      decide
    · have last : ∃ x, '<' :: b :: r :: (gap ++ close) = x ++ ['>'] := by
        rcases hclose with rfl | rfl
        · exact ⟨'<' :: b :: r :: gap, rfl⟩
        · exact ⟨'<' :: b :: r :: (gap ++ ['/']), by simp⟩
      obtain ⟨x, hx⟩ := last
      intro c hc
      rw [hx, List.getLast?_concat] at hc
      cases hc
      decide
  exact ⟨fun h => ⟨mt fence.mpr h.fence, fun w hw => mt (tag w hw).mpr (h.tag w hw)⟩,
    fun h => ⟨mt fence.mp h.fence, fun w hw => mt (tag w hw).mp (h.tag w hw)⟩⟩

/-- **Just the trimmed texts without fences and tags are left alone.** -/
theorem prepareForRendering_eq_self_iff {t : Text} :
    prepareForRendering t = t ↔ strip t = t ∧ IsUnmarked t := by
  constructor
  · intro h
    have tagless : (erase breakTagSize (erase fenceSize t)).Sublist (erase fenceSize t) :=
      eraseFrom_sublist _ _ _
    have fenceless : (erase fenceSize t).Sublist t := eraseFrom_sublist _ _ _
    have trimmed : t.length ≤ (unmarked t).length := by
      calc t.length = (strip (unmarked t)).length := by rw [← prepareForRendering_unmarked, h]
        _ ≤ (unmarked t).length := (strip_isInfix _).length_le
    have noFence : erase fenceSize t = t :=
      fenceless.eq_of_length_le (trimmed.trans tagless.length_le)
    have noTag : erase breakTagSize t = t := by
      rw [unmarked, noFence] at trimmed
      rw [noFence] at tagless
      exact tagless.eq_of_length_le trimmed
    refine ⟨?_, ?_, ?_⟩
    · rwa [prepareForRendering, noFence, noTag] at h
    · rw [← noFence]
      exact not_ticks_erase_fence t
    · rintro w tag ⟨p, q, rfl⟩
      have begins : w ++ q <:+ p ++ w ++ q := ⟨p, by simp⟩
      refine breakTagSize_ne_zero_iff.mpr ⟨w, tag, List.prefix_append w q⟩
        (erase_eq_self_iff.mp noTag _ begins ?_)
      exact List.append_ne_nil_of_left_ne_nil (foreign_of_isBreakTag tag).1 q
  · rintro ⟨trimmed, bare⟩
    rw [prepareForRendering_unmarked, bare.unmarked_eq, trimmed]

/-! ## On a canvas -/

/-- A renderer prepares its text, so one that has been prepared is rendered alike if that changes
nothing any more. -/
theorem renderDiagram_prepared {s : Text}
    (settled : prepareForRendering (prepareForRendering s) = prepareForRendering s) :
    renderDiagram (prepareForRendering s) = renderDiagram s := by
  rw [renderDiagram, readDiagram, settled]
  rfl

theorem prepareForRendering_ne_nil {s : Text} {r : Rendering} (h : renderDiagram s = .ok r) :
    prepareForRendering s ≠ [] := by
  intro empty
  rw [renderDiagram, readDiagram, empty] at h
  cases h

/-- A canvas shows what the renderer makes of the text itself. -/
theorem load_standardRenderer {s : Text} {r : Rendering} (rendered : renderDiagram s = .ok r)
    (settled : prepareForRendering (prepareForRendering s) = prepareForRendering s) (c : Canvas) :
    c.load standardRenderer s = (.ok r,
      { code := s, elements := r.elements, files := r.files, groupLabels := r.groupLabels }) := by
  have prepared : standardRenderer (prepareForRendering s) = .ok r := by
    rw [standardRenderer, renderDiagram_prepared settled, rendered]
    rfl
  unfold Canvas.load
  dsimp only
  rw [if_neg (prepareForRendering_ne_nil rendered), prepared]

/--
**When one preparation is enough.** A prepared text is trimmed. It is without fences and tags, and
is left alone by a second preparation, just if no fence and no tag comes together where a tag is
dropped; a canvas, which prepares a text before its renderer does so again, then shows what the
renderer makes of the text.
-/
theorem preparation_settles_iff (s : Text) :
    strip (prepareForRendering s) = prepareForRendering s ∧
    (IsUnmarked (prepareForRendering s) ↔ ¬ Rejoins s) ∧
    (prepareForRendering (prepareForRendering s) = prepareForRendering s ↔ ¬ Rejoins s) ∧
    (¬ Rejoins s → ∀ (c : Canvas) (r : Rendering), renderDiagram s = .ok r →
      c.load standardRenderer s = (.ok r,
        { code := s, elements := r.elements, files := r.files, groupLabels := r.groupLabels })) := by
  have trimmed : strip (prepareForRendering s) = prepareForRendering s := strip_strip _
  have bare : IsUnmarked (prepareForRendering s) ↔ ¬ Rejoins s := by
    rw [prepareForRendering_unmarked, isUnmarked_strip_iff, isUnmarked_unmarked_iff]
  have settled : prepareForRendering (prepareForRendering s) = prepareForRendering s ↔
      ¬ Rejoins s := by
    rw [prepareForRendering_eq_self_iff, and_iff_right trimmed, bare]
  exact ⟨trimmed, bare, settled,
    fun apart c r rendered => load_standardRenderer rendered (settled.mpr apart) c⟩

/-- A fenced diagram with tags in its labels. -/
def taggedText : Text :=
  "\x60\x60\x60mermaid\nflowchart TD\nsubgraph g[a<BR />b]\nA[x<br>\x60y]\nend\n\x60\x60\x60".toList

theorem preparation_settles_iff_taggedText : ¬ Rejoins taggedText ∧
    ∃ r, renderDiagram taggedText = .ok r ∧ r.groupLabels = [("group-1".toList, "ab".toList)] ∧
      (Canvas.load standardRenderer {} taggedText).2.elements = r.elements := by
  obtain ⟨-, -, settled, loaded⟩ := preparation_settles_iff taggedText
  have apart : ¬ Rejoins taggedText := settled.mp (by decide +kernel)
  have labels : (renderDiagram taggedText).toOption.map Rendering.groupLabels =
      some [("group-1".toList, "ab".toList)] := by
    decide +kernel
  obtain ⟨r, hr, shown⟩ := Option.map_eq_some_iff.mp labels
  have rendered : renderDiagram taggedText = .ok r := eq_ok_of_toOption hr
  exact ⟨apart, r, rendered, shown, by rw [loaded apart {} r rendered]⟩

/-- A fence stands on both sides of a tag, in the title of a group. -/
def splitFence : Text :=
  "flowchart TD\nsubgraph g[\x60<br>\x60\x60]\nA\nend".toList

/-- **A fence that comes together.** It is left where a tag was dropped, and a second preparation
drops it: the canvas shows another title than the renderer. A tag comes together in the same way. -/
theorem fence_rejoined :
    ticks <:+: prepareForRendering splitFence ∧
    prepareForRendering (prepareForRendering splitFence) ≠ prepareForRendering splitFence ∧
    (renderDiagram splitFence).toOption.map Rendering.groupLabels =
      some [("group-1".toList, ticks)] ∧
    (Canvas.load standardRenderer {} splitFence).2.groupLabels =
      [("group-1".toList, "g".toList)] ∧
    prepareForRendering "<<br>br>".toList = "<br>".toList := by
  refine ⟨?_, ?_, ?_, ?_, ?_⟩ <;> decide +kernel

end Drawbridge
