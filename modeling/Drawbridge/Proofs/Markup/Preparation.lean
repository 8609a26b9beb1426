import Drawbridge.Proofs.Diagram.Label
import Drawbridge.Proofs.Markup.Fence

/-!
What `prepareForRendering` leaves alone. A text is prepared (`IsPrepared`) if no fence and no
line-break tag begins in it, whatever follows; prepared texts put together are prepared, and a
written label is prepared if the label is writable (`isPrepared_quoteLabel`).

* `fenceSize_ne_zero_iff`, `breakTagSize_ne_zero_iff`: what counts as a fence or a tag;
* `prepareForRendering_eq`: a prepared text is trimmed and nothing else.
-/

namespace Drawbridge

/-! ## Fences and tags -/

theorem fenceSize_ne_zero_iff {s : Text} : fenceSize s ≠ 0 ↔ ticks <+: s := by
  constructor
  · intro h
    unfold fenceSize at h
    split at h
    · rename_i r hr
      rw [afterTicks?_eq_some.mp hr]
      exact List.prefix_append ticks r
    · exact (h rfl).elim
  · intro h
    obtain ⟨r, hr⟩ := afterTicks?_of_prefix h
    simp [fenceSize, hr]

/-- A line-break tag: in either case, with blanks before its end, closed in itself or not. -/
def IsBreakTag (t : Text) : Prop :=
  ∃ b r gap close, (b = 'b' ∨ b = 'B') ∧ (r = 'r' ∨ r = 'R') ∧ (∀ c ∈ gap, isBlank c = true) ∧
    (close = ['>'] ∨ close = ['/', '>']) ∧ t = '<' :: b :: r :: (gap ++ close)

theorem exists_tag_of_breakTagSize {s : Text} (h : breakTagSize s ≠ 0) :
    ∃ t, IsBreakTag t ∧ t <+: s := by
  unfold breakTagSize at h
  split at h
  · rename_i b r s
    split at h
    · rename_i name
      simp only [Bool.and_eq_true, Bool.or_eq_true, decide_eq_true_eq] at name
      have cut := List.takeWhile_append_dropWhile (p := isBlank) (l := s)
      have gap : ∀ c ∈ s.takeWhile isBlank, isBlank c = true :=
        fun c hc => List.mem_takeWhile_imp hc
      dsimp only at h
      split at h
      · rename_i rest hd
        refine ⟨_, ⟨b, r, _, ['>'], name.1, name.2, gap, .inl rfl, rfl⟩, rest, ?_⟩
        rw [hd] at cut
        simp [cut]
      · rename_i rest hd
        refine ⟨_, ⟨b, r, _, ['/', '>'], name.1, name.2, gap, .inr rfl, rfl⟩, rest, ?_⟩
        rw [hd] at cut
        simp [cut]
      · exact (h rfl).elim
    · exact (h rfl).elim
  · exact (h rfl).elim

theorem breakTagSize_ne_zero_iff {s : Text} : breakTagSize s ≠ 0 ↔ ∃ t, IsBreakTag t ∧ t <+: s := by
  refine ⟨exists_tag_of_breakTagSize, ?_⟩
  rintro ⟨t, ⟨b, r, gap, close, hb, hr, hgap, hclose, rfl⟩, rest, rfl⟩
  have name : ((b = 'b' || b = 'B') && (r = 'r' || r = 'R')) = true := by simp [hb, hr]
  rcases hclose with rfl | rfl
  · simp [breakTagSize, name, dropWhile_piece hgap (show isBlank '>' = false by decide) rest]
  · simp [breakTagSize, name,
      dropWhile_piece hgap (show isBlank '/' = false by decide) ('>' :: rest)]

/-! ## Texts without pieces to drop -/

theorem erase_eq_self {size : Text → Nat} {s : Text} (h : ∀ u, u <:+ s → u ≠ [] → size u = 0) :
    erase size s = s := by
  unfold erase
  induction s with
  | nil => rfl
  | cons c s ih =>
    have first := h (c :: s) List.suffix_rfl (List.cons_ne_nil c s)
    have rest := ih fun u hu => h u (hu.trans (List.suffix_cons c s))
    simp only [eraseFrom, first, rest]

/-- No piece that `size` recognises begins in the text, whatever follows it. -/
def Inert (size : Text → Nat) (p : Text) : Prop :=
  ∀ u r, u <:+ p → u ≠ [] → size (u ++ r) = 0

namespace Inert

variable {size : Text → Nat} {p q : Text}

theorem erase_eq (h : Inert size p) : erase size p = p :=
  erase_eq_self fun u hu hne => by simpa using h u [] hu hne

theorem append (hp : Inert size p) (hq : Inert size q) : Inert size (p ++ q) := by
  intro u r hu hne
  obtain ⟨t, ht⟩ := hu
  rcases List.append_eq_append_iff.mp ht with ⟨v, hv, rfl⟩ | ⟨v, -, hv⟩
  · by_cases hempty : v = []
    · subst hempty
      exact hq _ r List.suffix_rfl hne
    · rw [List.append_assoc]
      exact hp v (q ++ r) ⟨t, hv.symm⟩ hempty
  · exact hq u r ⟨v, hv.symm⟩ hne

theorem cons {c : Char} (first : ∀ r, size (c :: (p ++ r)) = 0) (rest : Inert size p) :
    Inert size (c :: p) := by
  intro u r hu hne
  rcases List.suffix_cons_iff.mp hu with rfl | hu
  · exact first r
  · exact rest u r hu hne

theorem of_not_mem {k : Char} (first : ∀ c s, c ≠ k → size (c :: s) = 0) (h : k ∉ p) :
    Inert size p := by
  intro u r hu hne
  obtain ⟨c, u, rfl⟩ := List.exists_cons_of_ne_nil hne
  apply first
  rintro rfl
  exact h (hu.subset List.mem_cons_self)

end Inert

/--
A quoted label is inert if none of the pieces occurs in the label: pieces share no character with
quotes and entities, so that none reaches beyond the label.
-/
theorem inert_quoted {size : Text → Nat} {P : Text → Prop}
    (found : ∀ s, size s ≠ 0 → ∃ t, P t ∧ t <+: s)
    (foreign : ∀ t, P t → t ≠ [] ∧ ∀ c ∈ t, c ∉ '"' :: quoteEntity) {l : Text}
    (h : ∀ t, P t → ¬ t <:+: l) : Inert size (quoted l) := by
  intro u r hu hne
  by_contra hs
  obtain ⟨t, ht, hp⟩ := found _ hs
  obtain ⟨tne, tf⟩ := foreign t ht
  rw [quoted, ← List.cons_append] at hu
  rcases List.suffix_concat_iff.mp hu with hu | ⟨v, hu, hv⟩
  · exact hne hu
  · rw [hu, List.append_assoc, List.singleton_append] at hp
    have before := isPrefix_of_isPrefix_append_cons (fun hm => tf _ hm List.mem_cons_self) hp
    have inside : t <:+: ['"'] ++ escapeQuotes l := before.isInfix.trans hv.isInfix
    have escaped := isInfix_of_isInfix_append tne
      (fun c hc hm => tf c hc (List.mem_singleton.mp hm ▸ List.mem_cons_self)) inside
    exact h t ht (isInfix_of_isInfix_escapeQuotes tne
      (fun c hc hm => tf c hc (List.mem_cons_of_mem _ hm)) escaped)

/-! ## Writable labels -/

/-- A label that can be written and read back: without fence, line-break tag and entity. -/
structure IsWritable (l : Text) : Prop where
  fence : ¬ ticks <:+: l
  tag : ∀ t, IsBreakTag t → ¬ t <:+: l
  entity : ¬ quoteEntity <:+: l

/-- A label without the characters that fences, tags and entities begin with. -/
theorem isWritable_of_not_mem {l : Text} (hf : '\x60' ∉ l) (ht : '<' ∉ l) (he : '#' ∉ l) :
    IsWritable l where
  fence := fun hi => hf (hi.subset (show '\x60' ∈ ticks by decide))
  tag := by
    rintro t ⟨b, r, gap, close, -, -, -, -, rfl⟩ hi
    exact ht (hi.subset List.mem_cons_self)
  entity := fun hi => he (hi.subset (show '#' ∈ quoteEntity by decide))

/-- No fence and no line-break tag begins in the text, whatever follows it. -/
structure IsPrepared (p : Text) : Prop where
  fence : Inert fenceSize p
  tag : Inert breakTagSize p

theorem IsPrepared.append {p q : Text} (hp : IsPrepared p) (hq : IsPrepared q) :
    IsPrepared (p ++ q) :=
  ⟨hp.fence.append hq.fence, hp.tag.append hq.tag⟩

theorem fenceSize_cons {c : Char} (s : Text) (h : c ≠ '\x60') : fenceSize (c :: s) = 0 := by
  by_contra hs
  exact h (List.cons_prefix_cons.mp (fenceSize_ne_zero_iff.mp hs)).1.symm

theorem breakTagSize_cons {c : Char} (s : Text) (h : c ≠ '<') : breakTagSize (c :: s) = 0 := by
  by_contra hs
  obtain ⟨t, ⟨b, r, gap, close, -, -, -, -, rfl⟩, hp⟩ := exists_tag_of_breakTagSize hs
  exact h (List.cons_prefix_cons.mp hp).1.symm

theorem isPrepared_of_not_mem {p : Text} (hf : '\x60' ∉ p) (ht : '<' ∉ p) : IsPrepared p :=
  ⟨.of_not_mem (fun _ s => fenceSize_cons s) hf, .of_not_mem (fun _ s => breakTagSize_cons s) ht⟩

theorem foreign_of_isBreakTag {t : Text} (h : IsBreakTag t) :
    t ≠ [] ∧ ∀ c ∈ t, c ∉ '"' :: quoteEntity := by
  obtain ⟨b, r, gap, close, hb, hr, hgap, hclose, rfl⟩ := h
  refine ⟨List.cons_ne_nil _ _, ?_⟩
  intro c hc
  simp only [List.mem_cons, List.mem_append] at hc
  rcases hc with rfl | rfl | rfl | hc | hc
  · decide
  · rcases hb with rfl | rfl <;> decide
  · rcases hr with rfl | rfl <;> decide
  · intro hq
    have hb := hgap c hc
    have solid : ∀ d ∈ '"' :: quoteEntity, isBlank d = false := by decide
    rw [solid c hq] at hb
    cases hb
  · have ends : ∀ d ∈ ['/', '>'], d ∉ '"' :: quoteEntity := by decide
    rcases hclose with rfl | rfl
    · exact ends c (List.mem_cons_of_mem _ hc)
    · exact ends c hc

/-- **A writable label is prepared as it is written.** -/
theorem isPrepared_quoteLabel {l : Text} (h : IsWritable l) : IsPrepared (quoteLabel l) := by
  rcases quoteLabel_cases l with hq | ⟨hq, plain⟩ <;> rw [hq]
  · constructor
    · apply inert_quoted (P := (· = ticks))
      · exact fun s hs => ⟨ticks, rfl, fenceSize_ne_zero_iff.mp hs⟩
      · rintro t rfl
        decide
      · rintro t rfl
        exact h.fence
    · exact inert_quoted (fun _ => exists_tag_of_breakTagSize)
        (fun _ => foreign_of_isBreakTag) h.tag
  · apply isPrepared_of_not_mem
    · exact fun hm => absurd (plain _ hm) (by decide)
    · exact fun hm => absurd (plain _ hm) (by decide)

/-- **A prepared text is trimmed and nothing else.** -/
theorem prepareForRendering_eq {s : Text} (h : IsPrepared s) : prepareForRendering s = strip s := by
  rw [prepareForRendering, h.fence.erase_eq, h.tag.erase_eq]

end Drawbridge
