import Drawbridge.Proofs.Markup.Fence

/-!
What is taken out of a fence. A complete fence is told without a search (`HasFence`): whole lines,
an opening fence line, a body, and the three backticks that close it.

* `findOpening?_lines`, `afterOpening?_opening`: nothing opens in lines without three backticks, and
  an opening fence line opens;
* `beforeTicks?_append`: a body ends at the first three backticks;
* `exists_of_findOpening?`, `exists_of_beforeTicks?`: what has been found is there;
* `unfence_recovers`: the body comes back trimmed, and a text without a complete fence as it is.
-/

namespace Drawbridge

/-- A text that ends where a line starts. -/
def IsLines (p : Text) : Prop :=
  ∀ c ∈ p.getLast?, c = '\n'

/-- An opening fence line: spaces and tabs, three backticks, and an info text without backticks. -/
def IsOpening (l : Text) : Prop :=
  ∃ b i, (∀ c ∈ b, c = ' ' ∨ c = '\t') ∧ '\n' ∉ i ∧ '\x60' ∉ i ∧ l = b ++ ticks ++ i ++ ['\n']

/-- A complete fence stands in the text. -/
def HasFence (t : Text) : Prop :=
  ∃ p l c s, IsLines p ∧ IsOpening l ∧ t = p ++ l ++ c ++ ticks ++ s

/-! ## Opening -/

theorem afterOpening?_none {l : Text} (h : ¬ ticks <:+: l) (s : Text) :
    afterOpening? (l ++ '\n' :: s) = none := by
  set gap : Char → Bool := fun c => c = ' ' || c = '\t' with gap_eq
  have unopened : afterTicks? (l.dropWhile gap ++ '\n' :: s) = none := by
    rw [Option.eq_none_iff_forall_ne_some]
    intro r hr
    have whole : ticks <+: l.dropWhile gap ++ '\n' :: s := ⟨r, (afterTicks?_eq_some.mp hr).symm⟩
    have inside := isPrefix_of_isPrefix_append_cons (by decide) whole
    exact h (inside.isInfix.trans (List.dropWhile_suffix gap).isInfix)
  rw [afterOpening?, dropWhile_append_cons (by decide), unopened]

theorem findOpening?_lines {l : Text} (h : ¬ ticks <:+: l) (start : Bool) (s : Text) :
    findOpening? start (l ++ '\n' :: s) = findOpening? true s := by
  induction l generalizing start with
  | nil =>
    have closed : afterOpening? ('\n' :: s) = none := afterOpening?_none h s
    rw [List.nil_append, findOpening?, closed, ite_self]
    rfl
  | cons c l ih =>
    have closed : afterOpening? (c :: (l ++ '\n' :: s)) = none := afterOpening?_none h s
    rw [List.cons_append, findOpening?, closed, ite_self]
    exact ih (fun hi => h (hi.trans (List.suffix_cons c l).isInfix)) _

theorem afterOpening?_opening {l : Text} (h : IsOpening l) (s : Text) :
    afterOpening? (l ++ s) = some s := by
  obtain ⟨b, i, blanks, feed, tick, rfl⟩ := h
  have whole : b ++ ticks ++ i ++ ['\n'] ++ s =
      b ++ '\x60' :: ('\x60' :: '\x60' :: (i ++ '\n' :: s)) := by
    simp [ticks]
  have gap : ∀ c ∈ b, (decide (c = ' ') || decide (c = '\t')) = true := by simpa using blanks
  have info : ∀ c ∈ i, (decide (c ≠ '\n') && decide (c ≠ '\x60')) = true := by
    intro c hc
    have plain : c ≠ '\n' ∧ c ≠ '\x60' :=
      ⟨fun same => feed (same ▸ hc), fun same => tick (same ▸ hc)⟩
    simpa using plain
  have opened : afterTicks? ('\x60' :: '\x60' :: '\x60' :: (i ++ '\n' :: s)) =
      some (i ++ '\n' :: s) := rfl
  rw [whole, afterOpening?, dropWhile_piece gap (by decide), opened]
  simp only [dropWhile_piece info (c := '\n') (by decide)]

theorem exists_of_afterOpening? {t s : Text} (h : afterOpening? t = some s) :
    ∃ l, IsOpening l ∧ t = l ++ s := by
  unfold afterOpening? at h
  split at h
  · cases h
  · rename_i r hr
    split at h
    · rename_i body hi
      cases h
      set isGap : Char → Bool := fun c => c = ' ' || c = '\t' with gap_eq
      set isInfo : Char → Bool := fun c => c ≠ '\n' && c ≠ '\x60' with info_eq
      have blanks : ∀ c ∈ t.takeWhile isGap, c = ' ' ∨ c = '\t' := by
        intro c hc
        simpa [gap_eq] using List.mem_takeWhile_imp hc
      have plain : ∀ c ∈ r.takeWhile isInfo, c ≠ '\n' ∧ c ≠ '\x60' := by
        intro c hc
        simpa [info_eq] using List.mem_takeWhile_imp hc
      have whole : t = t.takeWhile isGap ++ ticks ++ r.takeWhile isInfo ++ ['\n'] ++ s := by
        calc t = t.takeWhile isGap ++ (ticks ++ r) := by
              rw [← afterTicks?_eq_some.mp hr, List.takeWhile_append_dropWhile]
          _ = t.takeWhile isGap ++ (ticks ++ (r.takeWhile isInfo ++ '\n' :: s)) := by
              rw [← hi, List.takeWhile_append_dropWhile]
          _ = _ := by simp
      exact ⟨_, ⟨_, _, blanks, fun hc => (plain _ hc).1 rfl, fun hc => (plain _ hc).2 rfl, rfl⟩,
        whole⟩
    · cases h

/-- **The first fence is opened where nothing has opened before.** -/
theorem findOpening?_opening {p l : Text} (lines : IsLines p) (plain : ¬ ticks <:+: p)
    (h : IsOpening l) (s : Text) : findOpening? true (p ++ l ++ s) = some s := by
  have opened : findOpening? true (l ++ s) = some s := by
    have here := afterOpening?_opening h s
    cases hw : l ++ s with
    | nil =>
      obtain ⟨b, i, -, -, -, rfl⟩ := h
      simp at hw
    | cons c w =>
      rw [hw] at here
      rw [findOpening?, if_pos rfl, here]
  rcases List.eq_nil_or_concat p with rfl | ⟨q, c, rfl⟩
  · exact opened
  · obtain rfl := lines c (by simp)
    rw [List.concat_eq_append] at plain ⊢
    have before : ¬ ticks <:+: q := fun hi => plain (hi.trans (List.prefix_append q _).isInfix)
    have cut : q ++ ['\n'] ++ l ++ s = q ++ '\n' :: (l ++ s) := by simp
    rw [cut, findOpening?_lines before, opened]

theorem exists_of_findOpening? {start : Bool} {t s : Text} (h : findOpening? start t = some s) :
    ∃ p l, IsLines p ∧ (p = [] → start = true) ∧ IsOpening l ∧ t = p ++ l ++ s := by
  induction t generalizing start with
  | nil => cases h
  | cons c t ih =>
    rw [findOpening?] at h
    split at h
    · rename_i body opened
      cases h
      split at opened
      · rename_i first
        obtain ⟨l, opening, whole⟩ := exists_of_afterOpening? opened
        refine ⟨[], l, ?_, fun _ => first, opening, whole⟩
        intro d hd
        cases hd
      · cases opened
    · obtain ⟨p, l, lines, first, opening, rfl⟩ := ih h
      refine ⟨c :: p, l, ?_, fun empty => (List.cons_ne_nil c p empty).elim, opening, rfl⟩
      cases p with
      | nil =>
        intro d hd
        cases hd
        exact of_decide_eq_true (first rfl)
      | cons d p =>
        intro e he
        exact lines e (by rwa [List.getLast?_cons_cons] at he)

/-! ## Closing -/

/-- A body that neither holds nor begins three backticks ends where they stand. -/
theorem beforeTicks?_append {c : Text} (plain : ¬ ticks <:+: c) (last : c.getLast? ≠ some '\x60')
    (s : Text) : beforeTicks? (c ++ ticks ++ s) = some c := by
  induction c with
  | nil => rfl
  | cons d c ih =>
    have unclosed : afterTicks? (d :: (c ++ ticks ++ s)) = none := by
      rw [Option.eq_none_iff_forall_ne_some]
      intro r hr
      have closed : ticks <+: d :: c ++ (ticks ++ s) := by
        rw [← List.append_assoc]
        exact ⟨r, (afterTicks?_eq_some.mp hr).symm⟩
      rcases List.prefix_or_prefix_of_prefix closed (List.prefix_append _ _) with hp | hp
      · exact plain hp.isInfix
      · -- a body of one or two backticks would run into the three that close it
        have backticks : ∀ x ∈ ticks, x = '\x60' := by decide
        have tick := backticks _ (hp.subset (List.getLast_mem (List.cons_ne_nil d c)))
        exact last (by rw [List.getLast?_eq_getLast_of_ne_nil (List.cons_ne_nil d c), tick])
    have rest : beforeTicks? (c ++ ticks ++ s) = some c := by
      refine ih (fun hi => plain (hi.trans (List.suffix_cons d c).isInfix)) fun tick => last ?_
      cases c with
      | nil => cases tick
      | cons e c => rwa [List.getLast?_cons_cons]
    rw [List.cons_append, List.cons_append, beforeTicks?, unclosed, rest]
    rfl

theorem exists_of_beforeTicks? {t c : Text} (h : beforeTicks? t = some c) :
    ∃ s, t = c ++ ticks ++ s := by
  induction t generalizing c with
  | nil => cases h
  | cons d t ih =>
    rw [beforeTicks?] at h
    split at h
    · rename_i s closed
      cases h
      exact ⟨s, afterTicks?_eq_some.mp closed⟩
    · obtain ⟨c, hc, rfl⟩ := Option.map_eq_some_iff.mp h
      obtain ⟨s, rfl⟩ := ih hc
      exact ⟨s, rfl⟩

/-! ## The whole -/

theorem unfence_eq_self_of_not_hasFence {t : Text} (h : ¬ HasFence t) : unfence t = t := by
  rcases found : (findOpening? true t).bind beforeTicks? with _ | c
  · rw [unfence, found]
  · obtain ⟨body, opened, closed⟩ := Option.bind_eq_some_iff.mp found
    obtain ⟨p, l, lines, -, opening, rfl⟩ := exists_of_findOpening? opened
    obtain ⟨s, rfl⟩ := exists_of_beforeTicks? closed
    exact (h ⟨p, l, c, s, lines, opening, by simp⟩).elim

/--
**What is fenced is recovered.** Taking a text out of its fence leaves nothing to take out. The
first fence gives its body, trimmed, whatever stands around it; a text without a complete fence
stays as it is.
-/
theorem unfence_recovers :
    (∀ t, unfence (unfence t) = unfence t) ∧
    (∀ p b i c s : Text, ¬ ticks <:+: p → (p = [] ∨ p.getLast? = some '\n') →
      (∀ x ∈ b, x = ' ' ∨ x = '\t') → '\n' ∉ i → '\x60' ∉ i →
      ¬ ticks <:+: c → c.getLast? ≠ some '\x60' →
      unfence (p ++ b ++ ticks ++ i ++ '\n' :: (c ++ ticks ++ s)) = strip c) ∧
    ∀ t, ¬ HasFence t → unfence t = t := by
  refine ⟨unfence_unfence, ?_, fun t => unfence_eq_self_of_not_hasFence⟩
  intro p b i c s plain lines blanks feed tick body last
  have ends : IsLines p := by
    rintro x hx
    rcases lines with rfl | feed
    · cases hx
    · exact Option.some.inj (hx.symm.trans feed)
  have opening : IsOpening (b ++ ticks ++ i ++ ['\n']) := ⟨b, i, blanks, feed, tick, rfl⟩
  have whole : p ++ b ++ ticks ++ i ++ '\n' :: (c ++ ticks ++ s) =
      p ++ (b ++ ticks ++ i ++ ['\n']) ++ (c ++ ticks ++ s) := by
    simp
  have found : (findOpening? true (p ++ (b ++ ticks ++ i ++ ['\n']) ++ (c ++ ticks ++ s))).bind
      beforeTicks? = some c := by
    rw [findOpening?_opening ends plain opening]
    exact beforeTicks?_append body last s
  rw [whole, unfence, found]

/-- An answer with backticks before its fence, in its body and behind it. -/
theorem unfence_recovers_answer :
    let answer := "\x60\x60A:\n \t\x60\x60\x60mmd \r\n\n\x60\x60B\n\x60\x60\x60\x60\n\x60\x60\x60".toList
    unfence answer = "\x60\x60B".toList ∧ unfence "\x60\x60B".toList = "\x60\x60B".toList := by
  intro answer
  have body := unfence_recovers.2.1 "\x60\x60A:\n".toList " \t".toList "mmd \r".toList
    "\n\x60\x60B\n".toList "\x60\n\x60\x60\x60".toList (by decide) (.inr rfl) (by decide)
    (by decide) (by decide) (by decide) (by decide)
  have trimmed : strip "\n\x60\x60B\n".toList = "\x60\x60B".toList := by decide +kernel
  have first : unfence answer = "\x60\x60B".toList := body.trans trimmed
  have settled := unfence_recovers.1 answer
  rw [first] at settled
  exact ⟨first, settled⟩

end Drawbridge
