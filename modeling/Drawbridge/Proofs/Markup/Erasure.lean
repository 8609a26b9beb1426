import Drawbridge.Proofs.Graph.Names
import Drawbridge.Proofs.Markup.Preparation

/-!
Dropping fences and line-break tags piece by piece. `unmarked` is a text without them, before it is
trimmed. What follows a text seals it (`Seals`) if no piece can reach across, and then both are
dropped from apart: `unmarked_append`. What is prepared stays as it is (`IsPrepared.unmarked_append`),
and a written text stays one (`isWritten_unmarked`).
-/

namespace Drawbridge

/-! ## Erasing in two parts -/

section Erase

variable {size : Text → Nat} {p q : Text}

theorem eraseFrom_sublist (size : Text → Nat) (k : Nat) (s : Text) :
    (eraseFrom size k s).Sublist s := by
  fun_induction eraseFrom size k s with
  | case1 => exact .slnil
  | case2 k c s ih => exact ih.cons c
  | case3 c s _ ih => exact ih.cons_cons c
  | case4 c s k _ ih => exact ih.cons c

theorem mem_of_mem_erase {s : Text} {c : Char} (h : c ∈ erase size s) : c ∈ s :=
  (eraseFrom_sublist size 0 s).subset h

/-- The pieces in `p` are the same with `q` behind it, and end in `p`. -/
def Apart (size : Text → Nat) (p q : Text) : Prop :=
  ∀ u, u <:+ p → u ≠ [] → size (u ++ q) = size u ∧ size u ≤ u.length

theorem eraseFrom_append {k : Nat} (hk : k ≤ p.length) (h : Apart size p q) :
    eraseFrom size k (p ++ q) = eraseFrom size k p ++ erase size q := by
  induction p generalizing k with
  | nil =>
    rw [List.length_nil, Nat.le_zero] at hk
    subst hk
    rfl
  | cons c p ih =>
    have rest : Apart size p q := fun u hu => h u (hu.trans (List.suffix_cons c p))
    cases k with
    | succ k => exact ih (Nat.le_of_succ_le_succ hk) rest
    | zero =>
      obtain ⟨same, inside⟩ := h (c :: p) List.suffix_rfl (List.cons_ne_nil c p)
      rw [List.cons_append] at same ⊢
      rw [eraseFrom, eraseFrom, same]
      cases hs : size (c :: p) with
      | zero => exact congrArg (c :: ·) (ih (Nat.zero_le _) rest)
      | succ k =>
        rw [hs] at inside
        exact ih (Nat.le_of_succ_le_succ inside) rest

/-- **Texts are erased from apart if no piece reaches across.** -/
theorem erase_append (h : Apart size p q) : erase size (p ++ q) = erase size p ++ erase size q :=
  eraseFrom_append (Nat.zero_le _) h

theorem Inert.apart (h : Inert size p) (q : Text) : Apart size p q := by
  intro u hu hne
  have alone := h u [] hu hne
  rw [List.append_nil] at alone
  rw [h u q hu hne, alone]
  exact ⟨rfl, Nat.zero_le _⟩

theorem Inert.erase_append (h : Inert size p) (q : Text) :
    erase size (p ++ q) = p ++ erase size q := by
  rw [Drawbridge.erase_append (h.apart q), h.erase_eq]

end Erase

/-! ## Fences -/

theorem fenceSize_append_cons {c : Char} (hc : c ≠ '\x60') (hn : isFenceName c = false)
    (u r : Text) : fenceSize (u ++ c :: r) = fenceSize u := by
  have foreign : c ∉ ticks := by
    intro hm
    simp only [ticks, List.mem_cons, List.not_mem_nil, or_false, or_self] at hm
    exact hc hm
  by_cases h : ticks <+: u
  · obtain ⟨v, rfl⟩ := h
    have short : afterTicks? (ticks ++ v) = some v := afterTicks?_eq_some.mpr rfl
    have long : afterTicks? (ticks ++ v ++ c :: r) = some (v ++ c :: r) :=
      afterTicks?_eq_some.mpr (List.append_assoc ..)
    rw [fenceSize, fenceSize, short, long]
    simp only [takeWhile_append_cons hn]
  · have long : ¬ ticks <+: u ++ c :: r :=
      fun hp => h (isPrefix_of_isPrefix_append_cons foreign hp)
    have first := not_imp_comm.mp fenceSize_ne_zero_iff.mp h
    have second := not_imp_comm.mp fenceSize_ne_zero_iff.mp long
    rw [first, second]

theorem fenceSize_le (s : Text) : fenceSize s ≤ s.length := by
  unfold fenceSize
  split
  · rename_i r hr
    have name := (List.takeWhile_prefix isFenceName (l := r)).length_le
    rw [afterTicks?_eq_some.mp hr, List.length_append]
    simp only [ticks, List.length_cons, List.length_nil]
    omega
  · exact Nat.zero_le _

/-! ## Line-break tags -/

theorem breakTagSize_le (s : Text) : breakTagSize s ≤ s.length := by
  unfold breakTagSize
  split
  · rename_i b r s
    split
    · have cut := congrArg List.length (List.takeWhile_append_dropWhile (p := isBlank) (l := s))
      rw [List.length_append] at cut
      dsimp only
      split
      · rename_i rest hd
        rw [hd] at cut
        simp only [List.length_cons] at cut ⊢
        omega
      · rename_i rest hd
        rw [hd] at cut
        simp only [List.length_cons] at cut ⊢
        omega
      · exact Nat.zero_le _
    · exact Nat.zero_le _
  · exact Nat.zero_le _

/-! ## Sealing -/

/-- What a text begins with, after blanks, is such that no piece before it reaches into it. -/
def Seals (q : Text) : Prop :=
  ∃ g c r, q = g ++ c :: r ∧ (∀ d ∈ g, isBlank d = true) ∧ isBlank c = false ∧
    c ≠ '\x60' ∧ c ≠ '/' ∧ c ≠ '>' ∧ (g = [] → isFenceName c = false)

theorem not_blank_of_isFenceName {c : Char} (h : isFenceName c = true) : isBlank c = false := by
  by_cases hyphen : c = '-'
  · subst hyphen
    decide
  · apply not_blank_of_isIdentChar
    simpa [isFenceName, isIdentChar, hyphen] using h

/-- The length of a line-break tag by what stands behind its name and `gap` blanks. -/
def tagEnd (gap : Nat) : Text → Nat
  | '>' :: _ => gap + 4
  | '/' :: '>' :: _ => gap + 5
  | _ => 0

theorem breakTagSize_eq (b r : Char) (s : Text) :
    breakTagSize ('<' :: b :: r :: s) =
      if (b = 'b' || b = 'B') && (r = 'r' || r = 'R') then
        tagEnd (s.takeWhile isBlank).length (s.dropWhile isBlank)
      else 0 := rfl

theorem tagEnd_cons {c : Char} (slash : c ≠ '/') (close : c ≠ '>') (gap : Nat) (s : Text) :
    tagEnd gap (c :: s) = 0 := by
  unfold tagEnd
  split
  · rename_i heq
    exact (close (List.cons.inj heq).1).elim
  · rename_i heq
    exact (slash (List.cons.inj heq).1).elim
  · rfl

/-- A tag ends with one character, or two of which the second is an angle bracket. -/
theorem tagEnd_alone (gap : Nat) (e : Char) {d : Char} (close : d ≠ '>') (s : Text) :
    tagEnd gap (e :: d :: s) = tagEnd gap [e] := by
  unfold tagEnd
  split <;> split <;> simp_all

theorem tagEnd_append (gap : Nat) (e f : Char) (w s : Text) :
    tagEnd gap (e :: f :: (w ++ s)) = tagEnd gap (e :: f :: w) := by
  unfold tagEnd
  split <;> split <;> simp_all

namespace Seals

variable {p q : Text}

theorem of_char {c : Char} (blank : isBlank c = false) (name : isFenceName c = false)
    (other : c ≠ '\x60' ∧ c ≠ '/' ∧ c ≠ '>') (r : Text) : Seals (c :: r) :=
  ⟨[], c, r, rfl, fun _ h => absurd h List.not_mem_nil, blank, other.1, other.2.1, other.2.2,
    fun _ => name⟩

theorem head (h : Seals q) :
    ∃ d r, q = d :: r ∧ isFenceName d = false ∧ d ≠ '\x60' ∧ d ≠ '>' := by
  obtain ⟨g, c, r, rfl, blanks, -, tick, -, close, name⟩ := h
  cases g with
  | nil => exact ⟨c, r, rfl, name rfl, tick, close⟩
  | cons d g =>
    have blank := blanks d List.mem_cons_self
    have solid : ∀ e, isBlank e = false → d ≠ e := fun e he => ne_of_class blank he
    refine ⟨d, g ++ c :: r, rfl, ?_, solid _ (by decide), solid _ (by decide)⟩
    cases hn : isFenceName d with
    | false => rfl
    | true =>
      rw [not_blank_of_isFenceName hn] at blank
      cases blank

theorem fence_apart (h : Seals q) (p : Text) : Apart fenceSize p q := by
  obtain ⟨d, r, rfl, name, tick, -⟩ := h.head
  exact fun u _ _ => ⟨fenceSize_append_cons tick name u r, fenceSize_le u⟩

/-- The name of a tag does not reach into what seals. -/
theorem breakTagSize_short (h : Seals q) {u : Text} (hne : u ≠ []) (hlen : u.length < 3) :
    breakTagSize (u ++ q) = 0 := by
  obtain ⟨d, r, rfl, name, -, -⟩ := h.head
  by_contra hs
  obtain ⟨t, ⟨b, r', gap, close, hb, hr, -, -, rfl⟩, hp⟩ := exists_tag_of_breakTagSize hs
  have letters : isFenceName b = true ∧ isFenceName r' = true := by
    constructor
    · rcases hb with rfl | rfl <;> decide
    · rcases hr with rfl | rfl <;> decide
  match u, hne, hlen with
  | [a], _, _ =>
    have second := (List.cons_prefix_cons.mp (List.cons_prefix_cons.mp hp).2).1
    rw [← second, letters.1] at name
    cases name
  | [a, a'], _, _ =>
    have third := (List.cons_prefix_cons.mp
      (List.cons_prefix_cons.mp (List.cons_prefix_cons.mp hp).2).2).1
    rw [← third, letters.2] at name
    cases name

/-- The end of a tag is looked for behind blanks, and what seals is none. -/
theorem breakTagSize_long (h : Seals q) (a b r : Char) (v : Text) :
    breakTagSize (a :: b :: r :: (v ++ q)) = breakTagSize (a :: b :: r :: v) := by
  by_cases tag : a = '<'
  · subst tag
    rw [breakTagSize_eq, breakTagSize_eq]
    obtain ⟨d, q', hq, -, -, close⟩ := h.head
    cases hv : v.dropWhile isBlank with
    | nil =>
      -- only blanks stand before `q`, which does not begin with the end of a tag
      have blank := List.dropWhile_eq_nil_iff.mp hv
      obtain ⟨g, c, s, rfl, blanks, solid, -, slash, close, -⟩ := h
      have rest : (v ++ (g ++ c :: s)).dropWhile isBlank = c :: s := by
        rw [List.dropWhile_append_of_pos blank, dropWhile_piece blanks solid]
      rw [rest, tagEnd_cons slash close]
      rfl
    | cons e w =>
      have cut := List.takeWhile_append_dropWhile (p := isBlank) (l := v)
      have solid : isBlank e = false := by
        have := List.head_dropWhile_not isBlank (l := v) (by rw [hv]; exact List.cons_ne_nil e w)
        simpa only [hv, List.head_cons] using this
      rw [hv] at cut
      have blanks : ∀ c ∈ v.takeWhile isBlank, isBlank c = true :=
        fun c hc => List.mem_takeWhile_imp hc
      generalize v.takeWhile isBlank = g at cut blanks
      subst cut
      have whole : g ++ e :: w ++ q = g ++ e :: (w ++ q) := by simp
      rw [whole, takeWhile_piece blanks solid, dropWhile_piece blanks solid]
      congr 1
      cases w with
      | nil =>
        rw [List.nil_append, hq]
        exact tagEnd_alone _ e close q'
      | cons f w => exact tagEnd_append _ e f w q
  · rw [breakTagSize_cons _ tag, breakTagSize_cons _ tag]

theorem tag_apart (h : Seals q) (p : Text) : Apart breakTagSize p q := by
  intro u _ hne
  refine ⟨?_, breakTagSize_le u⟩
  match u, hne with
  | [a], hne =>
    rw [h.breakTagSize_short hne (by simp)]
    simp [breakTagSize]
  | [a, b], hne =>
    rw [h.breakTagSize_short hne (by simp)]
    simp [breakTagSize]
  | a :: b :: r :: v, _ => exact h.breakTagSize_long a b r v

theorem erase_fence (h : Seals q) : Seals (erase fenceSize q) := by
  obtain ⟨g, c, r, rfl, blanks, solid, tick, slash, close, name⟩ := h
  have inert : Inert fenceSize (g ++ [c]) := by
    apply Inert.of_not_mem fun _ s => fenceSize_cons s
    intro hm
    rcases List.mem_append.mp hm with hm | hm
    · exact absurd (blanks _ hm) (by decide)
    · exact tick (List.mem_singleton.mp hm).symm
  have whole : g ++ c :: r = g ++ [c] ++ r := by simp
  rw [whole, inert.erase_append, List.append_assoc]
  exact ⟨g, c, _, rfl, blanks, solid, tick, slash, close, name⟩

end Seals

/-! ## Texts without pieces -/

/-- The text without fences and line-break tags. -/
def unmarked (s : Text) : Text :=
  erase breakTagSize (erase fenceSize s)

theorem prepareForRendering_unmarked (s : Text) : prepareForRendering s = strip (unmarked s) := rfl

theorem mem_of_mem_unmarked {s : Text} {c : Char} (h : c ∈ unmarked s) : c ∈ s :=
  mem_of_mem_erase (mem_of_mem_erase h)

theorem unmarked_eq_self {s : Text} (fence : ¬ ticks <:+: s)
    (tag : ∀ t, IsBreakTag t → ¬ t <:+: s) : unmarked s = s := by
  have unfenced : erase fenceSize s = s := by
    apply erase_eq_self
    intro u hu _
    by_contra hs
    exact fence ((fenceSize_ne_zero_iff.mp hs).isInfix.trans hu.isInfix)
  rw [unmarked, unfenced]
  apply erase_eq_self
  intro u hu _
  by_contra hs
  obtain ⟨t, ht, hp⟩ := exists_tag_of_breakTagSize hs
  exact tag t ht (hp.isInfix.trans hu.isInfix)

/-- A text without fences and line-break tags, of which nothing is erased. -/
structure IsUnmarked (s : Text) : Prop where
  fence : ¬ ticks <:+: s
  tag : ∀ t, IsBreakTag t → ¬ t <:+: s

theorem IsUnmarked.unmarked_eq {s : Text} (h : IsUnmarked s) : unmarked s = s :=
  unmarked_eq_self h.fence h.tag

/-- **Pieces are dropped apart from what seals and from what stands before it.** -/
theorem unmarked_append {q : Text} (h : Seals q) (p : Text) :
    unmarked (p ++ q) = unmarked p ++ unmarked q := by
  rw [unmarked, erase_append (h.fence_apart p), erase_append (h.erase_fence.tag_apart _)]
  rfl

namespace IsPrepared

variable {p q : Text}

theorem unmarked_append (h : IsPrepared p) (q : Text) : unmarked (p ++ q) = p ++ unmarked q := by
  rw [unmarked, h.fence.erase_append, h.tag.erase_append]
  rfl

theorem unmarked_eq (h : IsPrepared p) : unmarked p = p := by
  have whole := h.unmarked_append []
  rwa [List.append_nil, show unmarked [] = [] from rfl, List.append_nil] at whole

/-- Between prepared texts, pieces are dropped from what stands there only. -/
theorem unmarked_between (hp : IsPrepared p) (hq : IsPrepared q) (seals : Seals q) (x : Text) :
    unmarked (p ++ (x ++ q)) = p ++ (unmarked x ++ q) := by
  rw [hp.unmarked_append, Drawbridge.unmarked_append seals, hq.unmarked_eq]

end IsPrepared

theorem unmarked_cons {c : Char} (tick : c ≠ '\x60') (tag : c ≠ '<') (s : Text) :
    unmarked (c :: s) = c :: unmarked s := by
  have single : IsPrepared [c] := by
    apply isPrepared_of_not_mem
    · simpa using Ne.symm tick
    · simpa using Ne.symm tag
  exact single.unmarked_append s

/-- A written text is one without its fences and tags. -/
theorem isWritten_unmarked {x : Text} (h : IsWritten x) : IsWritten (unmarked x) := by
  rcases h with ⟨t, ht, rfl⟩ | plain
  · have quote : Seals ['"'] := .of_char (by decide) (by decide) (by decide) []
    have closed : unmarked ['"'] = ['"'] :=
      IsPrepared.unmarked_eq (isPrepared_of_not_mem (by decide) (by decide))
    refine .inl ⟨unmarked t, fun hm => ht (mem_of_mem_unmarked hm), ?_⟩
    rw [unmarked_cons (by decide) (by decide), unmarked_append quote, closed]
  · have prepared : IsPrepared x := by
      apply isPrepared_of_not_mem
      · exact fun hm => absurd (plain _ hm) (by decide)
      · exact fun hm => absurd (plain _ hm) (by decide)
    rw [prepared.unmarked_eq]
    exact .inr plain

end Drawbridge
