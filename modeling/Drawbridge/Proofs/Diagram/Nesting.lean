import Drawbridge.Diagram.Nesting
import Mathlib.Data.Finset.Card
import Mathlib.Data.Finset.Image
import Mathlib.Logic.Relation

/-!
The nesting of blocks is a forest, whatever the parent pointers are. Going outwards is going along a
partial function on finitely many names, so it ends or comes back (`exists_loop`), and a way that
exists is no longer than there are names (`exists_short`). Hence the bounds of `Block.reaches` and
`Block.depthOf` lose nothing:

* `Block.parentOf?_acyclic`: no block lies in itself;
* `Block.depthOf_parent`, `Block.depthOf_lt`: a block is one deeper than its parent, and there are
  more blocks than levels;
* `Block.Within.eq_of_depth`: of the blocks around one, no two are equally deep.
-/

namespace Drawbridge

/-! ## Ways along a partial function -/

section Climb

variable {α : Type} {f g : α → Option α} {a b : α} {j k : Nat}

/-- Follows a partial function so many times. -/
def climb (f : α → Option α) : Nat → α → Option α
  | 0, a => some a
  | k + 1, a => (f a).bind (climb f k)

theorem climb_add (j k : Nat) (a : α) : climb f (j + k) a = (climb f j a).bind (climb f k) := by
  induction j generalizing a with
  | zero =>
    rw [Nat.zero_add]
    rfl
  | succ j ih =>
    rw [Nat.succ_add, climb, climb]
    cases f a with
    | none => rfl
    | some b => exact ih b

theorem climb_mono (h : ∀ a b, f a = some b → g a = some b) (hk : climb f k a = some b) :
    climb g k a = some b := by
  induction k generalizing a with
  | zero => exact hk
  | succ k ih =>
    obtain ⟨c, first, rest⟩ := Option.bind_eq_some_iff.mp hk
    rw [climb, h a c first]
    exact ih rest

/-- A way stays among places that are not left. -/
theorem climb_mem {places : List α} (closed : ∀ x ∈ places, ∀ y, f x = some y → y ∈ places)
    (ha : a ∈ places) (hk : climb f k a = some b) : b ∈ places := by
  induction k generalizing a with
  | zero => exact Option.some.inj hk ▸ ha
  | succ k ih =>
    obtain ⟨c, first, rest⟩ := Option.bind_eq_some_iff.mp hk
    exact ih (closed a ha c first) rest

/-- The beginning of a way is a way. -/
theorem climb_le (hk : climb f k a = some b) (hj : j ≤ k) : ∃ c, climb f j a = some c := by
  rw [← Nat.add_sub_cancel' hj, climb_add] at hk
  obtain ⟨c, first, -⟩ := Option.bind_eq_some_iff.mp hk
  exact ⟨c, first⟩

/-- **A way with more steps than there are places comes back to a place.** -/
theorem exists_loop [DecidableEq α] (places : List α)
    (closed : ∀ x ∈ places, ∀ y, f x = some y → y ∈ places) (ha : a ∈ places)
    (hk : climb f k a = some b) (long : places.length ≤ k) :
    ∃ i j c, i < j ∧ j ≤ k ∧ climb f i a = some c ∧ climb f j a = some c := by
  have fewer : (places.toFinset.image some).card < (Finset.range (k + 1)).card := by
    rw [Finset.card_range]
    have := Finset.card_image_le (s := places.toFinset) (f := some)
    have := places.toFinset_card_le
    omega
  have lands : Set.MapsTo (fun i => climb f i a) (Finset.range (k + 1))
      (places.toFinset.image some) := by
    intro i hi
    obtain ⟨c, hc⟩ := climb_le hk (Nat.lt_succ_iff.mp (Finset.mem_range.mp hi))
    simpa [hc] using climb_mem closed ha hc
  obtain ⟨i, hi, j, hj, other, same⟩ := Finset.exists_ne_map_eq_of_card_lt_of_maps_to fewer lands
  have bound : i ≤ k ∧ j ≤ k := by
    simp only [Finset.mem_range] at hi hj
    omega
  rcases Nat.lt_or_gt_of_ne other with less | less
  · obtain ⟨c, hc⟩ := climb_le hk bound.2
    exact ⟨i, j, c, less, bound.2, same.trans hc, hc⟩
  · obtain ⟨c, hc⟩ := climb_le hk bound.1
    exact ⟨j, i, c, less, bound.1, same.symm.trans hc, hc⟩

/-- **Where there is a way, there is one with fewer steps than there are places.** -/
theorem exists_short [DecidableEq α] (places : List α)
    (closed : ∀ x ∈ places, ∀ y, f x = some y → y ∈ places) (ha : a ∈ places)
    (hk : climb f k a = some b) : ∃ j < places.length, climb f j a = some b := by
  induction k using Nat.strong_induction_on with
  | _ k ih =>
    rcases Nat.lt_or_ge k places.length with short | long
    · exact ⟨k, short, hk⟩
    · obtain ⟨i, j, c, less, bound, hi, hj⟩ := exists_loop places closed ha hk long
      -- what lies between the two visits of `c` can be left out
      apply ih (i + (k - j)) (by omega)
      rw [← Nat.add_sub_cancel' bound, climb_add, hj] at hk
      rw [climb_add, hi]
      exact hk

end Climb

namespace Block

variable {blocks : List Block} {name p : Text}

/-! ## Parents -/

theorem named?_isSome : (named? blocks name).isSome ↔ name ∈ blocks.map (·.name) := by
  rw [named?, List.find?_isSome]
  simp

/-- The parent pointer of the block with a name, if it points to a block. -/
def pointer? (blocks : List Block) (name : Text) : Option Text :=
  (named? blocks name).bind fun b => b.parent.filter fun p => (named? blocks p).isSome

theorem pointer?_mem {p : Text} (h : pointer? blocks name = some p) :
    p ∈ blocks.map (·.name) := by
  obtain ⟨b, -, hp⟩ := Option.bind_eq_some_iff.mp h
  exact named?_isSome.mp (Option.filter_eq_some_iff.mp hp).2

theorem reaches_of_climb {fuel k : Nat} {current : Text} (hk : climb (pointer? blocks) k current =
    some name) (listed : name ∈ blocks.map (·.name)) (bound : k < fuel) :
    reaches blocks name fuel (some current) = true := by
  induction fuel generalizing k current with
  | zero => omega
  | succ fuel ih =>
    rw [reaches]
    cases k with
    | zero =>
      cases hk
      obtain ⟨b, hb⟩ := Option.isSome_iff_exists.mp (named?_isSome.mpr listed)
      simp [hb]
    | succ k =>
      obtain ⟨q, first, rest⟩ := Option.bind_eq_some_iff.mp hk
      obtain ⟨b, hb, hq⟩ := Option.bind_eq_some_iff.mp first
      have onwards := ih rest (by omega)
      rw [← (Option.filter_eq_some_iff.mp hq).1] at onwards
      simp [hb, onwards]

/-- A search that meets anything begins at a block, and goes on behind it if it is not yet there. -/
theorem reaches_cases {fuel : Nat} {current : Option Text}
    (met : reaches blocks name fuel current = true) :
    ∃ c b, current = some c ∧ named? blocks c = some b ∧
      (c = name ∨ ∃ fuel' < fuel, reaches blocks name fuel' b.parent = true) := by
  unfold reaches at met
  split at met
  · cases met
  · cases met
  · rename_i fuel c
    cases found : named? blocks c with
    | none =>
      rw [found] at met
      cases met
    | some b =>
      rw [found] at met
      refine ⟨c, b, rfl, found, ?_⟩
      rcases Bool.or_eq_true_iff.mp met with here | onwards
      · exact .inl (of_decide_eq_true here)
      · exact .inr ⟨fuel, Nat.lt_succ_self fuel, onwards⟩

/-- What the search meets lies on the way outwards. -/
theorem exists_climb_of_reaches {fuel : Nat} {current : Text}
    (met : reaches blocks name fuel (some current) = true) :
    ∃ k, climb (pointer? blocks) k current = some name := by
  induction fuel using Nat.strong_induction_on generalizing current with
  | _ fuel ih =>
    obtain ⟨_, b, ⟨⟩, found, here | ⟨fuel', less, onwards⟩⟩ := reaches_cases met
    · exact ⟨0, congrArg some here⟩
    · obtain ⟨q, c, hq, listed, -⟩ := reaches_cases onwards
      have first : pointer? blocks current = some q := by
        rw [pointer?, found, Option.bind_some, hq, Option.filter_some, listed]
        rfl
      rw [hq] at onwards
      obtain ⟨k, rest⟩ := ih fuel' less onwards
      exact ⟨k + 1, by rw [climb, first, Option.bind_some, rest]⟩

theorem parentOf?_eq_some (h : parentOf? blocks name = some p) :
    pointer? blocks name = some p ∧ reaches blocks name blocks.length (some p) = false := by
  unfold parentOf? at h
  split at h
  · cases h
  · rename_i q hq
    split at h
    · rename_i known
      cases h
      obtain ⟨b, hb, parent⟩ := Option.bind_eq_some_iff.mp hq
      simp only [Bool.and_eq_true, Bool.not_eq_true'] at known
      refine ⟨?_, known.2⟩
      rw [pointer?, hb, Option.bind_some, parent, Option.filter_some, if_pos known.1]
    · cases h

theorem parentOf?_mem (h : parentOf? blocks name = some p) :
    name ∈ blocks.map (·.name) ∧ p ∈ blocks.map (·.name) := by
  obtain ⟨pointer, -⟩ := parentOf?_eq_some h
  obtain ⟨b, hb, -⟩ := Option.bind_eq_some_iff.mp pointer
  exact ⟨named?_isSome.mp (by rw [hb]; rfl), pointer?_mem pointer⟩

/-- No pointers lead back from the parent of a block. -/
theorem climb_pointer?_ne (h : parentOf? blocks name = some p) (k : Nat) :
    climb (pointer? blocks) k p ≠ some name := by
  intro way
  obtain ⟨listed, parent⟩ := parentOf?_mem h
  obtain ⟨j, short, hj⟩ := exists_short (blocks.map (·.name))
    (fun x _ y hy => pointer?_mem hy) parent way
  rw [List.length_map] at short
  have met := reaches_of_climb hj listed short
  rw [(parentOf?_eq_some h).2] at met
  cases met

/-- **No block lies in itself.** -/
theorem parentOf?_acyclic (h : parentOf? blocks name = some p) (k : Nat) :
    climb (parentOf? blocks) k p ≠ some name := by
  intro hk
  exact climb_pointer?_ne h k (climb_mono (fun a b hab => (parentOf?_eq_some hab).1) hk)

/-! ## Depth -/

theorem climb_parentOf? (listed : name ∈ blocks.map (·.name)) :
    climb (parentOf? blocks) blocks.length name = none := by
  cases hk : climb (parentOf? blocks) blocks.length name with
  | none => rfl
  | some b =>
    obtain ⟨i, j, c, less, -, hi, hj⟩ := exists_loop (blocks.map (·.name))
      (fun x _ y hy => (parentOf?_mem hy).2) listed hk (by rw [List.length_map])
    -- `c` would lie in itself
    rw [← Nat.add_sub_cancel' (Nat.le_of_lt less), climb_add, hi, Option.bind_some,
      ← Nat.succ_pred_eq_of_pos (Nat.sub_pos_of_lt less)] at hj
    obtain ⟨q, first, rest⟩ := Option.bind_eq_some_iff.mp hj
    exact absurd rest (parentOf?_acyclic first _)

section Depth

variable {parent? : Text → Option Text} {fuel : Nat}

theorem depthWithin_succ (h : climb parent? fuel name = none) :
    depthWithin parent? (fuel + 1) name = depthWithin parent? fuel name := by
  induction fuel generalizing name with
  | zero => cases h
  | succ fuel ih =>
    rw [depthWithin, depthWithin]
    cases hp : parent? name with
    | none => rfl
    | some p =>
      rw [climb, hp] at h
      show depthWithin parent? (fuel + 1) p + 1 = depthWithin parent? fuel p + 1
      rw [ih h]

theorem depthWithin_lt (h : climb parent? fuel name = none) :
    depthWithin parent? fuel name < fuel := by
  induction fuel generalizing name with
  | zero => cases h
  | succ fuel ih =>
    rw [depthWithin]
    cases hp : parent? name with
    | none => exact Nat.succ_pos fuel
    | some p =>
      rw [climb, hp] at h
      exact Nat.succ_lt_succ (ih h)

end Depth

/-- **A block is one deeper than its parent.** -/
theorem depthOf_parent (h : parentOf? blocks name = some p) :
    depthOf blocks name = depthOf blocks p + 1 := by
  have ends := climb_parentOf? (parentOf?_mem h).1
  unfold depthOf
  cases hn : blocks.length with
  | zero =>
    rw [hn] at ends
    cases ends
  | succ n =>
    rw [hn, climb, h] at ends
    have deep : climb (parentOf? blocks) n p = none := ends
    rw [depthWithin_succ deep, depthWithin, h]

theorem depthOf_root (h : parentOf? blocks name = none) : depthOf blocks name = 0 := by
  unfold depthOf
  cases blocks.length with
  | zero => rfl
  | succ n => rw [depthWithin, h]

/-- **There are more blocks than levels.** -/
theorem depthOf_lt (listed : name ∈ blocks.map (·.name)) : depthOf blocks name < blocks.length :=
  depthWithin_lt (climb_parentOf? listed)

/-! ## Blocks around a block -/

/-- A block lies in another, directly or not, or is it. -/
def Within (blocks : List Block) (inner outer : Text) : Prop :=
  Relation.ReflTransGen (fun a b => parentOf? blocks a = some b) inner outer

namespace Within

variable {inner outer outer' : Text}

theorem depth_le (h : Within blocks inner outer) :
    depthOf blocks outer ≤ depthOf blocks inner := by
  induction h with
  | refl => exact Nat.le_refl _
  | tail _ step ih =>
    have := depthOf_parent step
    omega

theorem eq_of_le (h : Within blocks inner outer)
    (le : depthOf blocks inner ≤ depthOf blocks outer) : inner = outer := by
  cases h.cases_head with
  | inl same => exact same
  | inr further =>
    obtain ⟨p, step, rest⟩ := further
    have := depthOf_parent step
    have := depth_le rest
    omega

/-- **Of the blocks around one, no two are equally deep.** -/
theorem eq_of_depth (h : Within blocks inner outer) (h' : Within blocks inner outer')
    (same : depthOf blocks outer = depthOf blocks outer') : outer = outer' := by
  have unique : Relator.RightUnique fun a b => parentOf? blocks a = some b := by
    intro a b c hb hc
    exact Option.some.inj (hb.symm.trans hc)
  rcases Relation.ReflTransGen.total_of_right_unique unique h h' with way | way
  · exact eq_of_le way (Nat.le_of_eq same)
  · exact (eq_of_le way (Nat.le_of_eq same.symm)).symm

end Within

end Block

end Drawbridge
