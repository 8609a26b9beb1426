import Drawbridge.Proofs.Diagram.Nesting
import Mathlib.Data.List.Nodup
import Mathlib.Data.Nat.Find
import Mathlib.Logic.Function.Basic

/-!
Groups in groups, apart from blocks and their names. What is around a group is given by a partial
function, in which lists of groups put the neighbours into one another (`putAll`), unless a group
has its place already or would come to lie in itself. Whatever the lists are,

* `putAll_keeps`: a group that has a place keeps it;
* `putAll_cases`: a group comes to lie only in the next one of the list;
* `Acyclic.putAll`: no group comes to lie in itself.

Where the lists go along one function that gives every group the one around it (`IsWay`), this
function is what comes out (`putAll_of_way`). Lists go along one function if no two of them disagree
on what comes behind a group (`Consistent.isWay`).
-/

namespace Drawbridge

/-! ## The order of first mention -/

section EraseDups

variable {α β : Type} [BEq α] [LawfulBEq α] [BEq β] [LawfulBEq β]

theorem eraseDups_concat (l : List α) (a : α) :
    (l ++ [a]).eraseDups = if a ∈ l then l.eraseDups else l.eraseDups ++ [a] := by
  rw [List.eraseDups_append]
  split
  · rename_i h
    simp [List.removeAll, h]
  · rename_i h
    simp [List.removeAll, h, List.eraseDups_cons]

theorem nodup_eraseDups (l : List α) : l.eraseDups.Nodup := by
  induction l using List.reverseRecOn with
  | nil => exact .nil
  | append_singleton l a ih =>
    rw [eraseDups_concat]
    split
    · exact ih
    · rename_i new
      exact List.nodup_append.mpr ⟨ih, List.nodup_singleton a, by
        rintro b hb c hc rfl
        exact new (List.mem_singleton.mp hc ▸ List.mem_eraseDups.mp hb)⟩

theorem eraseDups_of_nodup {l : List α} (h : l.Nodup) : l.eraseDups = l := by
  induction l using List.reverseRecOn with
  | nil => rfl
  | append_singleton l a ih =>
    obtain ⟨first, -, apart⟩ := List.nodup_append.mp h
    have new : a ∉ l := fun old => apart a old a List.mem_cons_self rfl
    rw [eraseDups_concat, if_neg new, ih first]

theorem filter_eraseDups (p : α → Bool) (l : List α) :
    l.eraseDups.filter p = (l.filter p).eraseDups := by
  induction l using List.reverseRecOn with
  | nil => rfl
  | append_singleton l a ih =>
    rw [eraseDups_concat, List.filter_append]
    by_cases keep : p a = true
    · rw [List.filter_cons_of_pos keep, List.filter_nil, eraseDups_concat]
      by_cases old : a ∈ l
      · rw [if_pos old, if_pos (List.mem_filter.mpr ⟨old, keep⟩), ih]
      · rw [if_neg old, if_neg fun h => old (List.mem_filter.mp h).1, List.filter_append, ih,
          List.filter_cons_of_pos keep, List.filter_nil]
    · rw [List.filter_cons_of_neg keep, List.filter_nil, List.append_nil, ← ih]
      split
      · rfl
      · rw [List.filter_append, List.filter_cons_of_neg keep, List.filter_nil, List.append_nil]

theorem map_eraseDups {f : α → β} {l : List α} (inj : ∀ a ∈ l, ∀ b ∈ l, f a = f b → a = b) :
    l.eraseDups.map f = (l.map f).eraseDups := by
  induction l using List.reverseRecOn with
  | nil => rfl
  | append_singleton l a ih =>
    have last : a ∈ l ++ [a] := List.mem_append_right l List.mem_cons_self
    have before : ∀ b ∈ l, b ∈ l ++ [a] := fun b hb => List.mem_append_left [a] hb
    have first := ih fun b hb c hc => inj b (before b hb) c (before c hc)
    have known : f a ∈ l.map f ↔ a ∈ l := by
      constructor
      · intro h
        obtain ⟨b, hb, same⟩ := List.mem_map.mp h
        exact inj b (before b hb) a last same ▸ hb
      · exact List.mem_map_of_mem
    rw [List.map_append, List.map_singleton, eraseDups_concat, eraseDups_concat, ← first]
    simp only [known]
    split
    · rfl
    · rw [List.map_append, List.map_singleton]

theorem eraseDups_append_disjoint {l m : List α} (h : ∀ a ∈ m, a ∉ l) :
    (l ++ m).eraseDups = l.eraseDups ++ m.eraseDups := by
  have apart : m.removeAll l = m := by
    rw [List.removeAll, List.filter_eq_self]
    intro a ha
    simpa using h a ha
  rw [List.eraseDups_append, apart]

theorem eraseDups_of_forall_eq {l : List α} {a : α} (some_left : l ≠ []) (h : ∀ b ∈ l, b = a) :
    l.eraseDups = [a] := by
  cases l with
  | nil => exact (some_left rfl).elim
  | cons b l =>
    obtain rfl := h b List.mem_cons_self
    have rest : l.filter (fun c => !c == b) = [] := by
      rw [List.filter_eq_nil_iff]
      intro c hc
      simp [h c (List.mem_cons_of_mem b hc)]
    rw [List.eraseDups_cons, rest]
    rfl

end EraseDups

/-! ## Groups in groups -/

section Ways

variable {κ : Type} {outer : κ → Option κ} {a b : κ} {l : List κ}

/-- Each of a list lies directly in the next one, and the last in none. -/
def IsWay (outer : κ → Option κ) : List κ → Prop
  | [] => True
  | a :: l => outer a = l.head? ∧ IsWay outer l

/-- A way goes on to the end. -/
theorem IsWay.outer_mem (h : IsWay outer l) (ha : a ∈ l) (hb : outer a = some b) : b ∈ l := by
  induction l with
  | nil => cases ha
  | cons c l ih =>
    obtain ⟨next, rest⟩ := h
    rcases List.mem_cons.mp ha with rfl | ha
    · exact List.mem_cons_of_mem a (List.mem_of_mem_head? (next ▸ hb))
    · exact List.mem_cons_of_mem c (ih rest ha)

/-- **A way is known by where it begins.** -/
theorem IsWay.ext {m : List κ} (h : IsWay outer l) (h' : IsWay outer m)
    (same : l.head? = m.head?) : l = m := by
  induction l generalizing m with
  | nil =>
    cases m with
    | nil => rfl
    | cons => cases same
  | cons a l ih =>
    cases m with
    | nil => cases same
    | cons b m =>
      obtain rfl := Option.some.inj same
      rw [ih h.2 h'.2 (h.1.symm.trans h'.1)]

theorem IsWay.map {κ' : Type} {outer' : κ' → Option κ'} {f : κ → κ'} (h : IsWay outer l)
    (follows : ∀ a ∈ l, outer' (f a) = (outer a).map f) : IsWay outer' (l.map f) := by
  induction l with
  | nil => trivial
  | cons a l ih =>
    obtain ⟨next, rest⟩ := h
    refine ⟨?_, ih rest fun b hb => follows b (List.mem_cons_of_mem a hb)⟩
    rw [follows a List.mem_cons_self, next, List.head?_map]

end Ways

/-! ## Putting groups into groups -/

/-- No place lies on a way back to itself. -/
def Acyclic {α : Type} (f : α → Option α) : Prop :=
  ∀ a k, climb f (k + 1) a ≠ some a

section Put

variable {κ : Type} [DecidableEq κ] {outer whole : κ → Option κ} {rank : κ → Nat} {a b c p : κ}
  {gs : List κ}

/-- A way that does not leave from a place is one along every function that differs only there. -/
theorem climb_update_of_avoids {v : Option κ} {k : Nat}
    (avoids : ∀ j < k, climb outer j c ≠ some a) :
    climb (Function.update outer a v) k c = climb outer k c := by
  induction k generalizing c with
  | zero => rfl
  | succ k ih =>
    have other : c ≠ a := fun same => avoids 0 (Nat.succ_pos k) (congrArg some same)
    rw [climb, climb, Function.update_of_ne other]
    cases next : outer c with
    | none => rfl
    | some d =>
      apply ih
      intro j hj
      have further := avoids (j + 1) (Nat.succ_lt_succ hj)
      rwa [climb, next] at further

/-- **Where there is no way back, a place may be put into another.** -/
theorem Acyclic.update (h : Acyclic outer) (apart : ∀ k, climb outer k b ≠ some a) :
    Acyclic (Function.update outer a (some b)) := by
  have behind (k : Nat) : climb (Function.update outer a (some b)) k b = climb outer k b :=
    climb_update_of_avoids fun j _ => apart j
  intro c k back
  by_cases passes : ∃ j, j < k + 1 ∧ climb outer j c = some a
  · -- the first visit of `a` is by old steps only, and what follows it begins in `b`
    obtain ⟨inside, visit⟩ := Nat.find_spec passes
    have before : climb (Function.update outer a (some b)) (Nat.find passes) c = some a := by
      rw [climb_update_of_avoids, visit]
      exact fun j hj again => Nat.find_min passes hj ⟨by omega, again⟩
    generalize Nat.find passes = j at inside visit before
    obtain ⟨rest, split⟩ := Nat.exists_eq_add_of_lt inside
    rw [split, Nat.add_assoc, climb_add, before, Option.bind_some, climb, Function.update_self,
      Option.bind_some, behind] at back
    apply apart (rest + j)
    rw [climb_add, back, Option.bind_some, visit]
  · rw [climb_update_of_avoids fun j hj visit => passes ⟨j, hj, visit⟩] at back
    exact h c k back

open Classical in
/-- Puts a group into another, unless it has a place or would come to lie in itself. -/
noncomputable def put (outer : κ → Option κ) (inner around : κ) : κ → Option κ :=
  if outer inner = none ∧ ∀ k, climb outer k around ≠ some inner then
    Function.update outer inner (some around)
  else outer

/-- Puts the groups of a list into one another, innermost first. -/
noncomputable def putAll (outer : κ → Option κ) : List κ → κ → Option κ
  | inner :: around :: rest => putAll (put outer inner around) (around :: rest)
  | _ => outer

theorem put_keeps (h : outer c = some p) : put outer a b c = some p := by
  unfold put
  split
  · rename_i free
    have other : c ≠ a := by
      rintro rfl
      rw [free.1] at h
      cases h
    rw [Function.update_of_ne other, h]
  · exact h

theorem put_cases (h : put outer a b c = some p) : outer c = some p ∨ c = a ∧ p = b := by
  unfold put at h
  split at h
  · by_cases here : c = a
    · rw [here, Function.update_self] at h
      exact .inr ⟨here, (Option.some.inj h).symm⟩
    · rw [Function.update_of_ne here] at h
      exact .inl h
  · exact .inl h

theorem Acyclic.put (h : Acyclic outer) (a b : κ) : Acyclic (put outer a b) := by
  unfold Drawbridge.put
  split
  · rename_i free
    exact h.update free.2
  · exact h

/-- **A group that has a place keeps it.** -/
theorem putAll_keeps (h : outer c = some p) : putAll outer gs c = some p := by
  fun_induction putAll outer gs with
  | case1 outer a b rest ih => exact ih (put_keeps h)
  | case2 => exact h

/-- **A group comes to lie only in the next one of the list.** -/
theorem putAll_cases (h : putAll outer gs c = some p) : outer c = some p ∨ [c, p] <:+: gs := by
  fun_induction putAll outer gs with
  | case1 outer a b rest ih =>
    rcases ih h with old | ⟨front, back, later⟩
    · rcases put_cases old with old | ⟨rfl, rfl⟩
      · exact .inl old
      · exact .inr ⟨[], rest, rfl⟩
    · exact .inr ⟨a :: front, back, congrArg (a :: ·) later⟩
  | case2 => exact .inl h

/-- **No group comes to lie in itself.** -/
theorem Acyclic.putAll (h : Acyclic outer) (gs : List κ) : Acyclic (putAll outer gs) := by
  fun_induction Drawbridge.putAll outer gs with
  | case1 outer a b rest ih => exact ih (h.put a b)
  | case2 => exact h

/-! ### Lists that go along one function -/

omit [DecidableEq κ] in
/-- Along the ranks a way leads only further down. -/
theorem rank_le_of_climb (falls : ∀ a p, whole a = some p → rank p < rank a)
    (follows : ∀ a p, outer a = some p → whole a = some p) {k : Nat}
    (way : climb outer k a = some b) : rank b ≤ rank a := by
  induction k generalizing a with
  | zero => exact Nat.le_of_eq (congrArg rank (Option.some.inj way)).symm
  | succ k ih =>
    obtain ⟨c, next, rest⟩ := Option.bind_eq_some_iff.mp way
    exact Nat.le_trans (ih rest) (Nat.le_of_lt (falls a c (follows a c next)))

theorem put_of_next (falls : ∀ a p, whole a = some p → rank p < rank a)
    (follows : ∀ a p, outer a = some p → whole a = some p) (next : whole a = some b) :
    put outer a b = Function.update outer a (some b) := by
  unfold put
  split
  · rfl
  · rename_i taken
    have apart : ∀ k, climb outer k b ≠ some a := by
      intro k way
      have := rank_le_of_climb falls follows way
      have := falls a b next
      omega
    cases place : outer a with
    | none => exact absurd ⟨place, apart⟩ taken
    | some p =>
      rw [follows a p place] at next
      rw [← next, ← place, Function.update_eq_self]

/-- **The groups of a way are put into the groups around them.** -/
theorem putAll_of_way (falls : ∀ a p, whole a = some p → rank p < rank a)
    (follows : ∀ a p, outer a = some p → whole a = some p) (way : IsWay whole gs) :
    putAll outer gs = fun a => if a ∈ gs then whole a else outer a := by
  fun_induction putAll outer gs with
  | case1 outer a b rest ih =>
    obtain ⟨next, way⟩ := way
    have first (c : κ) : put outer a b c = if c = a then whole c else outer c := by
      rw [put_of_next falls follows next]
      by_cases here : c = a
      · rw [here, Function.update_self, if_pos rfl]
        exact next.symm
      · rw [Function.update_of_ne here, if_neg here]
    have follows' : ∀ c p, put outer a b c = some p → whole c = some p := by
      intro c p hp
      rw [first] at hp
      split at hp
      · exact hp
      · exact follows c p hp
    rw [ih follows' way]
    funext c
    rw [first]
    by_cases here : c = a <;> simp [here]
  | case2 gs outer short =>
    funext c
    match gs, way, short with
    | [], _, _ => simp
    | [a], ⟨next, _⟩, _ =>
      by_cases here : c = a
      · subst here
        rw [if_pos List.mem_cons_self, next]
        cases place : outer c with
        | none => rfl
        | some p => exact absurd ((follows c p place).symm.trans next) (Option.some_ne_none p)
      · rw [if_neg (by simpa using here)]
    | a :: b :: rest, _, short => exact (short a b rest rfl).elim

end Put

/-! ## Lists that agree -/

section Consistent

variable {κ : Type} [DecidableEq κ] {lists : List (List κ)} {a p : κ} {front l : List κ}

/-- No list names a group twice, and lists that name one group are the same from there on. -/
structure Consistent (lists : List (List κ)) : Prop where
  once : ∀ gs ∈ lists, gs.Nodup
  alike : ∀ gs ∈ lists, ∀ hs ∈ lists, ∀ a ∈ gs, a ∈ hs →
    gs.dropWhile (· ≠ a) = hs.dropWhile (· ≠ a)

/-- What comes behind a group in the first list that names it. -/
def behind (lists : List (List κ)) (a : κ) : List κ :=
  (((lists.find? fun gs => a ∈ gs).getD []).dropWhile (· ≠ a)).tail

theorem dropWhile_ne_of_not_mem (new : a ∉ front) (l : List κ) :
    (front ++ a :: l).dropWhile (· ≠ a) = a :: l := by
  rw [List.dropWhile_append_of_pos, List.dropWhile_cons_of_neg (by simp)]
  intro b hb
  exact decide_eq_true fun same => new (same ▸ hb)

namespace Consistent

variable (h : Consistent lists)

include h

/-- In every list the same comes behind a group. -/
theorem behind_eq (hl : front ++ a :: l ∈ lists) : behind lists a = l := by
  have named : a ∈ front ++ a :: l := List.mem_append_right front List.mem_cons_self
  have found : (lists.find? fun gs => a ∈ gs).isSome :=
    List.find?_isSome.mpr ⟨_, hl, decide_eq_true named⟩
  obtain ⟨hs, first⟩ := Option.isSome_iff_exists.mp found
  have listed : a ∈ hs := by simpa using List.find?_some first
  -- the list that was found first goes on from `a` as this one does
  have same := h.alike hs (List.mem_of_find?_eq_some first) _ hl a listed named
  have new : a ∉ front :=
    fun old => List.disjoint_of_nodup_append (h.once _ hl) old List.mem_cons_self
  rw [behind, first, Option.getD_some, same, dropWhile_ne_of_not_mem new, List.tail_cons]

/-- **Lists that agree go along one function.** -/
theorem isWay (hl : front ++ l ∈ lists) : IsWay (fun a => (behind lists a).head?) l := by
  induction l generalizing front with
  | nil => trivial
  | cons a l ih =>
    have further : (front ++ [a]) ++ l ∈ lists := by rwa [List.append_assoc]
    exact ⟨congrArg List.head? (h.behind_eq hl), ih further⟩

theorem falls (next : (behind lists a).head? = some p) :
    (behind lists p).length < (behind lists a).length := by
  cases first : lists.find? fun gs => a ∈ gs with
  | none =>
    rw [behind, first] at next
    cases next
  | some gs =>
    have named : a ∈ gs := by simpa using List.find?_some first
    obtain ⟨front, l, rfl⟩ := List.append_of_mem named
    have hl := List.mem_of_find?_eq_some first
    rw [h.behind_eq hl] at next ⊢
    obtain ⟨l, rfl⟩ := List.head?_eq_some_iff.mp next
    have further : (front ++ [a]) ++ p :: l ∈ lists := by rwa [List.append_assoc]
    rw [h.behind_eq further]
    exact Nat.lt_succ_self _

end Consistent

end Consistent

end Drawbridge
