import Drawbridge.Proofs.Graph.Groups
import Drawbridge.Proofs.Graph.Reading

/-!
The table of blocks. Whatever groups the shapes of a scene name, the blocks are numbered, and shown
under the display labels of their groups (`Named`, `readGraph_named`).

The table is a function of the lists of groups under which nodes are entered: it has a block for
every group, in the order of first mention, that lists the nodes entered under the group, each once,
and lies in the block of the group around it (`foldl_addMember`). What is around a group is what the
lists put around it one after the other (`around`); where they all go along one function, it is what
that function gives (`foldl_addMember_ways`).
-/

namespace Drawbridge

/-! ## Any groups -/

theorem blockName_injective {i j : Nat} (h : blockName i = blockName j) : i = j := by
  have := decimal_injective (List.cons.inj h).2
  omega

theorem blockName_isName (i : Nat) : IsName (blockName i) :=
  isName_numbered (by decide) (i + 1)

/-- What a block shows: the display label of its group, or its name. -/
def titleOf (labels : Dictionary Text) (sourceId name : Text) : Text :=
  match labels.get? sourceId with
  | some (c :: l) => c :: l
  | _ => name

theorem titleOf_cases (labels : Dictionary Text) (sourceId name : Text) :
    titleOf labels sourceId name = name ∨ titleOf labels sourceId name ≠ [] ∧
      labels.get? sourceId = some (titleOf labels sourceId name) := by
  unfold titleOf
  split
  · rename_i c l found
    exact .inr ⟨List.cons_ne_nil c l, found⟩
  · exact .inl rfl

theorem titleOf_eq {labels : Dictionary Text} {sourceId l : Text}
    (found : labels.get? sourceId = some l) (full : l ≠ []) (name : Text) :
    titleOf labels sourceId name = l := by
  obtain ⟨c, r, rfl⟩ := List.exists_cons_of_ne_nil full
  rw [titleOf, found]

namespace BlockTable

/-- The blocks are numbered, and show the titles of their groups. -/
structure Named (labels : Dictionary Text) (t : BlockTable) : Prop where
  names : t.map (·.name) = (List.range t.length).map blockName
  titles : ∀ b ∈ t, b.label = titleOf labels b.sourceId b.name

/-- What a block is known by. -/
def face (b : Block) : Text × Text × Text :=
  (b.name, b.label, b.sourceId)

namespace Named

variable {labels : Dictionary Text} {t : BlockTable}

theorem isName (h : Named labels t) {b : Block} (hb : b ∈ t) : IsName b.name := by
  have listed := List.mem_map_of_mem hb (f := (·.name))
  rw [h.names] at listed
  obtain ⟨k, -, hk⟩ := List.mem_map.mp listed
  exact hk ▸ blockName_isName k

theorem nodup (h : Named labels t) : (t.map (·.name)).Nodup := by
  rw [h.names]
  exact List.Nodup.map (fun _ _ => blockName_injective) List.nodup_range

theorem of_faces (h : Named labels t) {t' : BlockTable} (same : t'.map face = t.map face) :
    Named labels t' := by
  constructor
  · have names := congrArg (List.map Prod.fst) same
    have length := congrArg List.length same
    simp only [List.map_map, List.length_map] at names length
    rw [length, ← h.names]
    exact names
  · intro b hb
    have seen : face b ∈ t.map face := same ▸ List.mem_map_of_mem hb
    obtain ⟨c, hc, heq⟩ := List.mem_map.mp seen
    obtain ⟨name, rest⟩ := Prod.mk.inj heq
    obtain ⟨label, sourceId⟩ := Prod.mk.inj rest
    rw [← name, ← label, ← sourceId]
    exact h.titles c hc

theorem ensure (h : Named labels t) (g : Text) : Named labels (t.ensure labels g) := by
  unfold BlockTable.ensure
  split
  · exact h
  · constructor
    · rw [List.map_append, h.names, List.length_append, List.length_singleton, List.range_succ,
        List.map_append]
      rfl
    · intro b hb
      rcases List.mem_append.mp hb with hb | hb
      · exact h.titles b hb
      · rw [List.mem_singleton.mp hb]
        rfl

end Named

theorem map_face_update (t : BlockTable) (g : Text) {f : Block → Block}
    (same : ∀ b, face (f b) = face b) : (t.update g f).map face = t.map face := by
  rw [update, List.map_map]
  apply List.map_congr_left
  intro b _
  show face (if _ then _ else _) = face b
  split
  · exact same b
  · rfl

theorem face_addNode (n : Text) (b : Block) : face (addNode n b) = face b := by
  unfold addNode
  split <;> rfl

theorem map_face_nestAll (t : BlockTable) (gs : List Text) :
    (t.nestAll gs).map face = t.map face := by
  have once (t : BlockTable) (a b : Text) : (t.nest a b).map face = t.map face := by
    unfold nest
    split
    · split
      · exact map_face_update t a fun _ => rfl
      · rfl
    · rfl
  fun_induction nestAll t gs with
  | case1 t a b rest ih => rw [ih, once]
  | case2 => rfl

/-- **Whatever groups a node is entered under, the blocks stay numbered and titled.** -/
theorem Named.addMember {labels : Dictionary Text} {t : BlockTable} (h : Named labels t)
    (gs : List Text) (n : Text) : Named labels (t.addMember labels gs n).1 := by
  apply of_faces (t := gs.foldl (fun t g => update (BlockTable.ensure labels t g) g (addNode n)) t)
  · induction gs generalizing t with
    | nil => exact h
    | cons g gs ih => exact ih ((h.ensure g).of_faces (map_face_update _ g (face_addNode n)))
  · exact map_face_nestAll _ gs

end BlockTable

namespace BlockTable

/-- The name of the block that the block with a name lies in. -/
def outward? (t : BlockTable) (name : Text) : Option Text :=
  (named? t name).bind (·.parent)

/-- The search outwards goes along the parents, as far as its bound allows. -/
theorem encloses_iff {t : BlockTable} {name current : Text} {fuel : Nat} :
    encloses t name fuel current = true ↔ ∃ k ≤ fuel, climb (outward? t) k current = some name := by
  induction fuel generalizing current with
  | zero => simp [encloses, climb]
  | succ fuel ih =>
    have next : (named? t current).bind (·.parent) = outward? t current := rfl
    rw [encloses, next, Bool.or_eq_true, decide_eq_true_eq]
    constructor
    · rintro (rfl | onwards)
      · exact ⟨0, Nat.zero_le _, rfl⟩
      · cases hp : outward? t current with
        | none =>
          rw [hp] at onwards
          cases onwards
        | some p =>
          rw [hp] at onwards
          obtain ⟨k, bound, way⟩ := ih.mp onwards
          exact ⟨k + 1, Nat.succ_le_succ bound, by rw [climb, hp, Option.bind_some, way]⟩
    · rintro ⟨_ | k, bound, way⟩
      · exact .inl (Option.some.inj way)
      · obtain ⟨p, hp, rest⟩ := Option.bind_eq_some_iff.mp way
        rw [hp]
        exact .inr (ih.mpr ⟨k, Nat.le_of_succ_le_succ bound, rest⟩)

section Groups

variable {κ : Type} [DecidableEq κ] {labels : Dictionary Text} {id : κ → Text}
  {keys known : List κ} {lists : κ → List Text} {outer : κ → Option κ} {k : κ} {n : Text}

/-- The block of a group among all groups, with the nodes it lists and the group around it. -/
def blockAt (labels : Dictionary Text) (id : κ → Text) (keys : List κ) (lists : κ → List Text)
    (outer : κ → Option κ) (k : κ) : Block where
  name := blockName (keys.idxOf k)
  label := titleOf labels (id k) (blockName (keys.idxOf k))
  nodeIds := lists k
  sourceId := id k
  parent := (outer k).map fun p => blockName (keys.idxOf p)

def tableOf (labels : Dictionary Text) (id : κ → Text) (keys : List κ) (lists : κ → List Text)
    (outer : κ → Option κ) : BlockTable :=
  keys.map (blockAt labels id keys lists outer)

theorem idxOf_inj_of_name {a b : κ} (ha : a ∈ keys)
    (same : blockName (keys.idxOf a) = blockName (keys.idxOf b)) : a = b :=
  (List.idxOf_inj ha).mp (blockName_injective same)

theorem find?_map_of_inj {α : Type} {f : κ → α} {p : α → Bool} (hk : k ∈ keys)
    (own : ∀ a ∈ keys, p (f a) = true ↔ a = k) : (keys.map f).find? p = some (f k) := by
  induction keys with
  | nil => cases hk
  | cons a l ih =>
    by_cases here : a = k
    · rw [List.map_cons, List.find?_cons_of_pos ((own a List.mem_cons_self).mpr here), here]
    · rw [List.map_cons, List.find?_cons_of_neg (mt (own a List.mem_cons_self).mp here)]
      exact ih (List.mem_of_ne_of_mem (Ne.symm here) hk)
        fun b hb => own b (List.mem_cons_of_mem a hb)

theorem find?_tableOf (inj : ∀ a ∈ keys, id a = id k → a = k) (hk : k ∈ keys) :
    find? (tableOf labels id keys lists outer) (id k) =
      some (blockAt labels id keys lists outer k) := by
  apply find?_map_of_inj hk
  intro a ha
  rw [decide_eq_true_eq]
  exact ⟨inj a ha, fun same => same ▸ rfl⟩

theorem find?_tableOf_eq_none (inj : ∀ a ∈ keys, id a = id k → a = k) (hk : k ∉ keys) :
    find? (tableOf labels id keys lists outer) (id k) = none := by
  rw [find?, List.find?_eq_none]
  intro b hb
  obtain ⟨a, ha, rfl⟩ := List.mem_map.mp hb
  rw [decide_eq_true_eq]
  exact fun same => hk (inj a ha same ▸ ha)

theorem named?_tableOf (hk : k ∈ keys) :
    named? (tableOf labels id keys lists outer) (blockName (keys.idxOf k)) =
      some (blockAt labels id keys lists outer k) := by
  apply find?_map_of_inj hk
  intro a ha
  rw [decide_eq_true_eq]
  exact ⟨idxOf_inj_of_name ha, fun same => same ▸ rfl⟩

theorem tableOf_congr {lists' : κ → List Text} {outer' : κ → Option κ}
    (same : ∀ a ∈ keys, lists a = lists' a ∧ outer a = outer' a) :
    tableOf labels id keys lists outer = tableOf labels id keys lists' outer' := by
  apply List.map_congr_left
  intro a ha
  rw [blockAt, blockAt, (same a ha).1, (same a ha).2]

theorem update_tableOf (inj : ∀ a ∈ keys, id a = id k → a = k) {f : Block → Block}
    {lists' : κ → List Text} {outer' : κ → Option κ}
    (here : f (blockAt labels id keys lists outer k) = blockAt labels id keys lists' outer' k)
    (others : ∀ a, a ≠ k → lists a = lists' a ∧ outer a = outer' a) :
    (tableOf labels id keys lists outer).update (id k) f =
      tableOf labels id keys lists' outer' := by
  rw [update, tableOf, List.map_map]
  apply List.map_congr_left
  intro a ha
  show (if id a = id k then _ else _) = _
  by_cases same : a = k
  · rw [same, if_pos rfl, here]
  · rw [if_neg fun h => same (inj a ha h), blockAt, blockAt, (others a same).1,
      (others a same).2]

/-! ### One list of groups -/

theorem ensure_tableOf {m : List κ} (inj : ∀ a ∈ m, id a = id k → a = k)
    (blank : k ∉ m → lists k = [] ∧ outer k = none) (closed : ∀ a p, outer a = some p → p ∈ m) :
    ensure labels (tableOf labels id m.eraseDups lists outer) (id k) =
      tableOf labels id (m ++ [k]).eraseDups lists outer := by
  have inj' : ∀ a ∈ m.eraseDups, id a = id k → a = k :=
    fun a ha => inj a (List.mem_eraseDups.mp ha)
  by_cases old : k ∈ m
  · rw [eraseDups_concat, if_pos old, ensure, find?_tableOf inj' (List.mem_eraseDups.mpr old)]
  · have new : k ∉ m.eraseDups := fun h => old (List.mem_eraseDups.mp h)
    have kept : ∀ p ∈ m, (m.eraseDups ++ [k]).idxOf p = m.eraseDups.idxOf p :=
      fun p hp => List.idxOf_append_of_mem (List.mem_eraseDups.mpr hp)
    have before : tableOf labels id m.eraseDups lists outer =
        m.eraseDups.map (blockAt labels id (m.eraseDups ++ [k]) lists outer) := by
      apply List.map_congr_left
      intro a ha
      have parent : (outer a).map (fun p => blockName (m.eraseDups.idxOf p)) =
          (outer a).map fun p => blockName ((m.eraseDups ++ [k]).idxOf p) := by
        cases hp : outer a with
        | none => rfl
        | some p => rw [Option.map_some, Option.map_some, kept p (closed a p hp)]
      rw [blockAt, blockAt, kept a (List.mem_eraseDups.mp ha), parent]
    have last : (m.eraseDups ++ [k]).idxOf k = m.eraseDups.length := by
      rw [List.idxOf_append_of_notMem new]
      simp
    have own : blockAt labels id (m.eraseDups ++ [k]) lists outer k =
        { name := blockName m.eraseDups.length,
          label := titleOf labels (id k) (blockName m.eraseDups.length), sourceId := id k } := by
      rw [blockAt, last, (blank old).1, (blank old).2]
      rfl
    have length : (tableOf labels id m.eraseDups lists outer).length = m.eraseDups.length :=
      List.length_map _
    rw [eraseDups_concat, if_neg old, ensure, find?_tableOf_eq_none inj' new]
    show _ ++ [Block.mk _ _ _ _ _] = List.map _ _
    rw [length, List.map_append, ← before, List.map_singleton, own]
    rfl

/-- A list with an entry, which comes last unless it is there already. -/
def addOnce (n : Text) (l : List Text) : List Text :=
  if n ∈ l then l else l ++ [n]

theorem addOnce_addOnce (n : Text) (l : List Text) : addOnce n (addOnce n l) = addOnce n l := by
  have there : n ∈ addOnce n l := by
    unfold addOnce
    split
    · assumption
    · exact List.mem_append_right l List.mem_cons_self
  exact if_pos there

theorem enter_tableOf {m : List κ} (inj : ∀ a ∈ m, id a = id k → a = k)
    (blank : k ∉ m → lists k = [] ∧ outer k = none)
    (closed : ∀ a p, outer a = some p → p ∈ m) :
    (ensure labels (tableOf labels id m.eraseDups lists outer) (id k)).update (id k) (addNode n) =
      tableOf labels id (m ++ [k]).eraseDups (Function.update lists k (addOnce n (lists k)))
        outer := by
  rw [ensure_tableOf inj blank closed]
  apply update_tableOf
  · intro a ha
    rcases List.mem_append.mp (List.mem_eraseDups.mp ha) with ha | ha
    · exact inj a ha
    · exact fun _ => List.mem_singleton.mp ha
  · rw [addNode, blockAt, blockAt, Function.update_self, addOnce]
    split <;> rfl
  · exact fun a other => ⟨(Function.update_of_ne other _ _).symm, rfl⟩

theorem foldl_enter {m gs : List κ} (inj : ∀ a ∈ m ++ gs, ∀ b ∈ m ++ gs, id a = id b → a = b)
    (blank : ∀ a, a ∉ m → lists a = [] ∧ outer a = none)
    (closed : ∀ a p, outer a = some p → p ∈ m) :
    (gs.map id).foldl (fun t g => update (ensure labels t g) g (addNode n))
        (tableOf labels id m.eraseDups lists outer) =
      tableOf labels id (m ++ gs).eraseDups
        (fun a => if a ∈ gs then addOnce n (lists a) else lists a) outer := by
  induction gs generalizing m lists with
  | nil => simp
  | cons k gs ih =>
    have listed : k ∈ m ++ k :: gs := List.mem_append_right m List.mem_cons_self
    have inner (a : κ) (ha : a ≠ k) :
        Function.update lists k (addOnce n (lists k)) a = lists a :=
      Function.update_of_ne ha _ _
    rw [List.map_cons, List.foldl_cons,
      enter_tableOf (fun a ha => inj a (List.mem_append_left _ ha) k listed) (blank k) closed, ih]
    · rw [List.append_assoc, List.singleton_append]
      congr 1
      funext a
      by_cases here : a = k
      · subst here
        rw [if_pos List.mem_cons_self, Function.update_self, addOnce_addOnce, ite_self]
      · simp only [inner a here, List.mem_cons, here, false_or]
    · rw [List.append_assoc, List.singleton_append]
      exact inj
    · intro a ha
      rw [List.mem_append, List.mem_singleton, not_or] at ha
      rw [inner a ha.2]
      exact blank a ha.1
    · exact fun a p hp => List.mem_append_left _ (closed a p hp)

theorem climb_tableOf (closed : ∀ a p, outer a = some p → p ∈ keys) {q : κ} (hq : q ∈ keys)
    (j : Nat) : climb (outward? (tableOf labels id keys lists outer)) j (blockName (keys.idxOf q)) =
      (climb outer j q).map fun p => blockName (keys.idxOf p) := by
  induction j generalizing q with
  | zero => rfl
  | succ j ih =>
    have next : outward? (tableOf labels id keys lists outer) (blockName (keys.idxOf q)) =
        (outer q).map fun p => blockName (keys.idxOf p) := by
      rw [outward?, named?_tableOf hq]
      rfl
    rw [climb, climb, next]
    cases hp : outer q with
    | none => rfl
    | some p => exact ih (closed q p hp)

/-- A way outwards leads to a block just where it leads to its group. -/
theorem climb_tableOf_eq_some (closed : ∀ a p, outer a = some p → p ∈ keys) {a q : κ}
    (hq : q ∈ keys) (j : Nat) :
    climb (outward? (tableOf labels id keys lists outer)) j (blockName (keys.idxOf q)) =
      some (blockName (keys.idxOf a)) ↔ climb outer j q = some a := by
  rw [climb_tableOf closed hq, Option.map_eq_some_iff]
  constructor
  · rintro ⟨p, way, same⟩
    have hp := climb_mem (fun x _ y hy => closed x y hy) hq way
    rw [way, idxOf_inj_of_name hp same]
  · exact fun way => ⟨a, way, rfl⟩

/-- **A group is put into the next one as if there were no blocks.** -/
theorem nest_tableOf (inj : ∀ a ∈ keys, ∀ b ∈ keys, id a = id b → a = b)
    (closed : ∀ a p, outer a = some p → p ∈ keys) {a b : κ} (ha : a ∈ keys) (hb : b ∈ keys) :
    nest (tableOf labels id keys lists outer) (id a) (id b) =
      tableOf labels id keys lists (put outer a b) := by
  have inner : find? (tableOf labels id keys lists outer) (id a) = some _ :=
    find?_tableOf (fun c hc => inj c hc a ha) ha
  have around : find? (tableOf labels id keys lists outer) (id b) = some _ :=
    find?_tableOf (fun c hc => inj c hc b hb) hb
  have length : (tableOf labels id keys lists outer).length = keys.length := List.length_map _
  have loops : encloses (tableOf labels id keys lists outer) (blockName (keys.idxOf a)) keys.length
      (blockName (keys.idxOf b)) = true ↔ ∃ k, climb outer k b = some a := by
    simp only [encloses_iff, climb_tableOf_eq_some closed hb]
    constructor
    · rintro ⟨k, -, way⟩
      exact ⟨k, way⟩
    · rintro ⟨k, way⟩
      obtain ⟨j, short, way⟩ := exists_short keys (fun x _ y hy => closed x y hy) hb way
      exact ⟨j, Nat.le_of_lt short, way⟩
  have free : ((outer a).map fun p => blockName (keys.idxOf p)).isNone = true ↔ outer a = none := by
    cases outer a <;> simp
  have change : update (tableOf labels id keys lists outer) (id a)
      (fun c => { c with parent := some (blockName (keys.idxOf b)) }) =
        tableOf labels id keys lists (Function.update outer a (some b)) := by
    apply update_tableOf fun c hc => inj c hc a ha
    · simp only [blockAt, Function.update_self]
      rfl
    · exact fun c other => ⟨rfl, (Function.update_of_ne other _ _).symm⟩
  rw [nest, inner, around, put]
  show (if ((outer a).map _).isNone && !encloses _ (blockName _) _ (blockName _) then
    update _ _ _ else _) = _
  rw [length]
  by_cases apart : outer a = none ∧ ∀ k, climb outer k b ≠ some a
  · have outside := mt loops.mp (not_exists.mpr apart.2)
    rw [if_pos apart, if_pos (by simpa [free.mpr apart.1] using outside)]
    exact change
  · rw [if_neg apart, if_neg]
    intro both
    rw [Bool.and_eq_true, Bool.not_eq_true', free, ← Bool.not_eq_true] at both
    exact apart ⟨both.1, fun k way => both.2 (loops.mpr ⟨k, way⟩)⟩

/-- **The groups of a list are put into one another as if there were no blocks.** -/
theorem nestAll_tableOf (inj : ∀ a ∈ keys, ∀ b ∈ keys, id a = id b → a = b)
    (closed : ∀ a p, outer a = some p → p ∈ keys) {gs : List κ} (listed : ∀ a ∈ gs, a ∈ keys) :
    nestAll (tableOf labels id keys lists outer) (gs.map id) =
      tableOf labels id keys lists (putAll outer gs) := by
  fun_induction putAll outer gs with
  | case1 outer a b rest ih =>
    have ha := listed a List.mem_cons_self
    have hb := listed b (List.mem_cons_of_mem a List.mem_cons_self)
    rw [List.map_cons, List.map_cons, nestAll, nest_tableOf inj closed ha hb, ← List.map_cons]
    refine ih ?_ fun c hc => listed c (List.mem_cons_of_mem a hc)
    intro c p hp
    rcases put_cases hp with old | ⟨-, rfl⟩
    · exact closed c p old
    · exact hb
  | case2 gs outer short =>
    rw [nestAll]
    intro a b rest same
    obtain ⟨a', l, rfl, -, rest_eq⟩ := List.map_eq_cons_iff.mp same
    obtain ⟨b', l', rfl, -, -⟩ := List.map_eq_cons_iff.mp rest_eq
    exact short a' b' l' rfl

/-! ### All lists of groups -/

/-- The groups that are mentioned, in the order of first mention. -/
def mentioned {ν : Type} (items : List (List κ × ν)) : List κ :=
  (items.flatMap Prod.fst).eraseDups

def groupName {ν : Type} (items : List (List κ × ν)) (a : κ) : Text :=
  blockName ((mentioned items).idxOf a)

/-- The nodes that are entered under a group. -/
def enteredUnder (items : List (List κ × Text)) (a : κ) : List Text :=
  (items.filter fun x => a ∈ x.1).map Prod.snd

def blockFor (labels : Dictionary Text) (id : κ → Text) (items : List (List κ × Text))
    (outer : κ → Option κ) (a : κ) : Block :=
  blockAt labels id (mentioned items) (enteredUnder items) outer a

def tableFor (labels : Dictionary Text) (id : κ → Text) (items : List (List κ × Text))
    (outer : κ → Option κ) : BlockTable :=
  (mentioned items).map (blockFor labels id items outer)

theorem mem_mentioned {ν : Type} {items : List (List κ × ν)} {a : κ} :
    a ∈ mentioned items ↔ ∃ x ∈ items, a ∈ x.1 := by
  rw [mentioned, List.mem_eraseDups, List.mem_flatMap]

theorem idxOf_mentioned_append {ν : Type} {items : List (List κ × ν)} {a : κ}
    (ha : a ∈ mentioned items) (more : List (List κ × ν)) :
    (mentioned (items ++ more)).idxOf a = (mentioned items).idxOf a := by
  rw [mentioned, List.flatMap_append, List.eraseDups_append]
  exact List.idxOf_append_of_mem ha

theorem filter_mentioned {ν : Type} (items : List (List κ × ν)) (p : κ → Bool) :
    (mentioned items).filter p = ((items.flatMap Prod.fst).filter p).eraseDups :=
  filter_eraseDups p _

/-- **Groups under other names are mentioned in the same order: their blocks are named alike.** -/
theorem groupName_map {κ' ν ν' : Type} [DecidableEq κ'] {items : List (List κ × ν)}
    {items' : List (List κ' × ν')} {f : κ → κ'}
    (inj : ∀ a ∈ mentioned items, ∀ b ∈ mentioned items, f a = f b → a = b)
    (same : items'.flatMap Prod.fst = (items.flatMap Prod.fst).map f) {a : κ}
    (ha : a ∈ mentioned items) : groupName items' (f a) = groupName items a := by
  have order : mentioned items' = (mentioned items).map f := by
    rw [mentioned, same]
    exact (map_eraseDups fun a ha b hb => inj a (List.mem_eraseDups.mpr ha) b
      (List.mem_eraseDups.mpr hb)).symm
  have first : (mentioned items).Nodup := nodup_eraseDups _
  have second : ((mentioned items).map f).Nodup := first.map_on inj
  obtain ⟨k, hk, rfl⟩ := List.getElem_of_mem ha
  have bound : k < ((mentioned items).map f).length := by rwa [List.length_map]
  have place := second.idxOf_getElem k bound
  rw [List.getElem_map] at place
  rw [groupName, groupName, order, place, first.idxOf_getElem k hk]

/-- What is around a group, once the lists of all nodes have been gone through. -/
noncomputable def around {ν : Type} (items : List (List κ × ν)) : κ → Option κ :=
  items.foldl (fun outer x => putAll outer x.1) fun _ => none

theorem around_concat {ν : Type} (items : List (List κ × ν)) (x : List κ × ν) :
    around (items ++ [x]) = putAll (around items) x.1 := by
  rw [around, List.foldl_append]
  rfl

/-- A group that has a place keeps it. -/
theorem around_append {ν : Type} {items : List (List κ × ν)} {a p : κ}
    (h : around items a = some p) (more : List (List κ × ν)) :
    around (items ++ more) a = some p := by
  induction more using List.reverseRecOn with
  | nil => rwa [List.append_nil]
  | append_singleton more x ih =>
    rw [← List.append_assoc, around_concat]
    exact putAll_keeps ih

/-- Groups lie in groups that stand next to them in a list. -/
theorem around_cases {ν : Type} {items : List (List κ × ν)} {a p : κ}
    (h : around items a = some p) : ∃ x ∈ items, [a, p] <:+: x.1 := by
  induction items using List.reverseRecOn with
  | nil => cases h
  | append_singleton items x ih =>
    rw [around_concat] at h
    rcases putAll_cases h with old | now
    · obtain ⟨y, hy, next⟩ := ih old
      exact ⟨y, List.mem_append_left _ hy, next⟩
    · exact ⟨x, List.mem_append_right _ List.mem_cons_self, now⟩

theorem around_mem {ν : Type} {items : List (List κ × ν)} {a p : κ}
    (h : around items a = some p) : a ∈ mentioned items ∧ p ∈ mentioned items := by
  obtain ⟨x, hx, next⟩ := around_cases h
  exact ⟨mem_mentioned.mpr ⟨x, hx, next.mem (by simp)⟩,
    mem_mentioned.mpr ⟨x, hx, next.mem (by simp)⟩⟩

/-- **No group lies in itself, whatever the lists are.** -/
theorem around_acyclic {ν : Type} (items : List (List κ × ν)) : Acyclic (around items) := by
  induction items using List.reverseRecOn with
  | nil => exact fun a k => Option.some_ne_none a ∘ Eq.symm
  | append_singleton items x ih =>
    rw [around_concat]
    exact ih.putAll x.1

theorem enteredUnder_concat (items : List (List κ × Text)) (x : List κ × Text) (a : κ) :
    enteredUnder (items ++ [x]) a =
      if a ∈ x.1 then enteredUnder items a ++ [x.2] else enteredUnder items a := by
  unfold enteredUnder
  rw [List.filter_append, List.map_append]
  by_cases here : a ∈ x.1 <;> simp [here]

/-- A node is entered under the groups of its list. -/
theorem mem_enteredUnder {items : List (List κ × Text)} (distinct : (items.map Prod.snd).Nodup)
    {x : List κ × Text} (hx : x ∈ items) (a : κ) : x.2 ∈ enteredUnder items a ↔ a ∈ x.1 := by
  constructor
  · intro h
    obtain ⟨y, hy, same⟩ := List.mem_map.mp h
    obtain ⟨hy, listed⟩ := List.mem_filter.mp hy
    exact List.inj_on_of_nodup_map distinct hy hx same ▸ of_decide_eq_true listed
  · exact fun listed => List.mem_map_of_mem (List.mem_filter.mpr ⟨hx, decide_eq_true listed⟩)

/-- **The table of nodes that are entered under any groups.** -/
theorem foldl_addMember {items : List (List κ × Text)}
    (inj : ∀ a ∈ mentioned items, ∀ b ∈ mentioned items, id a = id b → a = b) :
    items.foldl (fun t x => (addMember labels t (x.1.map id) x.2).1) [] =
      tableOf labels id (mentioned items) (fun a => (enteredUnder items a).eraseDups)
        (around items) := by
  induction items using List.reverseRecOn with
  | nil => rfl
  | append_singleton items x ih =>
    obtain ⟨gs, n⟩ := x
    have mentions : mentioned (items ++ [(gs, n)]) = (items.flatMap Prod.fst ++ gs).eraseDups := by
      rw [mentioned, List.flatMap_append, List.flatMap_singleton]
    have wider : ∀ a ∈ mentioned items, a ∈ (items.flatMap Prod.fst ++ gs).eraseDups :=
      fun a ha => List.mem_eraseDups.mpr (List.mem_append_left gs (List.mem_eraseDups.mp ha))
    rw [mentions] at inj
    have closed : ∀ a p, around items a = some p → p ∈ items.flatMap Prod.fst :=
      fun a p hp => List.mem_eraseDups.mp (around_mem hp).2
    have blank : ∀ a, a ∉ items.flatMap Prod.fst →
        (enteredUnder items a).eraseDups = [] ∧ around items a = none := by
      intro a ha
      constructor
      · have none_entered : enteredUnder items a = [] := by
          simp only [enteredUnder, List.map_eq_nil_iff, List.filter_eq_nil_iff, decide_eq_true_eq]
          exact fun x hx hm => ha (List.mem_flatMap.mpr ⟨x, hx, hm⟩)
        rw [none_entered, List.eraseDups_nil]
      · rw [Option.eq_none_iff_forall_ne_some]
        exact fun p hp => ha (List.mem_eraseDups.mp (around_mem hp).1)
    have inj' : ∀ a ∈ items.flatMap Prod.fst ++ gs, ∀ b ∈ items.flatMap Prod.fst ++ gs,
        id a = id b → a = b :=
      fun a ha b hb => inj a (List.mem_eraseDups.mpr ha) b (List.mem_eraseDups.mpr hb)
    rw [List.foldl_append, ih fun a ha b hb => inj a (wider a ha) b (wider b hb), List.foldl_cons,
      List.foldl_nil, addMember, mentioned, foldl_enter inj' blank closed]
    show nestAll _ _ = _
    rw [nestAll_tableOf inj (fun a p hp => wider p (around_mem hp).2)
        fun a ha => List.mem_eraseDups.mpr (List.mem_append_right _ ha), around_concat, mentions]
    apply tableOf_congr
    intro a _
    refine ⟨?_, rfl⟩
    rw [enteredUnder_concat]
    by_cases here : a ∈ gs
    · simp only [if_pos here, eraseDups_concat, addOnce, List.mem_eraseDups]
    · simp only [if_neg here]

section Ways

variable {whole : κ → Option κ} {rank : κ → Nat}

/-- What is around a mentioned group is mentioned. -/
theorem mentioned_outer {ν : Type} {items : List (List κ × ν)}
    (ways : ∀ x ∈ items, IsWay whole x.1) {a p : κ} (ha : a ∈ mentioned items)
    (hp : whole a = some p) : p ∈ mentioned items := by
  obtain ⟨x, hx, ha⟩ := mem_mentioned.mp ha
  exact mem_mentioned.mpr ⟨x, hx, (ways x hx).outer_mem ha hp⟩

/-- Where all lists are ways along one function, that function gives what is around. -/
theorem around_of_ways {ν : Type} {items : List (List κ × ν)}
    (falls : ∀ a p, whole a = some p → rank p < rank a) (ways : ∀ x ∈ items, IsWay whole x.1) :
    around items = fun a => if a ∈ mentioned items then whole a else none := by
  induction items using List.reverseRecOn with
  | nil => rfl
  | append_singleton items x ih =>
    have before : around items = _ := ih fun y hy => ways y (List.mem_append_left _ hy)
    have follows : ∀ a p, around items a = some p → whole a = some p := by
      intro a p hp
      rw [before] at hp
      dsimp only at hp
      split at hp
      · exact hp
      · cases hp
    have last := ways x (List.mem_append_right _ List.mem_cons_self)
    have known (a : κ) : a ∈ mentioned (items ++ [x]) ↔ a ∈ x.1 ∨ a ∈ mentioned items := by
      simp only [mem_mentioned, List.mem_append, List.mem_singleton]
      constructor
      · rintro ⟨y, hy | rfl, ha⟩
        · exact .inr ⟨y, hy, ha⟩
        · exact .inl ha
      · rintro (ha | ⟨y, hy, ha⟩)
        · exact ⟨x, .inr rfl, ha⟩
        · exact ⟨y, .inl hy, ha⟩
    rw [around_concat, putAll_of_way falls follows last, before]
    funext a
    by_cases here : a ∈ x.1 <;> simp [known, here]

/-- **The table of different nodes that are entered under ways.** -/
theorem foldl_addMember_ways {items : List (List κ × Text)}
    (inj : ∀ a ∈ mentioned items, ∀ b ∈ mentioned items, id a = id b → a = b)
    (falls : ∀ a p, whole a = some p → rank p < rank a)
    (ways : ∀ x ∈ items, IsWay whole x.1) (distinct : (items.map Prod.snd).Nodup) :
    items.foldl (fun t x => (addMember labels t (x.1.map id) x.2).1) [] =
      tableFor labels id items whole := by
  rw [foldl_addMember inj, around_of_ways falls ways]
  apply tableOf_congr
  intro a ha
  have once : (enteredUnder items a).Nodup := distinct.sublist (List.filter_sublist.map Prod.snd)
  exact ⟨eraseDups_of_nodup once, if_pos ha⟩

end Ways

end Groups

end BlockTable

/-! ## Scenes -/

/-- The shapes of a scene as members: the groups of each, and the name of its node. -/
def sceneMembers (scene : List Element) : List (List Text × Text) :=
  (sceneShapes scene).mapIdx fun k i => (i.element.groupIds, nodeName k)

theorem foldl_addShape_blocks (labels : Dictionary Text) (texts : List TextItem)
    {items : List ShapeItem} (st : ReadState)
    (distinct : (st.ids ++ items.map (·.element.id)).Nodup) :
    (items.foldl (ReadState.addShape labels texts) st).blocks =
      (items.mapIdx fun k i => (i.element.groupIds, nodeName (k + st.ids.length))).foldl
        (fun t x => (BlockTable.addMember labels t x.1 x.2).1) st.blocks := by
  induction items generalizing st with
  | nil => rfl
  | cons i items ih =>
    rw [List.map_cons] at distinct
    have new : i.element.id ∉ st.ids :=
      fun old => List.disjoint_of_nodup_append distinct old List.mem_cons_self
    rw [List.foldl_cons, addShape_eq labels texts new, ih _ (by simpa using distinct),
      List.mapIdx_cons, List.foldl_cons, Nat.zero_add]
    simp only [List.length_append, List.length_singleton, Nat.add_assoc, Nat.add_comm 1]

/-- **The blocks of a scene are what its shapes are entered under.** -/
theorem readGraph_blocks {scene : List Element} (h : Readable scene)
    (distinct : ((sceneShapes scene).map (·.element.id)).Nodup) {labels : Dictionary Text}
    {g : Graph} (read : readGraph scene labels = .ok g) :
    g.blocks = (sceneMembers scene).foldl
      (fun t x => (BlockTable.addMember labels t x.1 x.2).1) [] := by
  rw [readGraph_ok h distinct] at read
  cases read
  exact foldl_addShape_blocks labels (sceneTexts scene) {} (by simpa using distinct)

/-- **The blocks of a scene are numbered, and show the titles of their groups.** -/
theorem readGraph_named {scene : List Element} {labels : Dictionary Text} {g : Graph}
    (read : readGraph scene labels = .ok g) : BlockTable.Named labels g.blocks := by
  have kept : ∀ (items : List ShapeItem) (st : ReadState), BlockTable.Named labels st.blocks →
      BlockTable.Named labels
        (items.foldl (ReadState.addShape labels (sceneTexts scene)) st).blocks := by
    intro items
    induction items with
    | nil => exact fun st h => h
    | cons i items ih => exact fun st h => ih _ (h.addMember i.element.groupIds _)
  rw [(readGraph_eq_ok_iff.mp read).2]
  exact kept (sceneShapes scene) {} ⟨rfl, by simp⟩

end Drawbridge
