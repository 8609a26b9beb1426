import Drawbridge.Proofs.Diagram.Forest
import Drawbridge.Proofs.Graph.Blocks

/-!
A forest as it is read back node by node. Every node comes with the blocks around it, innermost
first (`Forest.entries`), and the blocks are known in the order in which they are first mentioned.
That order keeps enough of the forest: where every block holds a node (`Forest.Full`), the outermost
blocks and those directly in a block are mentioned in the order in which they were written
(`filter_mentions_roots`, `Grown.filter_mentions`), and so are the nodes directly in a block
(`Grown.filter_nodes`).
-/

namespace Drawbridge.Forest

variable {β β' ν ν' : Type}

/-! ## Renaming -/

def map (f : β → β') (g : ν → ν') : Forest β ν → Forest β' ν'
  | nil => nil
  | cons b inner ms rest => cons (f b) (inner.map f g) (ms.map g) (rest.map f g)

section Map

variable (f : β → β') (g : ν → ν') (t : Forest β ν)

theorem roots_map : (t.map f g).roots = t.roots.map f := by
  induction t with
  | nil => rfl
  | cons b inner ms rest _ ih => exact congrArg (f b :: ·) ih

theorem blocks_map : (t.map f g).blocks = t.blocks.map f := by
  induction t with
  | nil => rfl
  | cons b inner ms rest innerIh restIh => simp [map, blocks, innerIh, restIh]

theorem nodes_map : (t.map f g).nodes = t.nodes.map g := by
  induction t with
  | nil => rfl
  | cons b inner ms rest innerIh restIh => simp [map, nodes, innerIh, restIh]

theorem held_map (around : Option β) :
    (t.map f g).held (around.map f) = (t.held around).map (Prod.map (Option.map f) f) := by
  induction t generalizing around with
  | nil => rfl
  | cons b inner ms rest innerIh restIh =>
    rw [map, held, held, ← Option.map_some, innerIh, restIh, List.map_cons, List.map_append]
    rfl

theorem map_map {β'' ν'' : Type} (f' : β' → β'') (g' : ν' → ν'') :
    (t.map f g).map f' g' = t.map (f' ∘ f) (g' ∘ g) := by
  induction t with
  | nil => rfl
  | cons b inner ms rest innerIh restIh => simp [map, innerIh, restIh]

/-- **A renamed forest is grown from what its blocks were renamed from.** -/
theorem Grown.map {children : β → List β} {members : β → List ν} {children' : β' → List β'}
    {members' : β' → List ν'} {t : Forest β ν} (h : t.Grown children members)
    (blocks : ∀ b ∈ t.blocks, children' (f b) = (children b).map f)
    (nodes : ∀ b ∈ t.blocks, members' (f b) = (members b).map g) :
    (t.map f g).Grown children' members' := by
  induction t with
  | nil => trivial
  | cons b inner ms rest innerIh restIh =>
    obtain ⟨roots, here, grownInner, grownRest⟩ := h
    have inside : ∀ c ∈ inner.blocks, c ∈ (cons b inner ms rest).blocks :=
      fun c hc => List.mem_cons_of_mem b (List.mem_append_left _ hc)
    have beside : ∀ c ∈ rest.blocks, c ∈ (cons b inner ms rest).blocks :=
      fun c hc => List.mem_cons_of_mem b (List.mem_append_right _ hc)
    refine ⟨?_, ?_, ?_, ?_⟩
    · rw [roots_map, roots, blocks b List.mem_cons_self]
    · rw [here, nodes b List.mem_cons_self]
    · exact innerIh grownInner (fun c hc => blocks c (inside c hc))
        fun c hc => nodes c (inside c hc)
    · exact restIh grownRest (fun c hc => blocks c (beside c hc))
        fun c hc => nodes c (beside c hc)

end Map

/-! ## Nodes with the blocks around them -/

/-- All nodes, each with the blocks around it, innermost first. -/
def entries (around : List β) : Forest β ν → List (List β × ν)
  | nil => []
  | cons b inner ms rest =>
    inner.entries (b :: around) ++ ms.map (b :: around, ·) ++ rest.entries around

section Entries

variable {t : Forest β ν} {around : List β}

theorem entries_map_snd (around : List β) (t : Forest β ν) :
    (t.entries around).map Prod.snd = t.nodes := by
  induction t generalizing around with
  | nil => rfl
  | cons b inner ms rest innerIh restIh =>
    rw [entries, List.map_append, List.map_append, innerIh, restIh, List.map_map]
    show inner.nodes ++ ms.map id ++ rest.nodes = _
    rw [List.map_id]
    rfl

theorem entries_map (f : β → β') (g : ν → ν') (around : List β) (t : Forest β ν) :
    (t.map f g).entries (around.map f) = (t.entries around).map (Prod.map (List.map f) g) := by
  induction t generalizing around with
  | nil => rfl
  | cons b inner ms rest innerIh restIh =>
    rw [map, entries, entries, ← List.map_cons, innerIh, restIh, List.map_append, List.map_append,
      List.map_map, List.map_map]
    rfl

/-- The first of the blocks around a node is the one directly around it. -/
theorem placed_of_mem_entries {x : List β × ν} (hx : x ∈ t.entries around) :
    ∃ b l, x.1 = b :: l ∧ (b, x.2) ∈ t.placed := by
  induction t generalizing around with
  | nil => cases hx
  | cons b inner ms rest innerIh restIh =>
    rcases List.mem_append.mp hx with hx | hx
    · rcases List.mem_append.mp hx with hx | hx
      · obtain ⟨c, l, chain, placed⟩ := innerIh hx
        exact ⟨c, l, chain, List.mem_append_left _ (List.mem_append_left _ placed)⟩
      · obtain ⟨n, hn, rfl⟩ := List.mem_map.mp hx
        exact ⟨b, around, rfl,
          List.mem_append_left _ (List.mem_append_right _ (List.mem_map_of_mem hn))⟩
    · obtain ⟨c, l, chain, placed⟩ := restIh hx
      exact ⟨c, l, chain, List.mem_append_right _ placed⟩

/-- **The blocks around a node are a way to an outermost one.** -/
theorem isWay_of_mem_entries {outer : β → Option β}
    (held : ∀ x ∈ t.held around.head?, outer x.2 = x.1) (way : IsWay outer around)
    {x : List β × ν} (hx : x ∈ t.entries around) : IsWay outer x.1 := by
  induction t generalizing around with
  | nil => cases hx
  | cons b inner ms rest innerIh restIh =>
    have here : IsWay outer (b :: around) := ⟨held (around.head?, b) List.mem_cons_self, way⟩
    rcases List.mem_append.mp hx with hx | hx
    · rcases List.mem_append.mp hx with hx | hx
      · have inside : ∀ y ∈ inner.held (some b), outer y.2 = y.1 :=
          fun y hy => held y (List.mem_cons_of_mem _ (List.mem_append_left _ hy))
        exact @innerIh (b :: around) inside here hx
      · obtain ⟨n, -, rfl⟩ := List.mem_map.mp hx
        exact here
    · exact restIh (fun y hy => held y (List.mem_cons_of_mem _ (List.mem_append_right _ hy))) way hx

end Entries

/-! ## The order of mention -/

/-- Every block holds a node, directly or in a block inside. -/
def Full : Forest β ν → Prop
  | nil => True
  | cons _ inner ms rest => (inner.roots ≠ [] ∨ ms ≠ []) ∧ inner.Full ∧ rest.Full

theorem Grown.full {children : β → List β} {members : β → List ν} {t : Forest β ν}
    (h : t.Grown children members) (held : ∀ b ∈ t.blocks, children b ≠ [] ∨ members b ≠ []) :
    t.Full := by
  induction t with
  | nil => trivial
  | cons b inner ms rest innerIh restIh =>
    obtain ⟨roots, here, grownInner, grownRest⟩ := h
    refine ⟨?_, ?_, ?_⟩
    · rw [roots, here]
      exact held b List.mem_cons_self
    · exact innerIh grownInner
        fun c hc => held c (List.mem_cons_of_mem b (List.mem_append_left _ hc))
    · exact restIh grownRest
        fun c hc => held c (List.mem_cons_of_mem b (List.mem_append_right _ hc))

/-- The blocks around the nodes, node by node. -/
def mentions (around : List β) (t : Forest β ν) : List β :=
  (t.entries around).flatMap Prod.fst

theorem mentions_cons (around : List β) (b : β) (inner : Forest β ν) (ms : List ν)
    (rest : Forest β ν) : (cons b inner ms rest).mentions around =
      inner.mentions (b :: around) ++ ms.flatMap (fun _ => b :: around) ++
        rest.mentions around := by
  rw [mentions, entries, List.flatMap_append, List.flatMap_append, List.flatMap_map]
  rfl

theorem mentions_map (f : β → β') (g : ν → ν') (around : List β) (t : Forest β ν) :
    (t.map f g).mentions (around.map f) = (t.mentions around).map f := by
  rw [mentions, entries_map, List.flatMap_map, mentions, List.map_flatMap]
  rfl

section Mentions

variable {t : Forest β ν} {around : List β} {a : β}

theorem mem_mentions (h : a ∈ t.mentions around) : a ∈ t.blocks ∨ a ∈ around := by
  induction t generalizing around with
  | nil => cases h
  | cons b inner ms rest innerIh restIh =>
    rw [mentions_cons, List.mem_append, List.mem_append] at h
    rcases h with (h | h) | h
    · rcases innerIh h with h | h
      · exact .inl (List.mem_cons_of_mem b (List.mem_append_left _ h))
      · rcases List.mem_cons.mp h with rfl | h
        · exact .inl List.mem_cons_self
        · exact .inr h
    · obtain ⟨n, -, h⟩ := List.mem_flatMap.mp h
      rcases List.mem_cons.mp h with rfl | h
      · exact .inl List.mem_cons_self
      · exact .inr h
    · rcases restIh h with h | h
      · exact .inl (List.mem_cons_of_mem b (List.mem_append_right _ h))
      · exact .inr h

theorem Full.around_mentioned (h : t.Full) (some_root : t.roots ≠ []) (ha : a ∈ around) :
    a ∈ t.mentions around := by
  induction t generalizing around with
  | nil => exact (some_root rfl).elim
  | cons b inner ms rest innerIh _ =>
    obtain ⟨held, fullInner, -⟩ := h
    rw [mentions_cons]
    apply List.mem_append_left
    rcases held with held | held
    · exact List.mem_append_left _ (innerIh fullInner held (List.mem_cons_of_mem b ha))
    · obtain ⟨n, hn⟩ := List.exists_mem_of_ne_nil ms held
      exact List.mem_append_right _ (List.mem_flatMap.mpr ⟨n, hn, List.mem_cons_of_mem b ha⟩)

/-- A block of a full forest is mentioned by its own nodes. -/
theorem Full.first_mentioned {b : β} {inner rest : Forest β ν} {ms : List ν}
    (h : (cons b inner ms rest).Full) :
    b ∈ inner.mentions (b :: around) ++ ms.flatMap fun _ => b :: around := by
  obtain ⟨held | held, fullInner, -⟩ := h
  · exact List.mem_append_left _ (fullInner.around_mentioned held List.mem_cons_self)
  · obtain ⟨n, hn⟩ := List.exists_mem_of_ne_nil ms held
    exact List.mem_append_right _ (List.mem_flatMap.mpr ⟨n, hn, List.mem_cons_self⟩)

/-- **Every block of a full forest is mentioned.** -/
theorem Full.mem_mentions (h : t.Full) (ha : a ∈ t.blocks) : a ∈ t.mentions around := by
  induction t generalizing around with
  | nil => cases ha
  | cons b inner ms rest innerIh restIh =>
    rw [mentions_cons]
    rcases List.mem_cons.mp ha with rfl | ha
    · exact List.mem_append_left _ h.first_mentioned
    obtain ⟨-, fullInner, fullRest⟩ := h
    rcases List.mem_append.mp ha with ha | ha
    · exact List.mem_append_left _ (List.mem_append_left _ (innerIh fullInner ha))
    · exact List.mem_append_right _ (restIh fullRest ha)

end Mentions

section Order

variable {t : Forest β ν} {around : List β} {p : β → Bool}

theorem filter_mentions_eq_nil (blocks : ∀ a ∈ t.blocks, p a = false)
    (outside : ∀ a ∈ around, p a = false) : (t.mentions around).filter p = [] := by
  rw [List.filter_eq_nil_iff]
  intro a ha
  rcases mem_mentions ha with h | h
  · simp [blocks a h]
  · simp [outside a h]

/-- **The outermost blocks are mentioned in their order.** -/
theorem filter_mentions_roots [DecidableEq β] (full : t.Full) (distinct : t.blocks.Nodup)
    (own : ∀ a ∈ t.blocks, p a = true ↔ a ∈ t.roots) (outside : ∀ a ∈ around, p a = false) :
    ((t.mentions around).filter p).eraseDups = t.roots := by
  induction t with
  | nil => rfl
  | cons b inner ms rest _ restIh =>
    have mentioned : b ∈ inner.mentions (b :: around) ++ ms.flatMap fun _ => b :: around :=
      full.first_mentioned
    obtain ⟨-, -, fullRest⟩ := full
    obtain ⟨new, apart⟩ := List.nodup_cons.mp distinct
    rw [List.mem_append, not_or] at new
    obtain ⟨-, distinctRest, different⟩ := List.nodup_append.mp apart
    have isRoot : p b = true := (own b List.mem_cons_self).mpr List.mem_cons_self
    have own' : ∀ a ∈ rest.blocks, p a = true ↔ a ∈ rest.roots := by
      intro a ha
      have other : a ≠ b := fun same => new.2 (same ▸ ha)
      rw [own a (List.mem_cons_of_mem b (List.mem_append_right _ ha))]
      simp [roots, other]
    -- of the blocks around the nodes in `b`, only `b` itself is outermost
    have first : ((inner.mentions (b :: around) ++ ms.flatMap fun _ => b :: around).filter
        p).eraseDups = [b] := by
      apply eraseDups_of_forall_eq
      · exact List.ne_nil_of_mem (List.mem_filter.mpr ⟨mentioned, isRoot⟩)
      · intro a ha
        obtain ⟨ha, kept⟩ := List.mem_filter.mp ha
        have near : a ∈ inner.blocks ∨ a ∈ b :: around := by
          rcases List.mem_append.mp ha with ha | ha
          · exact mem_mentions ha
          · obtain ⟨n, -, ha⟩ := List.mem_flatMap.mp ha
            exact .inr ha
        rcases near with inside | here
        · have root := (own a (List.mem_cons_of_mem b (List.mem_append_left _ inside))).mp kept
          rcases List.mem_cons.mp root with same | root
          · exact same
          · exact (different a inside a (roots_subset_blocks root) rfl).elim
        · rcases List.mem_cons.mp here with same | outer
          · exact same
          · rw [outside a outer] at kept
            cases kept
    have others : ∀ a ∈ (rest.mentions around).filter p,
        a ∉ (inner.mentions (b :: around) ++ ms.flatMap fun _ => b :: around).filter p := by
      intro a ha again
      have same : a = b := by
        have kept := List.mem_eraseDups.mpr again
        rw [first] at kept
        exact List.mem_singleton.mp kept
      obtain ⟨ha, kept⟩ := List.mem_filter.mp ha
      rcases mem_mentions ha with inside | outer
      · exact new.2 (same ▸ inside)
      · rw [outside a outer] at kept
        cases kept
    rw [mentions_cons, List.filter_append, eraseDups_append_disjoint others, first,
      restIh fullRest distinctRest own']
    rfl

/-- **The blocks directly in a block are mentioned in their order.** -/
theorem Grown.filter_mentions [DecidableEq β] {children : β → List β} {members : β → List ν}
    {b : β} (h : t.Grown children members) (full : t.Full) (distinct : t.blocks.Nodup)
    (hb : b ∈ t.blocks) (own : ∀ a ∈ t.blocks, p a = true ↔ a ∈ children b)
    (outside : ∀ a ∈ around, p a = false) :
    ((t.mentions around).filter p).eraseDups = children b := by
  induction t generalizing around with
  | nil => cases hb
  | cons c inner ms rest innerIh restIh =>
    obtain ⟨roots, -, grownInner, grownRest⟩ := h
    obtain ⟨-, fullInner, fullRest⟩ := full
    obtain ⟨new, apart⟩ := List.nodup_cons.mp distinct
    rw [List.mem_append, not_or] at new
    obtain ⟨distinctInner, distinctRest, different⟩ := List.nodup_append.mp apart
    have ownInner : ∀ a ∈ inner.blocks, p a = true ↔ a ∈ children b :=
      fun a ha => own a (List.mem_cons_of_mem c (List.mem_append_left _ ha))
    have ownRest : ∀ a ∈ rest.blocks, p a = true ↔ a ∈ children b :=
      fun a ha => own a (List.mem_cons_of_mem c (List.mem_append_right _ ha))
    have silent {a : β} (here : p a = true ↔ a ∈ children b) (other : a ∉ children b) :
        p a = false := by
      rw [← Bool.not_eq_true]
      exact fun kept => other (here.mp kept)
    have members_silent (kept : p c = false) :
        (ms.flatMap fun _ => c :: around).filter p = [] := by
      rw [List.filter_eq_nil_iff]
      intro a ha
      obtain ⟨n, -, ha⟩ := List.mem_flatMap.mp ha
      rcases List.mem_cons.mp ha with rfl | ha
      · simp [kept]
      · simp [outside a ha]
    have around_silent (kept : p c = false) : ∀ a ∈ c :: around, p a = false := by
      intro a ha
      rcases List.mem_cons.mp ha with rfl | ha
      · exact kept
      · exact outside a ha
    rw [mentions_cons, List.filter_append, List.filter_append]
    rcases List.mem_cons.mp hb with rfl | hb
    · have inside : ∀ a ∈ children b, a ∈ inner.blocks :=
        fun a ha => roots_subset_blocks (roots ▸ ha)
      have self : p b = false := silent (own b List.mem_cons_self) fun h => new.1 (inside b h)
      have beside : (rest.mentions around).filter p = [] :=
        filter_mentions_eq_nil (fun a ha => silent (ownRest a ha)
          fun h => different a (inside a h) a ha rfl) outside
      rw [members_silent self, beside, List.append_nil, List.append_nil, ← roots]
      exact filter_mentions_roots fullInner distinctInner (by rw [roots]; exact ownInner)
        (around_silent self)
    rcases List.mem_append.mp hb with hb | hb
    · have inside : ∀ a ∈ children b, a ∈ inner.blocks := fun a ha => grownInner.mem_of_child hb ha
      have self : p c = false := silent (own c List.mem_cons_self) fun h => new.1 (inside c h)
      have beside : (rest.mentions around).filter p = [] :=
        filter_mentions_eq_nil (fun a ha => silent (ownRest a ha)
          fun h => different a (inside a h) a ha rfl) outside
      rw [members_silent self, beside, List.append_nil, List.append_nil]
      exact innerIh grownInner fullInner distinctInner hb ownInner (around_silent self)
    · have inside : ∀ a ∈ children b, a ∈ rest.blocks := fun a ha => grownRest.mem_of_child hb ha
      have self : p c = false := silent (own c List.mem_cons_self) fun h => new.2 (inside c h)
      have beside : (inner.mentions (c :: around)).filter p = [] :=
        filter_mentions_eq_nil (fun a ha => silent (ownInner a ha)
          fun h => different a ha a (inside a h) rfl) (around_silent self)
      rw [members_silent self, beside, List.append_nil, List.nil_append]
      exact restIh grownRest fullRest distinctRest hb ownRest outside

/-- **The nodes directly in a block come in their order.** -/
theorem Grown.filter_nodes {children : β → List β} {members : β → List ν} {b : β}
    (h : t.Grown children members) (distinct : t.blocks.Nodup) (hb : b ∈ t.blocks) {q : ν → Bool}
    (own : ∀ x ∈ t.placed, q x.2 = true ↔ x.1 = b) : t.nodes.filter q = members b := by
  induction t with
  | nil => cases hb
  | cons c inner ms rest innerIh restIh =>
    obtain ⟨-, here, grownInner, grownRest⟩ := h
    obtain ⟨new, apart⟩ := List.nodup_cons.mp distinct
    rw [List.mem_append, not_or] at new
    obtain ⟨distinctInner, distinctRest, different⟩ := List.nodup_append.mp apart
    have ownInner : ∀ x ∈ inner.placed, q x.2 = true ↔ x.1 = b :=
      fun x hx => own x (List.mem_append_left _ (List.mem_append_left _ hx))
    have ownMembers : ∀ n ∈ ms, q n = true ↔ c = b := fun n hn =>
      own (c, n) (List.mem_append_left _ (List.mem_append_right _ (List.mem_map_of_mem hn)))
    have ownRest : ∀ x ∈ rest.placed, q x.2 = true ↔ x.1 = b :=
      fun x hx => own x (List.mem_append_right _ hx)
    have silent {f : Forest β ν} (grown : f.Grown children members)
        (own : ∀ x ∈ f.placed, q x.2 = true ↔ x.1 = b) (other : b ∉ f.blocks) :
        f.nodes.filter q = [] := by
      rw [← placed_map_snd, List.filter_eq_nil_iff]
      intro n hn kept
      obtain ⟨x, hx, rfl⟩ := List.mem_map.mp hn
      exact other ((own x hx).mp kept ▸ (grown.mem_placed hx).1)
    have members_silent (other : c ≠ b) : ms.filter q = [] := by
      rw [List.filter_eq_nil_iff]
      exact fun n hn kept => other ((ownMembers n hn).mp kept)
    rw [nodes, List.filter_append, List.filter_append]
    rcases List.mem_cons.mp hb with rfl | hb
    · have all : ms.filter q = ms :=
        List.filter_eq_self.mpr fun n hn => (ownMembers n hn).mpr rfl
      rw [silent grownInner ownInner new.1, silent grownRest ownRest new.2, all, List.nil_append,
        List.append_nil, here]
    rcases List.mem_append.mp hb with hb | hb
    · have other : c ≠ b := fun same => new.1 (same ▸ hb)
      have beside : b ∉ rest.blocks := fun again => different b hb b again rfl
      rw [innerIh grownInner distinctInner hb ownInner, members_silent other,
        silent grownRest ownRest beside, List.append_nil, List.append_nil]
    · have other : c ≠ b := fun same => new.2 (same ▸ hb)
      have beside : b ∉ inner.blocks := fun again => different b again b hb rfl
      rw [silent grownInner ownInner beside, members_silent other,
        restIh grownRest distinctRest hb ownRest]
      rfl

end Order

end Drawbridge.Forest
