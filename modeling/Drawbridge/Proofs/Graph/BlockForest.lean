import Drawbridge.Proofs.Graph.Blocks

/-!
The blocks of a table lie in one another as a forest, whatever nodes are entered under whatever
groups (`enterAll`): the lists may contradict one another, and may name a group twice. The blocks
are numbered in the order in which their groups are first named, each lists the nodes entered under
its group, and what has once been put around a block stays around it (`enterAll_isForest`).
-/

namespace Drawbridge.BlockTable

/-- The table after nodes have been entered one after the other, each under its groups. -/
def enterAll (labels : Dictionary Text) (calls : List (List Text × Text)) : BlockTable :=
  calls.foldl (fun t x => (addMember labels t x.1 x.2).1) []

section Tables

variable {labels : Dictionary Text} {calls : List (List Text × Text)}

theorem enterAll_eq (labels : Dictionary Text) (calls : List (List Text × Text)) :
    enterAll labels calls = tableOf labels (fun g => g) (mentioned calls)
      (fun a => (enteredUnder calls a).eraseDups) (around calls) := by
  have table := @foldl_addMember Text _ labels (fun g => g) calls fun _ _ _ _ same => same
  simp only [List.map_id'] at table
  exact table

/-- The block of a group after some calls. -/
noncomputable def enteredBlock (labels : Dictionary Text) (calls : List (List Text × Text))
    (g : Text) : Block :=
  blockAt labels (fun g => g) (mentioned calls) (fun a => (enteredUnder calls a).eraseDups)
    (around calls) g

theorem mem_enterAll {b : Block} :
    b ∈ enterAll labels calls ↔ ∃ g ∈ mentioned calls, enteredBlock labels calls g = b := by
  rw [enterAll_eq]
  exact List.mem_map

theorem enterAll_named (labels : Dictionary Text) (calls : List (List Text × Text)) :
    Named labels (enterAll labels calls) := by
  induction calls using List.reverseRecOn with
  | nil => exact ⟨rfl, by simp [enterAll]⟩
  | append_singleton calls x ih =>
    rw [enterAll, List.foldl_append]
    exact ih.addMember x.1 x.2

theorem enterAll_sourceIds (labels : Dictionary Text) (calls : List (List Text × Text)) :
    (enterAll labels calls).map (·.sourceId) = (calls.flatMap Prod.fst).eraseDups := by
  rw [enterAll_eq, tableOf, List.map_map]
  exact (List.map_id' _).trans (congrArg (fun i => @List.eraseDups Text i _)
    (lawful_beq_subsingleton _ _))

theorem acyclic_enterAll (labels : Dictionary Text) (calls : List (List Text × Text)) :
    Acyclic (outward? (enterAll labels calls)) := by
  intro name k back
  obtain ⟨p, next, -⟩ := Option.bind_eq_some_iff.mp back
  obtain ⟨b, found, -⟩ := Option.bind_eq_some_iff.mp next
  obtain ⟨g, hg, rfl⟩ := mem_enterAll.mp (List.mem_of_find?_eq_some found)
  obtain rfl : (enteredBlock labels calls g).name = name :=
    of_decide_eq_true (List.find?_some (p := fun b : Block => b.name = name) found)
  -- the way back among the blocks is a way back among their groups
  rw [enterAll_eq] at back
  exact around_acyclic calls g k
    ((climb_tableOf_eq_some (fun _ _ hp => (around_mem hp).2) hg (k + 1)).mp back)

theorem parent_mem_enterAll {b : Block} (hb : b ∈ enterAll labels calls) {p : Text}
    (hp : b.parent = some p) : p ∈ (enterAll labels calls).map (·.name) := by
  obtain ⟨g, -, rfl⟩ := mem_enterAll.mp hb
  obtain ⟨q, place, rfl⟩ := Option.map_eq_some_iff.mp hp
  exact List.mem_map.mpr ⟨_, mem_enterAll.mpr ⟨q, (around_mem place).2, rfl⟩, rfl⟩

theorem enterAll_keeps {b : Block} (hb : b ∈ enterAll labels calls)
    (more : List (List Text × Text)) :
    ∃ b' ∈ enterAll labels (calls ++ more), b'.sourceId = b.sourceId ∧ b'.name = b.name ∧
      ∀ p, b.parent = some p → b'.parent = some p := by
  obtain ⟨g, hg, rfl⟩ := mem_enterAll.mp hb
  have later : g ∈ mentioned (calls ++ more) := by
    obtain ⟨x, hx, listed⟩ := mem_mentioned.mp hg
    exact mem_mentioned.mpr ⟨x, List.mem_append_left _ hx, listed⟩
  refine ⟨_, mem_enterAll.mpr ⟨g, later, rfl⟩, rfl, ?_, ?_⟩
  · exact congrArg blockName (idxOf_mentioned_append hg more)
  · intro p hp
    obtain ⟨q, place, rfl⟩ := Option.map_eq_some_iff.mp hp
    have name := congrArg blockName (idxOf_mentioned_append (around_mem place).2 more)
    exact Option.map_eq_some_iff.mpr ⟨q, around_append place more, name⟩

/-- A block lists the nodes that were entered under its group. -/
theorem nodeIds_enterAll {b : Block} (hb : b ∈ enterAll labels calls) :
    b.nodeIds = ((calls.filter fun x => b.sourceId ∈ x.1).map Prod.snd).eraseDups := by
  obtain ⟨g, -, rfl⟩ := mem_enterAll.mp hb
  apply congrArg fun l : List (List Text × Text) => (l.map Prod.snd).eraseDups
  exact List.filter_congr fun x _ => decide_eq_decide.mpr Iff.rfl

end Tables

/--
**The blocks of a table are a forest.** Whatever nodes have been entered under whatever groups, no
block lies in itself, a block lies only in blocks of the table, and what it lies in after some calls
it lies in after any more of them. The blocks have names of their own, numbered in the order in
which their groups are first named, and each lists the nodes that were entered under its group, in
the order of the calls and each once.
-/
theorem enterAll_isForest (labels : Dictionary Text) (calls : List (List Text × Text)) :
    let t := enterAll labels calls
    Acyclic (outward? t) ∧
    (∀ b ∈ t, ∀ p, b.parent = some p → p ∈ t.map (·.name)) ∧
    (∀ more, ∀ b ∈ t, ∃ b' ∈ enterAll labels (calls ++ more), b'.sourceId = b.sourceId ∧
      b'.name = b.name ∧ ∀ p, b.parent = some p → b'.parent = some p) ∧
    (t.map (·.name) = (List.range t.length).map blockName ∧ (t.map (·.name)).Nodup ∧
      t.map (·.sourceId) = (calls.flatMap Prod.fst).eraseDups) ∧
    ∀ b ∈ t, b.nodeIds = ((calls.filter fun x => b.sourceId ∈ x.1).map Prod.snd).eraseDups := by
  have named := enterAll_named labels calls
  exact ⟨acyclic_enterAll labels calls, fun b hb p => parent_mem_enterAll hb,
    fun more b hb => enterAll_keeps hb more,
    ⟨named.names, named.nodup, enterAll_sourceIds labels calls⟩, fun b hb => nodeIds_enterAll hb⟩

/-- Of two lists that contradict each other, the first one counts. -/
example :
    (enterAll [] [(["in".toList, "out".toList], "A".toList),
      (["out".toList, "in".toList, "out".toList], "B".toList)]).map
        (fun b => (b.nodeIds, b.parent)) =
      [(["A".toList, "B".toList], some "G2".toList), (["A".toList, "B".toList], none)] := by
  decide

end Drawbridge.BlockTable
