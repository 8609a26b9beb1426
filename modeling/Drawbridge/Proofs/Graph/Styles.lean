import Drawbridge.Graph.Reading
import Drawbridge.Proofs.Graph.Names
import Mathlib.Data.List.Nodup

/-!
Style classes while the shapes of a scene are read. What a shape gives its node besides name and
groups is its `Look`; `nodesOf` and `stylesOf` are the nodes and style classes of shapes in order.

* `IsColour`: plain colours, of which only equal ones are one key (`sameKey_iff`);
* `stylesOf_numbered`: style classes are named in the order in which they were first needed;
* `exists_style_of_mem_nodesOf`: the style class of a node has the colours of the node;
* `nodesOf_colours`: style classes depend on the colours of the shapes and on nothing else.
-/

namespace Drawbridge

/-! ## Colours -/

/-- A character of a plain colour: an ASCII letter, a digit, `#` or `-`. -/
def isColourChar (c : Char) : Bool :=
  c.isAlphanum || c = '#' || c = '-'

/-- A plain colour: a name or hexadecimal digits, as a text. -/
def IsColour (j : Json) : Prop :=
  ∃ s, j = .str s ∧ s ≠ [] ∧ ∀ c ∈ s, isColourChar c = true

theorem not_blank_of_isColourChar {c : Char} (h : isColourChar c = true) : isBlank c = false := by
  simp only [isColourChar, Bool.or_eq_true, decide_eq_true_eq] at h
  rcases h with (h | rfl) | rfl
  · exact not_blank_of_isIdentChar (by simp [isIdentChar, h])
  · decide
  · decide

theorem sameKey_iff {j k : Json} (hj : IsColour j) (hk : IsColour k) :
    j.sameKey k = true ↔ j = k := by
  obtain ⟨s, rfl, -⟩ := hj
  obtain ⟨t, rfl, -⟩ := hk
  simp [Json.sameKey]

/-! ## Looks -/

structure Look where
  shape : Shape
  label : Text
  fill : Json
  stroke : Json

def Look.IsPlain (l : Look) : Prop :=
  IsColour l.fill ∧ IsColour l.stroke

/-- The style classes after some shapes, given those before. -/
def stylesOf (styles : List StyleClass) : List Look → List StyleClass
  | [] => styles
  | l :: ls => stylesOf (resolveStyle styles l.fill l.stroke).1 ls

/-- The nodes of some shapes, apart from groups; `k` shapes and the style classes came before. -/
def nodesOf (k : Nat) (styles : List StyleClass) : List Look → List Node
  | [] => []
  | l :: ls =>
    let (next, style) := resolveStyle styles l.fill l.stroke
    { id := nodeName k, shape := l.shape, label := l.label, fill := l.fill, stroke := l.stroke,
      styleClass := style.name } :: nodesOf (k + 1) next ls

/-! ## One shape -/

theorem resolveStyle_cases (styles : List StyleClass) (fill stroke : Json) :
    (∃ s ∈ styles, resolveStyle styles fill stroke = (styles, s) ∧ s.fill.sameKey fill = true ∧
      s.stroke.sameKey stroke = true) ∨
    resolveStyle styles fill stroke = (styles ++ [⟨styleName styles.length, fill, stroke⟩],
      ⟨styleName styles.length, fill, stroke⟩) := by
  unfold resolveStyle
  cases h : styles.find? fun s => s.fill.sameKey fill && s.stroke.sameKey stroke with
  | none => exact .inr rfl
  | some s =>
    have same := List.find?_some h
    rw [Bool.and_eq_true] at same
    exact .inl ⟨s, List.mem_of_find?_eq_some h, rfl, same⟩

def IsNumbered (styles : List StyleClass) : Prop :=
  styles.map (·.name) = (List.range styles.length).map styleName

theorem IsNumbered.isName {styles : List StyleClass} (h : IsNumbered styles) {s : StyleClass}
    (hs : s ∈ styles) : IsName s.name := by
  have name := List.mem_map_of_mem hs (f := (·.name))
  rw [h] at name
  obtain ⟨k, -, hk⟩ := List.mem_map.mp name
  rw [← hk]
  exact styleName_isName k

theorem IsNumbered.nodup {styles : List StyleClass} (h : IsNumbered styles) :
    (styles.map (·.name)).Nodup := by
  rw [h]
  exact List.Nodup.map (fun _ _ => styleName_injective) List.nodup_range

theorem resolveStyle_numbered {styles : List StyleClass} (h : IsNumbered styles)
    (fill stroke : Json) : IsNumbered (resolveStyle styles fill stroke).1 := by
  rcases resolveStyle_cases styles fill stroke with ⟨s, -, hr, -⟩ | hr <;> rw [hr]
  · exact h
  · rw [IsNumbered, List.map_append, h, List.length_append, List.length_singleton,
      List.range_succ, List.map_append]
    rfl

def ArePlain (styles : List StyleClass) : Prop :=
  ∀ s ∈ styles, IsColour s.fill ∧ IsColour s.stroke

/-- The style class of a shape is in the table and has its colours. -/
theorem resolveStyle_plain {styles : List StyleClass} (h : ArePlain styles) {l : Look}
    (hl : l.IsPlain) :
    ArePlain (resolveStyle styles l.fill l.stroke).1 ∧
      styles ⊆ (resolveStyle styles l.fill l.stroke).1 ∧
      (resolveStyle styles l.fill l.stroke).2 ∈ (resolveStyle styles l.fill l.stroke).1 ∧
      (resolveStyle styles l.fill l.stroke).2.fill = l.fill ∧
      (resolveStyle styles l.fill l.stroke).2.stroke = l.stroke := by
  rcases resolveStyle_cases styles l.fill l.stroke with ⟨s, hs, hr, hf, hk⟩ | hr <;> rw [hr]
  · obtain ⟨fill, stroke⟩ := h s hs
    have sameFill := (sameKey_iff fill hl.1).mp hf
    have sameStroke := (sameKey_iff stroke hl.2).mp hk
    exact ⟨h, List.Subset.refl _, hs, sameFill, sameStroke⟩
  · refine ⟨?_, List.subset_append_left _ _, List.mem_append_right _ (List.mem_singleton.mpr rfl),
      rfl, rfl⟩
    intro s hs
    rcases List.mem_append.mp hs with hs | hs
    · exact h s hs
    · rw [List.mem_singleton.mp hs]
      exact hl

/-! ## All shapes -/

theorem stylesOf_numbered {styles : List StyleClass} (h : IsNumbered styles) (ls : List Look) :
    IsNumbered (stylesOf styles ls) := by
  induction ls generalizing styles with
  | nil => exact h
  | cons l ls ih => exact ih (resolveStyle_numbered h l.fill l.stroke)

theorem stylesOf_plain {styles : List StyleClass} (h : ArePlain styles) {ls : List Look}
    (hls : ∀ l ∈ ls, l.IsPlain) : ArePlain (stylesOf styles ls) ∧ styles ⊆ stylesOf styles ls := by
  induction ls generalizing styles with
  | nil => exact ⟨h, List.Subset.refl _⟩
  | cons l ls ih =>
    obtain ⟨plain, kept, -⟩ := resolveStyle_plain h (hls l List.mem_cons_self)
    obtain ⟨plain', kept'⟩ := ih plain fun m hm => hls m (List.mem_cons_of_mem l hm)
    exact ⟨plain', List.Subset.trans kept kept'⟩

/-- **The style class of a node has the colours of the node.** -/
theorem exists_style_of_mem_nodesOf {styles : List StyleClass} (h : ArePlain styles)
    {ls : List Look} (hls : ∀ l ∈ ls, l.IsPlain) {k : Nat} {n : Node}
    (hn : n ∈ nodesOf k styles ls) :
    ∃ s ∈ stylesOf styles ls, s.name = n.styleClass ∧ s.fill = n.fill ∧ s.stroke = n.stroke := by
  induction ls generalizing styles k with
  | nil => cases hn
  | cons l ls ih =>
    obtain ⟨plain, -, member, fill, stroke⟩ := resolveStyle_plain h (hls l List.mem_cons_self)
    have rest : ∀ m ∈ ls, m.IsPlain := fun m hm => hls m (List.mem_cons_of_mem l hm)
    rcases List.mem_cons.mp hn with rfl | hn
    · exact ⟨_, (stylesOf_plain plain rest).2 member, rfl, fill, stroke⟩
    · exact ih plain rest hn

theorem nodesOf_ids (k : Nat) (styles : List StyleClass) (ls : List Look) :
    (nodesOf k styles ls).map (·.id) = (List.range' k ls.length).map nodeName := by
  induction ls generalizing k styles with
  | nil => rfl
  | cons l ls ih =>
    rw [nodesOf, List.map_cons, ih, List.length_cons, List.range'_succ]
    rfl

def Node.look (n : Node) : Look :=
  ⟨n.shape, n.label, n.fill, n.stroke⟩

theorem nodesOf_looks (k : Nat) (styles : List StyleClass) (ls : List Look) :
    (nodesOf k styles ls).map Node.look = ls := by
  induction ls generalizing k styles with
  | nil => rfl
  | cons l ls ih => exact congrArg (l :: ·) (ih (k + 1) _)

theorem nodesOf_shown (k : Nat) (styles : List StyleClass) (ls : List Look) :
    (nodesOf k styles ls).map (fun n => (n.id, n.shape, n.label)) =
      ls.mapIdx fun i l => (nodeName (i + k), l.shape, l.label) := by
  induction ls generalizing k styles with
  | nil => rfl
  | cons l ls ih =>
    rw [List.mapIdx_cons, nodesOf, List.map_cons, ih, Nat.zero_add]
    congr 2
    funext i m
    rw [Nat.add_assoc, Nat.add_comm 1 k]

/-- **Style classes depend on the colours of the shapes and on nothing else.** -/
theorem nodesOf_colours {ls ls' : List Look} (k : Nat) (styles : List StyleClass)
    (h : ls.map (fun l => (l.fill, l.stroke)) = ls'.map fun l => (l.fill, l.stroke)) :
    (nodesOf k styles ls).map (fun n => (n.fill, n.stroke, n.styleClass)) =
        (nodesOf k styles ls').map (fun n => (n.fill, n.stroke, n.styleClass)) ∧
      stylesOf styles ls = stylesOf styles ls' := by
  induction ls generalizing ls' k styles with
  | nil =>
    rw [List.map_nil] at h
    rw [List.map_eq_nil_iff.mp h.symm]
    exact ⟨rfl, rfl⟩
  | cons l ls ih =>
    cases ls' with
    | nil => cases h
    | cons l' ls' =>
      obtain ⟨first, rest⟩ := List.cons.inj h
      obtain ⟨fill, stroke⟩ := Prod.mk.inj first
      obtain ⟨nodes, table⟩ := ih (k + 1) (resolveStyle styles l'.fill l'.stroke).1 rest
      simp only [nodesOf, stylesOf, List.map_cons, fill, stroke]
      exact ⟨congrArg _ nodes, table⟩

end Drawbridge
