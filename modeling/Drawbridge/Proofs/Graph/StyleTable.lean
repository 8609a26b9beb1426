import Drawbridge.Proofs.Graph.Groups
import Drawbridge.Proofs.Graph.Resolution

/-!
The style classes of a scene whose colours are texts. They are a function of the pairs of colours of
its shapes: each pair has one class, named by the place of the pair in the order of first use
(`styleOf`), and the table is the classes of these pairs without repetition (`styleTable`). Entering
a shape adds its pair to those before (`resolveStyle_styleTable`), whether or not the shape shares
its identifier with another, so `foldl_addShape_styleTable` gives the table of a whole scene, and
`graphRead_stylesExact` what follows for its nodes.
-/

namespace Drawbridge

def Node.style (n : Node) : StyleClass :=
  ⟨n.styleClass, n.fill, n.stroke⟩

/-! ## Settled colours -/

/-- A colour that is there, or the default. -/
def settledColour (colour : Json) (default : Text) : Text :=
  match colour with
  | .str (c :: s) => c :: s
  | _ => default

def Element.colours (e : Element) : Text × Text :=
  (settledColour e.fill defaultFill, settledColour e.stroke defaultStroke)

/-- The colours of the shapes of a scene are texts, if there are any. -/
def TextColours (scene : List Element) : Prop :=
  ∀ e ∈ liveElements scene, e.isShape = true → HoldsText e.fill ∧ HoldsText e.stroke

theorem HoldsText.orElse_eq {j : Json} (h : HoldsText j) (default : Text) :
    j.orElse (.str default) = .str (settledColour j default) := by
  unfold Json.orElse
  cases present : j.isTruthy with
  | true =>
    obtain ⟨s, rfl⟩ := h present
    cases s with
    | nil => cases present
    | cons c s => rfl
  | false =>
    have missing : settledColour j default = default := by
      unfold settledColour
      split
      · cases present
      · rfl
    rw [missing]
    rfl

theorem sceneShapes_colours {scene : List Element} (h : TextColours scene) {i : ShapeItem}
    (hi : i ∈ sceneShapes scene) :
    i.fill = .str i.element.colours.1 ∧ i.stroke = .str i.element.colours.2 := by
  obtain ⟨live, shape, fill, stroke⟩ := mem_sceneShapes hi
  obtain ⟨fillText, strokeText⟩ := h i.element live shape
  exact ⟨fill.trans (fillText.orElse_eq defaultFill),
    stroke.trans (strokeText.orElse_eq defaultStroke)⟩

/-! ## The table -/

/-- The style class of a pair of colours among some pairs, by its place in the order of first use. -/
def styleOf (ps : List (Text × Text)) (p : Text × Text) : StyleClass :=
  ⟨styleName (ps.eraseDups.idxOf p), .str p.1, .str p.2⟩

def styleTable (ps : List (Text × Text)) : List StyleClass :=
  ps.eraseDups.map (styleOf ps)

variable {ps qs : List (Text × Text)} {p q : Text × Text}

/-- A pair keeps its class when others follow. -/
theorem styleOf_append (hp : p ∈ ps) (qs : List (Text × Text)) :
    styleOf (ps ++ qs) p = styleOf ps p := by
  rw [styleOf, styleOf, List.eraseDups_append, List.idxOf_append_of_mem (List.mem_eraseDups.mpr hp)]

theorem styleOf_new (hp : p ∉ ps) :
    styleOf (ps ++ [p]) p = ⟨styleName ps.eraseDups.length, .str p.1, .str p.2⟩ := by
  have last : (ps.eraseDups ++ [p]).idxOf p = ps.eraseDups.length := by
    rw [List.idxOf_append_of_notMem fun h => hp (List.mem_eraseDups.mp h), List.idxOf_cons_self,
      Nat.add_zero]
  rw [styleOf, eraseDups_concat, if_neg hp, last]

/-- Classes have one name just if they have the same colours. -/
theorem styleOf_name_iff (hp : p ∈ ps) (q : Text × Text) :
    (styleOf ps p).name = (styleOf ps q).name ↔
      (styleOf ps p).fill = (styleOf ps q).fill ∧ (styleOf ps p).stroke = (styleOf ps q).stroke := by
  constructor
  · intro same
    have pair : p = q := (List.idxOf_inj (List.mem_eraseDups.mpr hp)).mp (styleName_injective same)
    rw [pair]
    exact ⟨rfl, rfl⟩
  · rintro ⟨fill, stroke⟩
    rw [show p = q from Prod.ext (Json.str.inj fill) (Json.str.inj stroke)]

theorem isNumbered_styleTable (ps : List (Text × Text)) : IsNumbered (styleTable ps) := by
  rw [IsNumbered, styleTable, List.map_map, List.length_map]
  apply List.ext_getElem (by simp)
  intro k hk _
  have bound : k < ps.eraseDups.length := by simpa using hk
  have place : ps.eraseDups.idxOf ps.eraseDups[k] = k :=
    (nodup_eraseDups ps).idxOf_getElem k bound
  simp [styleOf, place]

theorem styleTable_concat (ps : List (Text × Text)) (p : Text × Text) :
    styleTable (ps ++ [p]) =
      if p ∈ ps then styleTable ps else styleTable ps ++ [styleOf (ps ++ [p]) p] := by
  have kept : ps.eraseDups.map (styleOf (ps ++ [p])) = styleTable ps :=
    List.map_congr_left fun q hq => styleOf_append (List.mem_eraseDups.mp hq) [p]
  rw [styleTable, eraseDups_concat]
  split
  · exact kept
  · rw [List.map_append, kept]
    rfl

theorem find?_eq {α : Type} [DecidableEq α] (l : List α) (a : α) :
    l.find? (fun b => decide (b = a)) = if a ∈ l then some a else none := by
  split
  · rename_i h
    obtain ⟨b, found⟩ := Option.isSome_iff_exists.mp
      (List.find?_isSome (p := fun b => decide (b = a)) |>.mpr ⟨a, h, decide_eq_true rfl⟩)
    have same : b = a := by simpa using List.find?_some found
    rw [found, same]
  · rename_i h
    rw [List.find?_eq_none]
    intro b hb same
    exact h (of_decide_eq_true same ▸ hb)

/-- **Looked up in the table of some pairs, a pair gets its class and is entered if it is new.** -/
theorem resolveStyle_styleTable (ps : List (Text × Text)) (p : Text × Text) :
    resolveStyle (styleTable ps) (.str p.1) (.str p.2) =
      (styleTable (ps ++ [p]), styleOf (ps ++ [p]) p) := by
  have search : (styleTable ps).find? (fun s => s.fill.sameKey (.str p.1) &&
      s.stroke.sameKey (.str p.2)) = if p ∈ ps then some (styleOf ps p) else none := by
    have byPair : ((fun s : StyleClass => s.fill.sameKey (.str p.1) &&
        s.stroke.sameKey (.str p.2)) ∘ styleOf ps) = fun q => decide (q = p) := by
      funext q
      simp [styleOf, Json.sameKey, Prod.ext_iff]
    rw [styleTable, List.find?_map, byPair, find?_eq]
    simp only [List.mem_eraseDups]
    split <;> rfl
  have length : (styleTable ps).length = ps.eraseDups.length := List.length_map _
  unfold resolveStyle
  rw [search, styleTable_concat]
  by_cases hp : p ∈ ps
  · rw [if_pos hp, if_pos hp, styleOf_append hp]
  · rw [if_neg hp, if_neg hp, styleOf_new hp, ← length]

/-- **The table of some shapes is that of their colours, and every node has the class of its.** -/
theorem foldl_addShape_styleTable (labels : Dictionary Text) (texts : List TextItem)
    {items : List ShapeItem} {st : ReadState} (table : st.styles = styleTable ps)
    (colours : ∀ i ∈ items, i.fill = .str i.element.colours.1 ∧
      i.stroke = .str i.element.colours.2) :
    (items.foldl (ReadState.addShape labels texts) st).styles =
        styleTable (ps ++ items.map (·.element.colours)) ∧
      (items.foldl (ReadState.addShape labels texts) st).nodes.map Node.style =
        st.nodes.map Node.style ++ (items.map (·.element.colours)).map
          (styleOf (ps ++ items.map (·.element.colours))) := by
  induction items generalizing ps st with
  | nil =>
    rw [List.map_nil, List.append_nil, List.map_nil, List.append_nil]
    exact ⟨table, rfl⟩
  | cons i items ih =>
    obtain ⟨fill, stroke⟩ := colours i List.mem_cons_self
    have looked := resolveStyle_styleTable ps i.element.colours
    rw [← table, ← fill, ← stroke] at looked
    have entered : (st.addShape labels texts i).styles = styleTable (ps ++ [i.element.colours]) :=
      congrArg Prod.fst looked
    have node : (st.addShape labels texts i).nodes.map Node.style =
        st.nodes.map Node.style ++ [styleOf (ps ++ [i.element.colours]) i.element.colours] := by
      have name : (resolveStyle st.styles i.fill i.stroke).2.name =
          (styleOf (ps ++ [i.element.colours]) i.element.colours).name :=
        congrArg (fun x => x.2.name) looked
      unfold ReadState.addShape
      simp only [List.map_append, List.map_cons, List.map_nil, Node.style]
      rw [name, fill, stroke]
      rfl
    obtain ⟨styles, nodes⟩ := ih entered fun j hj => colours j (List.mem_cons_of_mem i hj)
    rw [List.append_assoc, List.singleton_append] at styles nodes
    have kept : styleOf (ps ++ i.element.colours :: items.map (·.element.colours))
        i.element.colours = styleOf (ps ++ [i.element.colours]) i.element.colours := by
      rw [List.append_cons]
      exact styleOf_append (by simp) _
    refine ⟨styles, ?_⟩
    rw [List.foldl_cons, nodes, node, List.append_assoc, List.map_cons, List.map_cons, kept]
    rfl

/-! ## Scenes -/

/-- The style classes of a graph are those of the colours of the shapes of a scene. -/
structure Graph.StylesExact (g : Graph) (scene : List Element) : Prop where
  /-- Every node has the settled colours of its shape. -/
  colours : g.nodes.map (fun n => (n.fill, n.stroke)) =
    ((liveShapes scene).map Element.colours).map fun p => (.str p.1, .str p.2)
  /-- Nodes are in one class just if they have the same colours. -/
  classes : ∀ m ∈ g.nodes, ∀ n ∈ g.nodes,
    m.styleClass = n.styleClass ↔ m.fill = n.fill ∧ m.stroke = n.stroke
  /-- The table lists every pair of colours once, in the order of first use. -/
  table : g.styles.map (fun s => (s.fill, s.stroke)) =
    ((liveShapes scene).map Element.colours).eraseDups.map fun p => (.str p.1, .str p.2)
  /-- The classes are named in the order of the table. -/
  numbered : g.styles.map (·.name) = (List.range g.styles.length).map styleName
  /-- No name stands for two classes. -/
  distinct : (g.styles.map (·.name)).Nodup
  /-- The class of every node is in the table, with the colours of the node. -/
  listed : ∀ n ∈ g.nodes, n.style ∈ g.styles
  /-- Every class in the table is that of a node. -/
  used : ∀ s ∈ g.styles, ∃ n ∈ g.nodes, n.style = s

section Scene

variable {scene : List Element} {labels : Dictionary Text}

theorem graphRead_styles (h : TextColours scene) (labels : Dictionary Text) :
    (graphRead labels scene).styles = styleTable ((liveShapes scene).map Element.colours) ∧
      (graphRead labels scene).nodes.map Node.style =
        ((liveShapes scene).map Element.colours).map
          (styleOf ((liveShapes scene).map Element.colours)) := by
  have shapes : (sceneShapes scene).map (·.element.colours) =
      (liveShapes scene).map Element.colours :=
    filterMap_shapeItem? Element.colours (liveElements scene)
  have run := @foldl_addShape_styleTable [] labels (sceneTexts scene) (sceneShapes scene) {} rfl
    fun i hi => sceneShapes_colours h hi
  rw [shapes, List.nil_append] at run
  exact run

/-- **The style classes of a scene are exact.** -/
theorem graphRead_stylesExact (h : TextColours scene) (labels : Dictionary Text) :
    (graphRead labels scene).StylesExact scene := by
  obtain ⟨styles, nodes⟩ := graphRead_styles h labels
  set ps := (liveShapes scene).map Element.colours with pairs
  have node : ∀ n ∈ (graphRead labels scene).nodes, ∃ p ∈ ps, n.style = styleOf ps p := by
    intro n hn
    have mem := List.mem_map_of_mem hn (f := Node.style)
    rw [nodes] at mem
    obtain ⟨p, hp, same⟩ := List.mem_map.mp mem
    exact ⟨p, hp, same.symm⟩
  have numbered : IsNumbered (graphRead labels scene).styles := by
    rw [styles]
    exact isNumbered_styleTable ps
  refine ⟨?_, ?_, ?_, numbered, numbered.nodup, ?_, ?_⟩
  · have shown := congrArg (List.map fun s : StyleClass => (s.fill, s.stroke)) nodes
    rw [List.map_map, List.map_map] at shown
    exact shown
  · intro m hm n hn
    obtain ⟨p, hp, mStyle⟩ := node m hm
    obtain ⟨q, hq, nStyle⟩ := node n hn
    show m.style.name = n.style.name ↔ m.style.fill = n.style.fill ∧ m.style.stroke = n.style.stroke
    rw [mStyle, nStyle]
    exact styleOf_name_iff hp q
  · rw [styles, styleTable, List.map_map]
    rfl
  · intro n hn
    obtain ⟨p, hp, style⟩ := node n hn
    rw [style, styles]
    exact List.mem_map_of_mem (List.mem_eraseDups.mpr hp)
  · intro s hs
    rw [styles] at hs
    obtain ⟨p, hp, rfl⟩ := List.mem_map.mp hs
    have mem := List.mem_map_of_mem (List.mem_eraseDups.mp hp) (f := styleOf ps)
    rw [← nodes] at mem
    obtain ⟨n, hn, same⟩ := List.mem_map.mp mem
    exact ⟨n, hn, same⟩

/-- Colours that are texts are never why a scene has no graph. -/
theorem readable_iff_of_textColours (h : TextColours scene) :
    Readable scene ↔ ∀ e ∈ liveElements scene, e.isText = true → e.HasText := by
  refine ⟨Readable.texts, fun texts => ⟨texts, fun e live shape => ?_⟩⟩
  obtain ⟨fill, stroke⟩ := h e live shape
  exact ⟨fill.isKey, stroke.isKey⟩

end Scene

end Drawbridge
