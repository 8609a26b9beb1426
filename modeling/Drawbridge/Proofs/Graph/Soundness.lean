import Drawbridge.Proofs.Graph.Blocks

/-!
What the names and labels of a graph are, whatever scene it was read from. Identifiers of elements
and groups never come into a graph as names, and texts only as tidy labels: a graph that has been
read is sound (`Graph.Sound`, `readGraph_sound`). Only the titles of its blocks and its colours are
what the scene and its display labels gave.
-/

namespace Drawbridge

/-- Names are canonical, and the labels of nodes and edges are tidy. -/
structure Graph.Sound (g : Graph) : Prop where
  nodes : ∀ n ∈ g.nodes, IsName n.id ∧ IsName n.styleClass ∧ IsTidy n.label
  edges : ∀ e ∈ g.edges, IsName e.source ∧ IsName e.target ∧ IsTidy e.label
  blocks : ∀ b ∈ g.blocks, IsName b.name
  styles : ∀ s ∈ g.styles, IsName s.name

/-- What has been read of some shapes is sound. -/
structure ReadState.Sound (st : ReadState) : Prop where
  nodes : ∀ n ∈ st.nodes, IsName n.id ∧ IsName n.styleClass ∧ IsTidy n.label
  styles : IsNumbered st.styles

theorem nameAmong?_isName {ids : List Text} {id : Text} (h : id ∈ ids) :
    IsName ((nameAmong? ids id).getD []) := by
  obtain ⟨k, hk⟩ := Option.isSome_iff_exists.mp (List.isSome_idxOf?.mpr h)
  rw [nameAmong?, hk]
  exact nodeName_isName k

theorem resolveStyle_isName {styles : List StyleClass} (h : IsNumbered styles)
    (fill stroke : Json) : IsName (resolveStyle styles fill stroke).2.name := by
  rcases resolveStyle_cases styles fill stroke with ⟨s, hs, hr, -⟩ | hr <;> rw [hr]
  · exact h.isName hs
  · exact styleName_isName styles.length

/-- Whatever shape is entered, what has been read stays sound. -/
theorem ReadState.Sound.addShape {st : ReadState} (h : st.Sound) (labels : Dictionary Text)
    (scene : List Element) (i : ShapeItem) : (st.addShape labels (sceneTexts scene) i).Sound := by
  refine ⟨?_, resolveStyle_numbered h.styles i.fill i.stroke⟩
  intro n hn
  rcases List.mem_append.mp hn with hn | hn
  · exact h.nodes n hn
  · rw [List.mem_singleton.mp hn]
    refine ⟨nameAmong?_isName ?_, resolveStyle_isName h.styles _ _, labelFor_isTidy scene _⟩
    split
    · assumption
    · exact List.mem_append_right _ (List.mem_singleton.mpr rfl)

/-- **A graph that has been read is sound, whatever the scene.** -/
theorem readGraph_sound {scene : List Element} {labels : Dictionary Text} {g : Graph}
    (read : readGraph scene labels = .ok g) : g.Sound := by
  have kept : ∀ (items : List ShapeItem) (st : ReadState), st.Sound →
      (items.foldl (ReadState.addShape labels (sceneTexts scene)) st).Sound := by
    intro items
    induction items with
    | nil => exact fun st h => h
    | cons i items ih => exact fun st h => ih _ (h.addShape labels scene i)
  have shapes : (shapesRead labels scene).Sound := kept (sceneShapes scene) {} ⟨by simp, rfl⟩
  have named := readGraph_named read
  obtain ⟨-, rfl⟩ := readGraph_eq_ok_iff.mp read
  refine ⟨shapes.nodes, ?_, fun b hb => named.isName hb, fun s hs => shapes.styles.isName hs⟩
  intro e he
  obtain ⟨a, -, ha⟩ := List.mem_filterMap.mp he
  obtain ⟨source, hs, ha⟩ := Option.bind_eq_some_iff.mp ha
  obtain ⟨target, ht, ha⟩ := Option.bind_eq_some_iff.mp ha
  cases ha
  obtain ⟨k, -, rfl⟩ := boundNode?_eq_some hs
  obtain ⟨l, -, rfl⟩ := boundNode?_eq_some ht
  exact ⟨nodeName_isName k, nodeName_isName l, labelFor_isTidy scene a⟩

end Drawbridge
