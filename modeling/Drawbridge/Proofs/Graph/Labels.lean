import Drawbridge.Proofs.Graph.Interleaving

/-!
Where the label of a shape or arrow comes from. The text that an element should show is the one that
its first text entry names, and otherwise the first text that lies in it (`shownText?`). The reading
asks for the second only where there is no entry at all, and passes over texts without an
identifier; where the text that should be shown is passed over, the label is empty.

* `labelOf_sceneTexts`, `textIn?_sceneTexts`: look-ups among the texts are look-ups in the scene;
* `labelFor_eq_shownLabel_iff`: the label is that of the text to be shown, unless it is passed over;
* `labels_resolved_iff`: so it is in the graph of a scene, for every node and every edge.
-/

namespace Drawbridge

/-! ## Texts of elements -/

namespace Element

/-- The text that the first text entry of an element names. An entry may lack an identifier. -/
def textEntry? (e : Element) : Option Text :=
  e.boundTextId?.filter (· ≠ [])

/-- The element that a text lies in. A text may lie in none. -/
def container? (t : Element) : Option Text :=
  t.containerId.text?.filter (· ≠ [])

def content (t : Element) : Text :=
  cleanLabel (t.text.text?.getD [])

end Element

/-- The text that an element's entry names, if it counts. -/
def namedText? (scene : List Element) (e : Element) : Option Element :=
  e.textEntry?.bind fun id => (liveTexts scene).find? fun t => t.id = id

/-- The first text that lies in an element. -/
def heldText? (scene : List Element) (e : Element) : Option Element :=
  (liveTexts scene).find? fun t => t.container? = some e.id

/-- The text that an element should show: the one that is named, else the one that is held. -/
def shownText? (scene : List Element) (e : Element) : Option Element :=
  (namedText? scene e).or (heldText? scene e)

/-- The label that an element should have. -/
def shownLabel (scene : List Element) (e : Element) : Text :=
  ((shownText? scene e).map Element.content).getD []

/--
The text that an element should show is passed over: no text that counts is named, and one with
content is held, but an entry names a text all the same, or the text held has no identifier.
-/
def IsPassedOver (scene : List Element) (e : Element) : Prop :=
  namedText? scene e = none ∧
    ∃ t, heldText? scene e = some t ∧ t.content ≠ [] ∧ (e.textEntry? ≠ none ∨ t.id = [])

/-! ## Look-ups -/

/-- Where keys are different, the item with a key is found whatever the order. -/
theorem find?_eq_some_iff_of_nodup {α κ : Type} [DecidableEq κ] {key : α → κ} {l : List α}
    (distinct : (l.map key).Nodup) {k : κ} {a : α} :
    l.find? (fun b => key b = k) = some a ↔ a ∈ l ∧ key a = k := by
  constructor
  · intro found
    exact ⟨List.mem_of_find?_eq_some found, by simpa using List.find?_some found⟩
  · rintro ⟨ha, rfl⟩
    have some_found : (l.find? fun b => key b = key a).isSome = true :=
      List.find?_isSome.mpr ⟨a, ha, decide_eq_true rfl⟩
    obtain ⟨b, hb⟩ := Option.isSome_iff_exists.mp some_found
    have same : key b = key a := by simpa using List.find?_some hb
    rw [hb, List.inj_on_of_nodup_map distinct (List.mem_of_find?_eq_some hb) ha same]

theorem find?_reverse_of_nodup {α κ : Type} [DecidableEq κ] {key : α → κ} {l : List α}
    (distinct : (l.map key).Nodup) (k : κ) :
    l.reverse.find? (fun b => key b = k) = l.find? (fun b => key b = k) := by
  have distinct' : (l.reverse.map key).Nodup := by
    rw [List.map_reverse]
    exact List.nodup_reverse.mpr distinct
  ext a
  rw [find?_eq_some_iff_of_nodup distinct, find?_eq_some_iff_of_nodup distinct', List.mem_reverse]

theorem textItem_container (t : Element) : (textItem t).container = t.container? := by
  unfold textItem Element.container?
  cases t.containerId with
  | str s => cases s <;> rfl
  | _ => simp [Json.text?]

section Scene

variable {scene : List Element}

/-- The label of a text is its content, if texts have different identifiers. -/
theorem labelOf_sceneTexts (distinct : ((liveTexts scene).map (·.id)).Nodup) (id : Text) :
    labelOf (sceneTexts scene) id =
      (((liveTexts scene).find? fun t => t.id = id).map Element.content).getD [] := by
  have items : sceneTexts scene = (liveTexts scene).map textItem := rfl
  rw [labelOf, items, ← List.map_reverse, List.find?_map, Option.map_map]
  have found := find?_reverse_of_nodup distinct id
  rw [← found]
  rfl

/-- The first text in an element is looked up by its container. -/
theorem textIn?_sceneTexts (e : Element) :
    textIn? (sceneTexts scene) e.id = (heldText? scene e).map (·.id) := by
  have items : sceneTexts scene = (liveTexts scene).map textItem := rfl
  rw [textIn?, items, List.find?_map, Option.map_map, heldText?]
  simp only [Function.comp_def, textItem_container]
  rfl

/-- A named text gives the label, and an entry that names none leaves it empty. -/
theorem labelFor_of_entry (distinct : ((liveTexts scene).map (·.id)).Nodup) {e : Element}
    {id : Text} (entry : e.textEntry? = some id) :
    labelFor (sceneTexts scene) e = ((namedText? scene e).map Element.content).getD [] := by
  have full : id ≠ [] := by
    obtain ⟨-, full⟩ := Option.filter_eq_some_iff.mp entry
    exact of_decide_eq_true full
  obtain ⟨c, r, rfl⟩ := List.exists_cons_of_ne_nil full
  unfold Element.textEntry? at entry
  rw [labelFor, entry, namedText?, Element.textEntry?, entry]
  exact labelOf_sceneTexts distinct (c :: r)

/-- Without an entry the text that is held gives the label, if it has an identifier. -/
theorem labelFor_of_no_entry (distinct : ((liveTexts scene).map (·.id)).Nodup) {e : Element}
    (entry : e.textEntry? = none) :
    labelFor (sceneTexts scene) e =
      (((heldText? scene e).filter (·.id ≠ [])).map Element.content).getD [] := by
  unfold Element.textEntry? at entry
  rw [labelFor, entry, textIn?_sceneTexts]
  cases held : heldText? scene e with
  | none => rfl
  | some t =>
    have itself : (liveTexts scene).find? (fun u => u.id = t.id) = some t :=
      (find?_eq_some_iff_of_nodup distinct).mpr ⟨List.mem_of_find?_eq_some held, rfl⟩
    have found := labelOf_sceneTexts distinct t.id
    rw [itself] at found
    rw [Option.filter_some, Option.map_some, Option.none_or]
    cases ht : t.id with
    | nil => rfl
    | cons c r =>
      rw [ht] at found
      exact found

/-- **The label is that of the text to be shown, unless that text is passed over.** -/
theorem labelFor_eq_shownLabel_iff (distinct : ((liveTexts scene).map (·.id)).Nodup) (e : Element) :
    labelFor (sceneTexts scene) e = shownLabel scene e ↔ ¬ IsPassedOver scene e := by
  unfold IsPassedOver shownLabel shownText?
  cases entry : e.textEntry? with
  | some id =>
    rw [labelFor_of_entry distinct entry]
    cases named : namedText? scene e with
    | some t => simp
    | none =>
      cases held : heldText? scene e with
      | none => simp
      | some t => simp [List.nil_eq]
  | none =>
    have unnamed : namedText? scene e = none := by rw [namedText?, entry, Option.bind_none]
    rw [labelFor_of_no_entry distinct entry, unnamed]
    cases held : heldText? scene e with
    | none => simp
    | some t =>
      rw [Option.filter_some]
      by_cases bare : t.id = []
      · simp [bare, List.nil_eq]
      · simp [bare]

end Scene

/-! ## Graphs -/

theorem foldl_addShape_labels (labels : Dictionary Text) (texts : List TextItem)
    (items : List ShapeItem) (st : ReadState) :
    (items.foldl (ReadState.addShape labels texts) st).nodes.map (fun n => (n.sourceId, n.label)) =
      st.nodes.map (fun n => (n.sourceId, n.label)) ++
        items.map fun i => (i.element.id, labelFor texts i.element) := by
  induction items generalizing st with
  | nil => simp
  | cons i items ih =>
    have node : (st.addShape labels texts i).nodes.map (fun n => (n.sourceId, n.label)) =
        st.nodes.map (fun n => (n.sourceId, n.label)) ++
          [(i.element.id, labelFor texts i.element)] := by
      rw [ReadState.addShape, List.map_append]
      rfl
    rw [List.foldl_cons, ih, node, List.append_assoc, List.singleton_append, List.map_cons]

theorem graphRead_labels (labels : Dictionary Text) (scene : List Element) :
    (graphRead labels scene).nodes.map (fun n => (n.sourceId, n.label)) =
      (liveShapes scene).map fun s => (s.id, labelFor (sceneTexts scene) s) := by
  have nodes := foldl_addShape_labels labels (sceneTexts scene) (sceneShapes scene) {}
  rw [List.map_nil, List.nil_append] at nodes
  exact nodes.trans
    (filterMap_shapeItem? (fun s => (s.id, labelFor (sceneTexts scene) s)) (liveElements scene))

/--
**Labels come from the texts that should be shown.** Where shapes have different identifiers, and so
have texts, the graph of a scene has a node for every shape and an edge for every arrow between
shapes, and the label is that of the text to be shown, unless that text is passed over.
-/
theorem labels_resolved_iff {scene : List Element} {labels : Dictionary Text} {g : Graph}
    (read : readGraph scene labels = .ok g) (shapes : ((liveShapes scene).map (·.id)).Nodup)
    (texts : ((liveTexts scene).map (·.id)).Nodup) :
    List.Forall₂ (fun s n => n.sourceId = s.id ∧
      (n.label = shownLabel scene s ↔ ¬ IsPassedOver scene s)) (liveShapes scene) g.nodes ∧
    List.Forall₂ (fun a e => g.Draws (sceneTexts scene) a e ∧
      (e.label = shownLabel scene a ↔ ¬ IsPassedOver scene a)) (joiningArrows scene) g.edges := by
  obtain ⟨-, rfl⟩ := readGraph_eq_ok_iff.mp read
  constructor
  · have nodes := graphRead_labels labels scene
    rw [← List.forall₂_eq_eq_eq, List.forall₂_map_left_iff, List.forall₂_map_right_iff] at nodes
    refine List.Forall₂.imp ?_ nodes.flip
    intro s n shown
    obtain ⟨source, label⟩ := Prod.mk.inj shown
    refine ⟨source, ?_⟩
    rw [label]
    exact labelFor_eq_shownLabel_iff texts s
  · refine List.Forall₂.imp ?_ (graphRead_resolved shapes).edges
    intro a e drawn
    refine ⟨drawn, ?_⟩
    rw [drawn.label]
    exact labelFor_eq_shownLabel_iff texts a

/-- Texts in the wrong place, before what shows them, competing, deleted and missing. -/
def contestedScene : List Element :=
  [{ id := "1".toList, type := "text".toList, text := .str "other".toList,
     containerId := .str "x".toList },
    { id := "x".toList, type := "rectangle".toList,
      boundElements := [⟨"a".toList, "arrow".toList⟩, ⟨"2".toList, "text".toList⟩] },
    { id := "2".toList, type := "text".toList, text := .str "two\n words".toList,
      containerId := .str "y".toList },
    { id := "y".toList, type := "ellipse".toList },
    { id := "z".toList, type := "diamond".toList,
      boundElements := [⟨"3".toList, "text".toList⟩] },
    { id := "3".toList, type := "text".toList, text := .str "deleted".toList,
      containerId := .str "z".toList, isDeleted := true },
    { id := "4".toList, type := "text".toList, text := .str "hidden".toList,
      containerId := .str "z".toList },
    { id := "a".toList, type := "arrow".toList, startId := some "x".toList,
      endId := some "y".toList },
    { id := "5".toList, type := "text".toList, text := .str "go".toList,
      containerId := .str "a".toList }]

/-- Of the texts only the one in `z` is passed over, whose entry names a text that was deleted. -/
theorem labels_resolved_contestedScene :
    ((liveShapes contestedScene).map (·.id)).Nodup ∧ ((liveTexts contestedScene).map (·.id)).Nodup ∧
    ∃ g, readGraph contestedScene = .ok g ∧
      List.Forall₂ (fun s n => n.sourceId = s.id ∧
        (n.label = shownLabel contestedScene s ↔ ¬ IsPassedOver contestedScene s))
        (liveShapes contestedScene) g.nodes ∧
      g.nodes.map (·.label) = ["two words".toList, "two words".toList, []] ∧
      (liveShapes contestedScene).map (shownLabel contestedScene) =
        ["two words".toList, "two words".toList, "hidden".toList] ∧
      g.edges.map (·.label) = ["go".toList] := by
  have shapes : ((liveShapes contestedScene).map (·.id)).Nodup := by decide +kernel
  have texts : ((liveTexts contestedScene).map (·.id)).Nodup := by decide +kernel
  have labels : (readGraph contestedScene).toOption.map
      (fun g => (g.nodes.map (·.label), g.edges.map (·.label))) =
      some (["two words".toList, "two words".toList, []], ["go".toList]) := by decide +kernel
  obtain ⟨g, read, labels⟩ := Option.map_eq_some_iff.mp labels
  have read := eq_ok_of_toOption read
  obtain ⟨nodes, edges⟩ := Prod.mk.inj labels
  refine ⟨shapes, texts, g, read, (labels_resolved_iff read shapes texts).1, nodes, ?_, edges⟩
  decide +kernel

/-- A box whose entry names a text that is gone, and a text that lies in it. -/
def staleScene : List Element :=
  [{ id := "box".toList, type := "rectangle".toList,
     boundElements := [⟨"gone".toList, "text".toList⟩] },
    { id := "t".toList, type := "text".toList, text := .str "Start".toList,
      containerId := .str "box".toList }]

/-- The box has no label, although a text lies in it. -/
theorem label_passedOver :
    ((liveElements staleScene).map (·.id)).Nodup ∧
    (liveShapes staleScene).map (shownLabel staleScene) = ["Start".toList] ∧
    (readGraph staleScene).toOption.map (fun g => g.nodes.map (·.label)) = some [[]] := by
  decide +kernel

end Drawbridge
