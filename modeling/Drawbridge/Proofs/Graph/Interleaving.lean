import Drawbridge.Proofs.Graph.Resolution

/-!
How the elements of a scene are interleaved does not matter. A scene is read kind by kind
(`readGraph_eq_readKinds`): no step of the reading meets an element of another kind than its own, or
one that does not count. So scenes with the same shapes, arrows and texts, each kind in its own
order, have the same graph and are written alike, faults included (`readGraph_interleaved`).
-/

namespace Drawbridge

def liveTexts (scene : List Element) : List Element :=
  (liveElements scene).filter Element.isText

/-- The same shapes, arrows and texts count in two scenes, each kind in the same order. -/
structure SameByKind (scene scene' : List Element) : Prop where
  shapes : liveShapes scene = liveShapes scene'
  arrows : liveArrows scene = liveArrows scene'
  texts : liveTexts scene = liveTexts scene'

/-- The graph of some shapes, arrows and texts. `groupLabels` gives groups their display labels. -/
def readKinds (shapes arrows texts : List Element) (groupLabels : Dictionary Text) :
    Except Fault Graph := do
  let texts ← texts.mapM readTextItem
  let items ← List.filterMap id <$> shapes.mapM readShapeItem
  let st := items.foldl (ReadState.addShape groupLabels texts) {}
  let edges := arrows.filterMap (readEdge? st.ids texts)
  return { nodes := st.nodes, edges, blocks := st.blocks, styles := st.styles }

/-- Elements that give nothing may be left out beforehand; those that fail are among the others. -/
theorem filterMap_mapM_filter {ε α β : Type} {f : α → Except ε (Option β)} {p : α → Bool}
    (passed : ∀ a, p a = false → f a = .ok none) (l : List α) :
    List.filterMap id <$> (l.filter p).mapM f = List.filterMap id <$> l.mapM f := by
  induction l with
  | nil => rfl
  | cons a l ih =>
    cases taken : p a with
    | false =>
      rw [List.filter_cons_of_neg (by simp [taken]), ih, List.mapM_cons, passed a taken]
      cases l.mapM f <;> rfl
    | true =>
      rw [List.filter_cons_of_pos taken, List.mapM_cons, List.mapM_cons]
      cases f a with
      | error e => rfl
      | ok b =>
        have head (x : Except ε (List (Option β))) :
            List.filterMap id <$> (x >>= fun bs => pure (b :: bs)) =
              (b.toList ++ ·) <$> (List.filterMap id <$> x) := by
          cases x with
          | error e => rfl
          | ok bs => cases b <;> rfl
        exact (head _).trans ((congrArg _ ih).trans (head _).symm)

/-- **A scene is read kind by kind.** -/
theorem readGraph_eq_readKinds (scene : List Element) (labels : Dictionary Text) :
    readGraph scene labels =
      readKinds (liveShapes scene) (liveArrows scene) (liveTexts scene) labels := by
  have others : ∀ e : Element, e.isShape = false → readShapeItem e = .ok none := by
    intro e other
    rw [readShapeItem, Option.isNone_iff_eq_none.mp (Option.isSome_eq_false_iff.mp other)]
  rw [readKinds, liveShapes, filterMap_mapM_filter others]
  simp only [bind_map_left]
  rfl

/--
**Only the order within each kind matters.** Two scenes in which the same shapes, the same arrows
and the same texts count, each kind in the same order, have the same graph or fail to be read by
the same fault, and with the same options they are written as the same text or fail alike.
-/
theorem readGraph_interleaved {scene scene' : List Element} (same : SameByKind scene scene') :
    (∀ labels, readGraph scene labels = readGraph scene' labels) ∧
    ∀ options, convertScene scene options = convertScene scene' options := by
  have graphs : ∀ labels, readGraph scene labels = readGraph scene' labels := by
    intro labels
    rw [readGraph_eq_readKinds, readGraph_eq_readKinds, same.shapes, same.arrows, same.texts]
  refine ⟨graphs, fun options => ?_⟩
  rw [convertScene, convertScene, graphs]

/-- An arrow before its shapes, texts before and behind what holds them, two of them in one. -/
def shuffledScene : List Element :=
  [{ id := "a".toList, type := "arrow".toList, startId := some "y".toList,
     endId := some "x".toList },
    { id := "1".toList, type := "text".toList, text := .str "first".toList,
      containerId := .str "x".toList },
    { id := "x".toList, type := "ellipse".toList },
    { id := "2".toList, type := "text".toList, text := .str "second".toList,
      containerId := .str "x".toList },
    { id := "y".toList, type := "rectangle".toList,
      boundElements := [⟨"1".toList, "text".toList⟩] },
    { id := "b".toList, type := "arrow".toList, startId := some "x".toList,
      endId := some "gone".toList },
    { id := "1".toList, type := "text".toList, text := .str "again".toList }]

/-- The same shapes, arrows and texts kind by kind, among elements that do not count. -/
def gatheredScene : List Element :=
  [{ id := "gone".toList, type := "diamond".toList, isDeleted := true },
    { id := "x".toList, type := "ellipse".toList },
    { id := "y".toList, type := "rectangle".toList,
      boundElements := [⟨"1".toList, "text".toList⟩] },
    { id := "0".toList, type := "text".toList, text := .int 5, containerId := .str "x".toList,
      isDeleted := true },
    { id := "1".toList, type := "text".toList, text := .str "first".toList,
      containerId := .str "x".toList },
    { id := "2".toList, type := "text".toList, text := .str "second".toList,
      containerId := .str "x".toList },
    { id := "1".toList, type := "text".toList, text := .str "again".toList },
    { id := "x".toList, type := "frame".toList },
    { id := "a".toList, type := "arrow".toList, startId := some "y".toList,
      endId := some "x".toList },
    { id := "b".toList, type := "arrow".toList, startId := some "x".toList,
      endId := some "gone".toList }]

/-- Both scenes have the same graph: the later of the texts with one identifier gives the label. -/
theorem readGraph_interleaved_shuffledScene :
    SameByKind shuffledScene gatheredScene ∧
    (∃ g, readGraph shuffledScene = .ok g ∧ readGraph gatheredScene = .ok g ∧
      g.nodes.map (·.label) = ["again".toList, "again".toList] ∧
      g.edges = [{ source := "B".toList, target := "A".toList }]) ∧
    convertScene shuffledScene {} = convertScene gatheredScene {} := by
  have same : SameByKind shuffledScene gatheredScene := ⟨rfl, rfl, rfl⟩
  have shown : (readGraph shuffledScene).toOption.map
      (fun g => (g.nodes.map (·.label), g.edges)) =
      some (["again".toList, "again".toList],
        [{ source := "B".toList, target := "A".toList }]) := by decide +kernel
  obtain ⟨g, read, shown⟩ := Option.map_eq_some_iff.mp shown
  have read := eq_ok_of_toOption read
  obtain ⟨nodes, edges⟩ := Prod.mk.inj shown
  obtain ⟨graphs, texts⟩ := readGraph_interleaved same
  exact ⟨same, ⟨g, read, (graphs []).symm.trans read, nodes, edges⟩, texts {}⟩

end Drawbridge
