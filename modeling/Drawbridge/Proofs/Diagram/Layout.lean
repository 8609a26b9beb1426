import Drawbridge.Diagram.Layout
import Drawbridge.Proofs.Graph.Reading
import Mathlib.Data.List.Nodup

/-!
Reading a diagram that has been laid out. Elements are numbered in one sequence (`numbers_nodup`),
so every text is found again by the shape or arrow it lies in (`AreCarriers.labelFor_eq`), and every
end of an arrow by the node it is bound to (`boundNode?_shapeOf`). `readGraph_render`: the graph of
the layout has the nodes of the diagram in their order under canonical names, and the edges of the
diagram between them.
-/

namespace Drawbridge.Layout

/-! ## Numbers -/

theorem numbered_injective {k l : String} (h : k.toList.length = l.toList.length) {m n : Nat}
    (heq : numbered k m = numbered l n) : m = n := by
  have tails := (List.append_inj heq h).2
  exact decimal_injective (List.cons.inj tails).2

theorem numbered_ne_nil (k : String) (n : Nat) : numbered k n ≠ [] := by
  simp [numbered]

theorem placeNodes_map (index number : Nat) (ns : List DraftNode) :
    (placeNodes index number ns).1.map (·.node) = ns := by
  induction ns generalizing index number with
  | nil => rfl
  | cons n ns ih => exact congrArg (n :: ·) (ih _ _)

theorem placeEdges_map (number : Nat) (es : List Edge) :
    (placeEdges number es).map (·.edge) = es := by
  induction es generalizing number with
  | nil => rfl
  | cons e es ih => exact congrArg (e :: ·) (ih _)

/-- The numbers of shapes or arrows with these labels, of which the first one is `k`. -/
def numbersFrom (k : Nat) : List Text → List Nat
  | [] => []
  | l :: ls => k :: numbersFrom (if l = [] then k + 1 else k + 2) ls

theorem numbersFrom_sorted (k : Nat) (ls : List Text) :
    (numbersFrom k ls).Pairwise (· < ·) ∧ ∀ n ∈ numbersFrom k ls, k ≤ n := by
  induction ls generalizing k with
  | nil => exact ⟨.nil, by simp [numbersFrom]⟩
  | cons l ls ih =>
    obtain ⟨next, hnext, more⟩ : ∃ next, (if l = [] then k + 1 else k + 2) = next ∧ k < next := by
      refine ⟨_, rfl, ?_⟩
      split <;> omega
    obtain ⟨sorted, above⟩ := ih next
    rw [numbersFrom, hnext]
    refine ⟨List.pairwise_cons.mpr ⟨?_, sorted⟩, ?_⟩
    · intro n hn
      have := above n hn
      omega
    · intro n hn
      rcases List.mem_cons.mp hn with rfl | hn
      · exact Nat.le_refl n
      · have := above n hn
        omega

/-- Nodes are numbered before whatever comes after them. -/
theorem placeNodes_numbers (index k : Nat) (ns : List DraftNode) (ls : List Text) :
    (placeNodes index k ns).1.map (·.number) ++ numbersFrom (placeNodes index k ns).2 ls =
      numbersFrom k (ns.map (·.label) ++ ls) := by
  induction ns generalizing index k with
  | nil => rfl
  | cons n ns ih => exact congrArg (k :: ·) (ih (index + 1) _)

theorem placeEdges_numbers (k : Nat) (es : List Edge) :
    (placeEdges k es).map (·.number) = numbersFrom k (es.map (·.label)) := by
  induction es generalizing k with
  | nil => rfl
  | cons e es ih => exact congrArg (k :: ·) (ih _)

/-! ## Texts and what they lie in -/

/-- What a text may lie in: its identifier, its number and its label. -/
structure Carrier where
  owner : Text
  number : Nat
  label : Text

def Carrier.textItem (c : Carrier) : TextItem where
  id := numbered "text" (c.number + 1)
  label := cleanLabel c.label
  container := some c.owner

def Carrier.text? (c : Carrier) : Option TextItem :=
  if c.label = [] then none else some c.textItem

/-- Carriers with numbers of their own, by which they are identified. -/
structure AreCarriers (cs : List Carrier) : Prop where
  distinct : (cs.map (·.number)).Nodup
  owners : ∀ c ∈ cs, c.owner = numbered "shape" c.number ∨ c.owner = numbered "arrow" c.number

namespace AreCarriers

variable {cs : List Carrier}

theorem eq_of_number (h : AreCarriers cs) {c c' : Carrier} (hc : c ∈ cs) (hc' : c' ∈ cs)
    (hn : c.number = c'.number) : c = c' :=
  List.inj_on_of_nodup_map h.distinct hc hc' hn

theorem eq_of_owner (h : AreCarriers cs) {c c' : Carrier} (hc : c ∈ cs) (hc' : c' ∈ cs)
    (ho : c.owner = c'.owner) : c = c' := by
  apply h.eq_of_number hc hc'
  rcases h.owners c hc with e | e <;> rcases h.owners c' hc' with e' | e' <;>
    rw [e, e'] at ho <;> exact numbered_injective (by decide) ho

theorem mem_texts {t : TextItem} (ht : t ∈ cs.filterMap Carrier.text?) :
    ∃ c ∈ cs, c.label ≠ [] ∧ t = c.textItem := by
  obtain ⟨c, hc, htext⟩ := List.mem_filterMap.mp ht
  unfold Carrier.text? at htext
  split at htext
  · cases htext
  · rename_i hl
    cases htext
    exact ⟨c, hc, hl, rfl⟩

/-- The text of a carrier is found by its identifier. -/
theorem labelOf_eq (h : AreCarriers cs) {c : Carrier} (hc : c ∈ cs) (hl : c.label ≠ []) :
    labelOf (cs.filterMap Carrier.text?) (numbered "text" (c.number + 1)) =
      cleanLabel c.label := by
  unfold labelOf
  cases hf : (cs.filterMap Carrier.text?).reverse.find?
      fun t => t.id = numbered "text" (c.number + 1) with
  | none =>
    have listed : c.textItem ∈ cs.filterMap Carrier.text? :=
      List.mem_filterMap.mpr ⟨c, hc, if_neg hl⟩
    have missed := List.find?_eq_none.mp hf _ (List.mem_reverse.mpr listed)
    exact (missed (decide_eq_true rfl)).elim
  | some t =>
    have found := List.find?_some hf
    rw [decide_eq_true_eq] at found
    obtain ⟨c', hc', -, rfl⟩ := mem_texts (List.mem_reverse.mp (List.mem_of_find?_eq_some hf))
    have same := h.eq_of_number hc' hc (Nat.succ.inj (numbered_injective rfl found))
    rw [same]
    rfl

theorem textIn?_eq_none (h : AreCarriers cs) {c : Carrier} (hc : c ∈ cs) (hl : c.label = []) :
    textIn? (cs.filterMap Carrier.text?) c.owner = none := by
  unfold Drawbridge.textIn?
  rw [Option.map_eq_none_iff, List.find?_eq_none]
  intro t ht hcontainer
  obtain ⟨c', hc', hl', rfl⟩ := mem_texts ht
  have same := h.eq_of_owner hc' hc (Option.some.inj (of_decide_eq_true hcontainer))
  rw [same] at hl'
  exact hl' hl

/-- **The label of a carrier is that of its text.** -/
theorem labelFor_eq (h : AreCarriers cs) {c : Carrier} (hc : c ∈ cs) {e : Element}
    (hid : e.id = c.owner)
    (hb : e.boundTextId? = if c.label = [] then none else some (numbered "text" (c.number + 1))) :
    labelFor (cs.filterMap Carrier.text?) e = cleanLabel c.label := by
  unfold labelFor
  by_cases hl : c.label = []
  · rw [if_pos hl] at hb
    simp only [hb, hid, h.textIn?_eq_none hc hl, hl]
    rfl
  · rw [if_neg hl] at hb
    have label := h.labelOf_eq hc hl
    obtain ⟨a, r, hr⟩ := List.exists_cons_of_ne_nil (numbered_ne_nil "text" (c.number + 1))
    rw [hr] at hb label
    simp only [hb]
    exact label

end AreCarriers

/-! ## Elements -/

theorem shape_name (shape : Shape) :
    Shape.ofName? shape.name = some shape ∧ shape.name ≠ "text".toList ∧
      shape.name ≠ "arrow".toList := by
  cases shape <;> exact ⟨rfl, by decide, by decide⟩

/-- The colours of a node: those of its style class, or the defaults. -/
def drawnFill (d : Draft) (n : DraftNode) : Json :=
  (Json.str ((((d.classDefs.get? n.styleClass).getD []).get? "fill".toList).getD
    transparent)).orElse (.str defaultFill)

def drawnStroke (d : Draft) (n : DraftNode) : Json :=
  (Json.str ((((d.classDefs.get? n.styleClass).getD []).get? "stroke".toList).getD
    defaultStroke)).orElse (.str defaultStroke)

def drawnLook (d : Draft) (n : DraftNode) : Look where
  shape := n.shape
  label := cleanLabel n.label
  fill := drawnFill d n
  stroke := drawnStroke d n

def drawnShape (d : Draft) (edges : List PlacedEdge) (p : PlacedNode) : ShapeItem where
  element := shapeOf d edges p
  shape := p.node.shape
  fill := drawnFill d p.node
  stroke := drawnStroke d p.node

variable (d : Draft) (edges : List PlacedEdge) (p : PlacedNode)

theorem shapeItem?_shapeOf : shapeItem? (shapeOf d edges p) = some (drawnShape d edges p) := by
  have shape : (shapeOf d edges p).shape? = some p.node.shape := (shape_name p.node.shape).1
  rw [shapeItem?, shape]
  rfl

theorem shapeOf_kind :
    (shapeOf d edges p).isText = false ∧ (shapeOf d edges p).isArrow = false :=
  ⟨decide_eq_false (shape_name p.node.shape).2.1, decide_eq_false (shape_name p.node.shape).2.2⟩

theorem textIn_kind (e : Element) (id label : Text) (groups : List Text) :
    (textIn e id label groups).isText = true ∧ (textIn e id label groups).isArrow = false ∧
      shapeItem? (textIn e id label groups) = none :=
  ⟨rfl, rfl, rfl⟩

theorem arrowOf_kind (q : PlacedEdge) (start stop : Element) :
    (arrowOf q start stop).isText = false ∧ (arrowOf q start stop).isArrow = true ∧
      shapeItem? (arrowOf q start stop) = none :=
  ⟨rfl, rfl, rfl⟩

/-- A text is read with what it lies in. -/
theorem textItem_textIn (e : Element) (h : e.id ≠ []) (id label : Text) (groups : List Text) :
    textItem (textIn e id label groups) =
      { id, label := cleanLabel label, container := some e.id } := by
  have present : (textIn e id label groups).containerId.isTruthy = true := by
    show (!e.id.isEmpty) = true
    simpa using h
  rw [textItem, if_pos present]
  rfl

def nodeCarrier (p : PlacedNode) : Carrier :=
  ⟨numbered "shape" p.number, p.number, p.node.label⟩

def edgeCarrier (q : PlacedEdge) : Carrier :=
  ⟨numbered "arrow" q.number, q.number, q.edge.label⟩

theorem nodeElements_read :
    (nodeElements d edges p).filterMap shapeItem? = [drawnShape d edges p] ∧
      ((nodeElements d edges p).filter Element.isText).map textItem =
        (nodeCarrier p).text?.toList ∧
      (nodeElements d edges p).filter Element.isArrow = [] := by
  have shape := shapeItem?_shapeOf d edges p
  obtain ⟨noText, noArrow⟩ := shapeOf_kind d edges p
  unfold nodeElements
  by_cases hl : p.node.label = []
  · have unlabelled : (nodeCarrier p).text? = none := if_pos hl
    simp [hl, shape, noText, noArrow, unlabelled]
  · have labelled : (nodeCarrier p).text? = some (nodeCarrier p).textItem := if_neg hl
    have read := textItem_textIn (shapeOf d edges p) (numbered_ne_nil "shape" p.number)
      (numbered "text" (p.number + 1)) p.node.label (shapeOf d edges p).groupIds
    obtain ⟨text, arrow, unshaped⟩ := textIn_kind (shapeOf d edges p)
      (numbered "text" (p.number + 1)) p.node.label (shapeOf d edges p).groupIds
    simp [hl, shape, noText, noArrow, labelled, read, text, arrow, unshaped]
    rfl

theorem edgeElements_read {shapeNamed? : Text → Option Element} {q : PlacedEdge}
    {start stop : Element} (hs : shapeNamed? q.edge.source = some start)
    (ht : shapeNamed? q.edge.target = some stop) :
    (edgeElements shapeNamed? q).filterMap shapeItem? = [] ∧
      ((edgeElements shapeNamed? q).filter Element.isText).map textItem =
        (edgeCarrier q).text?.toList ∧
      (edgeElements shapeNamed? q).filter Element.isArrow = [arrowOf q start stop] := by
  obtain ⟨noText, isArrow, noShape⟩ := arrowOf_kind q start stop
  unfold edgeElements
  rw [hs, ht]
  by_cases hl : q.edge.label = []
  · have unlabelled : (edgeCarrier q).text? = none := if_pos hl
    simp [hl, noText, isArrow, noShape, unlabelled]
  · have labelled : (edgeCarrier q).text? = some (edgeCarrier q).textItem := if_neg hl
    have read := textItem_textIn (arrowOf q start stop) (numbered_ne_nil "arrow" q.number)
      (numbered "text" (q.number + 1)) q.edge.label []
    obtain ⟨text, arrow, unshaped⟩ := textIn_kind (arrowOf q start stop)
      (numbered "text" (q.number + 1)) q.edge.label []
    simp [hl, noText, isArrow, noShape, labelled, read, text, arrow, unshaped]
    rfl

theorem find?_arrowsAt (es : List PlacedEdge) (id : Text) :
    (arrowsAt es id).find? (fun b => b.type = "text".toList) = none := by
  rw [List.find?_eq_none]
  intro b hb
  obtain ⟨q, -, hq⟩ := List.mem_flatMap.mp hb
  have arrow : b.type = "arrow".toList := by
    rcases List.mem_append.mp hq with hq | hq <;> split at hq
    · rw [List.mem_singleton.mp hq]
    · cases hq
    · rw [List.mem_singleton.mp hq]
    · cases hq
  rw [arrow]
  decide

/-- The text attached to a carrier is its own. -/
theorem find?_textEntry (label : Text) (n : Nat) {bs : List BoundElement}
    (h : bs.find? (fun b => b.type = "text".toList) = none) :
    ((textEntry label n ++ bs).find? (fun b => b.type = "text".toList)).map (·.id) =
      if label = [] then none else some (numbered "text" n) := by
  unfold textEntry
  split
  · rw [List.nil_append, h]
    rfl
  · rfl

/-! ## The whole layout -/

def placedNodes (d : Draft) : List PlacedNode :=
  (placeNodes 0 (d.titles.length + 1) d.nodes).1

def placedEdges (d : Draft) : List PlacedEdge :=
  placeEdges (placeNodes 0 (d.titles.length + 1) d.nodes).2 d.edges

def shapeNamed? (d : Draft) (id : Text) : Option Element :=
  ((placedNodes d).find? fun p => p.node.id = id).map (shapeOf d (placedEdges d))

theorem render_elements (d : Draft) :
    (render d).elements = (placedNodes d).flatMap (nodeElements d (placedEdges d)) ++
      (placedEdges d).flatMap (edgeElements (shapeNamed? d)) := (rfl)

def carriers (d : Draft) : List Carrier :=
  (placedNodes d).map nodeCarrier ++ (placedEdges d).map edgeCarrier

/-- **No number is used twice.** -/
theorem numbers_nodup (d : Draft) :
    ((placedNodes d).map (·.number) ++ (placedEdges d).map (·.number)).Nodup := by
  rw [placedEdges, placeEdges_numbers, placedNodes, placeNodes_numbers]
  exact (numbersFrom_sorted _ _).1.imp Nat.ne_of_lt

theorem areCarriers (d : Draft) : AreCarriers (carriers d) where
  distinct := by
    have numbers : (carriers d).map (·.number) =
        (placedNodes d).map (·.number) ++ (placedEdges d).map (·.number) := by
      rw [carriers, List.map_append, List.map_map, List.map_map]
      rfl
    rw [numbers]
    exact numbers_nodup d
  owners := by
    intro c hc
    rcases List.mem_append.mp hc with hc | hc
    · obtain ⟨p, -, rfl⟩ := List.mem_map.mp hc
      exact .inl rfl
    · obtain ⟨q, -, rfl⟩ := List.mem_map.mp hc
      exact .inr rfl

/-- Edges lie between nodes of the diagram. -/
def EndsKnown (d : Draft) : Prop :=
  ∀ e ∈ d.edges, e.source ∈ d.nodes.map (·.id) ∧ e.target ∈ d.nodes.map (·.id)

variable {d}

theorem exists_placed {id : Text} (h : id ∈ d.nodes.map (·.id)) :
    ∃ p, (placedNodes d).find? (fun p => p.node.id = id) = some p ∧
      shapeNamed? d id = some (shapeOf d (placedEdges d) p) := by
  have nodes : (placedNodes d).map (·.node) = d.nodes := placeNodes_map 0 _ d.nodes
  rw [← nodes, List.map_map] at h
  obtain ⟨p, hp, hid⟩ := List.mem_map.mp h
  cases hf : (placedNodes d).find? fun p => p.node.id = id with
  | none =>
    have missed := List.find?_eq_none.mp hf p hp
    exact (missed (decide_eq_true hid)).elim
  | some q => exact ⟨q, rfl, by rw [shapeNamed?, hf]; rfl⟩

theorem ends_placed (h : EndsKnown d) {q : PlacedEdge} (hq : q ∈ placedEdges d) :
    q.edge.source ∈ d.nodes.map (·.id) ∧ q.edge.target ∈ d.nodes.map (·.id) := by
  apply h
  have edges : (placedEdges d).map (·.edge) = d.edges := placeEdges_map _ d.edges
  rw [← edges]
  exact List.mem_map_of_mem hq

/-- What is drawn is a shape, a text or an arrow. -/
theorem mem_render {e : Element} (he : e ∈ (render d).elements) :
    (∃ p, e = shapeOf d (placedEdges d) p) ∨ (∃ c id l gs, e = textIn c id l gs) ∨
      ∃ q start stop, e = arrowOf q start stop := by
  rw [render_elements] at he
  rcases List.mem_append.mp he with he | he
  · obtain ⟨p, -, he⟩ := List.mem_flatMap.mp he
    rcases List.mem_cons.mp he with rfl | he
    · exact .inl ⟨p, rfl⟩
    · split at he
      · cases he
      · exact .inr (.inl ⟨_, _, _, _, List.mem_singleton.mp he⟩)
  · obtain ⟨q, -, he⟩ := List.mem_flatMap.mp he
    unfold edgeElements at he
    split at he
    · rcases List.mem_cons.mp he with rfl | he
      · exact .inr (.inr ⟨q, _, _, rfl⟩)
      · split at he
        · cases he
        · exact .inr (.inl ⟨_, _, _, _, List.mem_singleton.mp he⟩)
    · cases he

theorem liveElements_render (d : Draft) :
    liveElements (render d).elements = (render d).elements := by
  rw [liveElements, List.filter_eq_self]
  intro e he
  rcases mem_render he with ⟨p, rfl⟩ | ⟨c, id, l, gs, rfl⟩ | ⟨q, start, stop, rfl⟩ <;> rfl

theorem readable_render (d : Draft) : Readable (render d).elements where
  texts := by
    intro e he htext
    rw [liveElements_render] at he
    rcases mem_render he with ⟨p, rfl⟩ | ⟨c, id, l, gs, rfl⟩ | ⟨q, start, stop, rfl⟩
    · rw [(shapeOf_kind d (placedEdges d) p).1] at htext
      cases htext
    · exact ⟨fun _ => ⟨l, rfl⟩, fun _ => rfl⟩
    · cases htext
  colours := by
    intro e he _
    rw [liveElements_render] at he
    rcases mem_render he with ⟨p, rfl⟩ | ⟨c, id, l, gs, rfl⟩ | ⟨q, start, stop, rfl⟩ <;>
      exact ⟨fun _ => rfl, fun _ => rfl⟩

theorem sceneShapes_render (h : EndsKnown d) :
    sceneShapes (render d).elements = (placedNodes d).map (drawnShape d (placedEdges d)) := by
  have nodes : ∀ p ∈ placedNodes d,
      (nodeElements d (placedEdges d) p).filterMap shapeItem? = [drawnShape d (placedEdges d) p] :=
    fun p _ => (nodeElements_read d (placedEdges d) p).1
  have edges : ∀ q ∈ placedEdges d,
      (edgeElements (shapeNamed? d) q).filterMap shapeItem? = [] := by
    intro q hq
    obtain ⟨source, -, hs⟩ := exists_placed (ends_placed h hq).1
    obtain ⟨target, -, ht⟩ := exists_placed (ends_placed h hq).2
    exact (edgeElements_read hs ht).1
  rw [sceneShapes, liveElements_render, render_elements, List.filterMap_append,
    List.filterMap_flatMap, List.filterMap_flatMap, List.flatMap_congr nodes,
    List.flatMap_congr edges, ← List.map_eq_flatMap, List.flatMap_eq_nil_iff.mpr fun _ _ => rfl,
    List.append_nil]

theorem sceneTexts_render (h : EndsKnown d) :
    sceneTexts (render d).elements = (carriers d).filterMap Carrier.text? := by
  have nodes : ∀ p ∈ placedNodes d,
      ((nodeElements d (placedEdges d) p).filter Element.isText).map textItem =
        (nodeCarrier p).text?.toList :=
    fun p _ => (nodeElements_read d (placedEdges d) p).2.1
  have edges : ∀ q ∈ placedEdges d,
      ((edgeElements (shapeNamed? d) q).filter Element.isText).map textItem =
        (edgeCarrier q).text?.toList := by
    intro q hq
    obtain ⟨source, -, hs⟩ := exists_placed (ends_placed h hq).1
    obtain ⟨target, -, ht⟩ := exists_placed (ends_placed h hq).2
    exact (edgeElements_read hs ht).2.1
  rw [sceneTexts, liveElements_render, render_elements, List.filter_append, List.map_append,
    List.filter_flatMap, List.filter_flatMap, List.map_flatMap, List.map_flatMap,
    List.flatMap_congr nodes, List.flatMap_congr edges, carriers,
    List.filterMap_eq_flatMap_toList, List.flatMap_append, List.flatMap_map, List.flatMap_map]

theorem filter_isArrow_render :
    ((render d).elements.filter Element.isArrow) =
      (placedEdges d).flatMap fun q => (edgeElements (shapeNamed? d) q).filter Element.isArrow := by
  have nodes : ∀ p ∈ placedNodes d,
      (nodeElements d (placedEdges d) p).filter Element.isArrow = [] :=
    fun p _ => (nodeElements_read d (placedEdges d) p).2.2
  rw [render_elements, List.filter_append, List.filter_flatMap, List.filter_flatMap,
    List.flatMap_congr nodes, List.flatMap_eq_nil_iff.mpr fun _ _ => rfl, List.nil_append]

/-- **Shapes look as the nodes they were drawn for.** -/
theorem looks_render (h : EndsKnown d) :
    (sceneShapes (render d).elements).map (lookOf (sceneTexts (render d).elements)) =
      d.nodes.map (drawnLook d) := by
  have nodes : (placedNodes d).map (·.node) = d.nodes := placeNodes_map 0 _ d.nodes
  rw [sceneShapes_render h, sceneTexts_render h, List.map_map, ← nodes, List.map_map]
  apply List.map_congr_left
  intro p hp
  have label : labelFor ((carriers d).filterMap Carrier.text?) (shapeOf d (placedEdges d) p) =
      cleanLabel p.node.label :=
    (areCarriers d).labelFor_eq (List.mem_append_left _ (List.mem_map_of_mem hp)) rfl
      (find?_textEntry p.node.label (p.number + 1) (find?_arrowsAt (placedEdges d) p.node.id))
  show Look.mk _ (labelFor _ _) _ _ = Look.mk _ (cleanLabel _) _ _
  rw [← label]
  rfl

/-! ## Ends of arrows -/

/-- Keys that are all different give a member the place at which it is found. -/
theorem idxOf?_map_of_find? {α : Type} {l : List α} {f g : α → Text} (distinct : (l.map f).Nodup)
    {x : Text} {q : α} (hq : l.find? (fun a => g a = x) = some q) :
    (l.map f).idxOf? (f q) = (l.map g).idxOf? x := by
  induction l with
  | nil => cases hq
  | cons a l ih =>
    rw [List.map_cons, List.nodup_cons] at distinct
    rw [List.map_cons, List.map_cons, List.idxOf?_cons, List.idxOf?_cons]
    by_cases ha : g a = x
    · rw [List.find?_cons_of_pos (by simpa using ha)] at hq
      cases hq
      simp [ha]
    · rw [List.find?_cons_of_neg (by simpa using ha)] at hq
      have other : f a ≠ f q := by
        intro heq
        exact distinct.1 (heq ▸ List.mem_map_of_mem (List.mem_of_find?_eq_some hq))
      rw [if_neg (by simpa using other), if_neg (by simpa using ha), ih distinct.2 hq]

def shapeIds (d : Draft) : List Text :=
  (placedNodes d).map fun p => numbered "shape" p.number

theorem shapeIds_nodup (d : Draft) : (shapeIds d).Nodup := by
  have numbers := (List.nodup_append.mp (numbers_nodup d)).1
  have ids : shapeIds d = ((placedNodes d).map (·.number)).map (numbered "shape") := by
    rw [List.map_map]
    rfl
  rw [ids]
  exact numbers.map fun _ _ => numbered_injective rfl

theorem sceneShapes_ids (h : EndsKnown d) :
    (sceneShapes (render d).elements).map (·.element.id) = shapeIds d := by
  rw [sceneShapes_render h, List.map_map]
  rfl

/-- An arrow is bound to the node that its end names. -/
theorem boundNode?_shapeOf {id : Text} {p : PlacedNode}
    (hp : (placedNodes d).find? (fun p => p.node.id = id) = some p) :
    boundNode? (shapeIds d) (some (shapeOf d (placedEdges d) p).id) =
      nameAmong? (d.nodes.map (·.id)) id := by
  have nodes : (placedNodes d).map (·.node) = d.nodes := placeNodes_map 0 _ d.nodes
  have named : d.nodes.map (·.id) = (placedNodes d).map fun p => p.node.id := by
    rw [← nodes, List.map_map]
    rfl
  have place := idxOf?_map_of_find? (shapeIds_nodup d) hp
  have whole : boundNode? (shapeIds d) (some (shapeOf d (placedEdges d) p).id) =
      nameAmong? (shapeIds d) (numbered "shape" p.number) :=
    boundNode?_some _ (numbered_ne_nil "shape" p.number)
  rw [whole, nameAmong?, shapeIds, place, named]
  rfl

/-- An edge as it is read back: between canonical names, with a tidy label. -/
def drawnEdge (d : Draft) (e : Edge) : Edge where
  source := (nameAmong? (d.nodes.map (·.id)) e.source).getD []
  target := (nameAmong? (d.nodes.map (·.id)) e.target).getD []
  label := cleanLabel e.label

theorem nameAmong?_of_mem {ids : List Text} {id : Text} (h : id ∈ ids) :
    nameAmong? ids id = some ((nameAmong? ids id).getD []) := by
  obtain ⟨k, hk⟩ := Option.isSome_iff_exists.mp (List.isSome_idxOf?.mpr h)
  rw [nameAmong?, hk]
  rfl

/-- **Arrows are read as the edges they were drawn for.** -/
theorem sceneEdges_render (h : EndsKnown d) :
    sceneEdges (render d).elements = d.edges.map (drawnEdge d) := by
  have edges : (placedEdges d).map (·.edge) = d.edges := placeEdges_map _ d.edges
  have each : ∀ q ∈ placedEdges d,
      ((edgeElements (shapeNamed? d) q).filter Element.isArrow).filterMap
        (readEdge? (shapeIds d) ((carriers d).filterMap Carrier.text?)) =
          [drawnEdge d q.edge] := by
    intro q hq
    obtain ⟨source, target⟩ := ends_placed h hq
    obtain ⟨p, hp, start⟩ := exists_placed source
    obtain ⟨r, hr, stop⟩ := exists_placed target
    have entry := find?_textEntry q.edge.label (q.number + 1) (show List.find? _ [] = none from rfl)
    rw [List.append_nil] at entry
    have label : labelFor ((carriers d).filterMap Carrier.text?)
        (arrowOf q (shapeOf d (placedEdges d) p) (shapeOf d (placedEdges d) r)) =
          cleanLabel q.edge.label :=
      (areCarriers d).labelFor_eq (List.mem_append_right _ (List.mem_map_of_mem hq)) rfl entry
    have read : readEdge? (shapeIds d) ((carriers d).filterMap Carrier.text?)
        (arrowOf q (shapeOf d (placedEdges d) p) (shapeOf d (placedEdges d) r)) =
          some (drawnEdge d q.edge) := by
      unfold readEdge?
      show (boundNode? _ (some (shapeOf d (placedEdges d) p).id) >>= fun source =>
        boundNode? _ (some (shapeOf d (placedEdges d) r).id) >>= fun target => _) = _
      rw [boundNode?_shapeOf hp, boundNode?_shapeOf hr, nameAmong?_of_mem source,
        nameAmong?_of_mem target]
      show some (Edge.mk _ _ (labelFor _ _)) = _
      rw [label]
      rfl
    rw [(edgeElements_read start stop).2.2, List.filterMap_cons, read]
    rfl
  rw [sceneEdges, liveElements_render, sceneShapes_ids h, sceneTexts_render h,
    filter_isArrow_render, List.filterMap_flatMap, List.flatMap_congr each, ← edges, List.map_map,
    List.map_eq_flatMap]
  rfl

/-- Nodes that look as drawn have the shapes of the nodes they were drawn for, and tidy labels. -/
theorem shown_of_looks {g : Graph}
    (nodes : g.nodes.map Node.plain = nodesOf 0 [] (d.nodes.map (drawnLook d))) :
    g.nodes.map (fun n => (n.id, n.shape, n.label)) =
      d.nodes.mapIdx fun k n => (nodeName k, n.shape, cleanLabel n.label) := by
  have shown := congrArg (List.map fun n => (n.id, n.shape, n.label)) nodes
  rw [List.map_map, nodesOf_shown] at shown
  refine shown.trans (List.ext_getElem? fun i => ?_)
  simp [drawnLook, Function.comp_def]

/-- **The graph of a layout is the diagram that was laid out.** -/
theorem readGraph_render (h : EndsKnown d) (labels : Dictionary Text) :
    ∃ g, readGraph (render d).elements labels = .ok g ∧
      g.nodes.map Node.plain = nodesOf 0 [] (d.nodes.map (drawnLook d)) ∧
      g.styles = stylesOf [] (d.nodes.map (drawnLook d)) ∧
      g.edges = d.edges.map (drawnEdge d) := by
  have distinct : ((sceneShapes (render d).elements).map (·.element.id)).Nodup := by
    rw [sceneShapes_ids h]
    exact shapeIds_nodup d
  obtain ⟨g, read, nodes, styles, edges⟩ := readGraph_eq (readable_render d) distinct labels
  rw [looks_render h] at nodes styles
  rw [sceneEdges_render h] at edges
  exact ⟨g, read, nodes, styles, edges⟩

end Drawbridge.Layout
