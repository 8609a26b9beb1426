import Drawbridge.Proofs.Scene.Refusal
import Drawbridge.Service.Handlers

/-!
What a request to convert a scene comes to. Its faults are listed in the order in which the service
comes to them (`ConvertRequest.faults`), and the first decides (`convert_answers_iff`): without any
the answer is a diagram, a fault in a value is reported to the caller, and any other fault is not
caught. Such a fault is a field of the wrong kind or beyond its range, so requests whose fields are
as they are meant to be are always answered (`convert_answers_of_typed`).
-/

namespace Drawbridge

/-! ## Colours that are written -/

def pairFaults (fill stroke : Json) : List Fault :=
  faultsOf (colourOf fill) ++ faultsOf (colourOf stroke)

theorem stopsAt_styleLine (s : StyleClass) :
    StopsAt (styleLine s) (pairFaults s.fill s.stroke) :=
  (stopsAt_faultsOf _).bind fun _ _ => (stopsAt_faultsOf _).map _

/-- Values that are one key are written alike or not at all. -/
theorem faultsOf_colourOf_of_sameKey {j k : Json} (h : j.sameKey k = true) :
    faultsOf (colourOf j) = faultsOf (colourOf k) := by
  cases j with
  | str s =>
    cases k with
    | str t =>
      obtain rfl : s = t := of_decide_eq_true h
      rfl
    | _ => cases h
  | _ =>
    cases k with
    | str t => cases h
    | _ => rfl

/-- Two colours bring into the table of style classes no other fault than their own. -/
theorem resolveStyle_faults {styles : List StyleClass} {found : List Fault}
    (agree : (styles.flatMap fun s => pairFaults s.fill s.stroke).head? = found.head?)
    (fill stroke : Json) :
    ((resolveStyle styles fill stroke).1.flatMap fun s => pairFaults s.fill s.stroke).head? =
      (found ++ pairFaults fill stroke).head? := by
  rw [List.head?_append, ← agree, ← List.head?_append]
  rcases resolveStyle_cases styles fill stroke with ⟨s, hs, known, sameFill, sameStroke⟩ | new
  · -- the colours are in the table: if they have a fault, it has been found
    rw [known, List.head?_append]
    cases before : (styles.flatMap fun s => pairFaults s.fill s.stroke).head? with
    | some f => rfl
    | none =>
      have none_found := List.flatMap_eq_nil_iff.mp (List.head?_eq_none_iff.mp before) s hs
      have same : pairFaults fill stroke = pairFaults s.fill s.stroke := by
        rw [pairFaults, pairFaults, faultsOf_colourOf_of_sameKey sameFill,
          faultsOf_colourOf_of_sameKey sameStroke]
      rw [same, none_found]
      rfl
  · rw [new, List.flatMap_append]
    simp

/-- **The first fault of the table of style classes is the first of the shapes.** -/
theorem foldl_addShape_faults (labels : Dictionary Text) (texts : List TextItem)
    (items : List ShapeItem) (st : ReadState) (found : List Fault)
    (agree : (st.styles.flatMap fun s => pairFaults s.fill s.stroke).head? = found.head?) :
    ((items.foldl (ReadState.addShape labels texts) st).styles.flatMap
        fun s => pairFaults s.fill s.stroke).head? =
      (found ++ items.flatMap fun i => pairFaults i.fill i.stroke).head? := by
  induction items generalizing st found with
  | nil => rwa [List.flatMap_nil, List.append_nil]
  | cons i items ih =>
    have entered := resolveStyle_faults agree i.fill i.stroke
    rw [List.foldl_cons, ih (st.addShape labels texts i) _ entered, List.flatMap_cons,
      List.append_assoc]

theorem faultsOf_colourOf_orElse {default : Text}
    (fine : faultsOf (colourOf (.str default)) = []) (j : Json) :
    faultsOf (colourOf (j.orElse (.str default))) = colourFaults j := by
  unfold Json.orElse colourFaults
  cases j.isTruthy with
  | true => rfl
  | false => exact fine

/-- **A table of style classes is written, or refused for the first fault of a colour.** -/
theorem stopsAt_styleLines {js : List Json} {scene : List Element}
    (accepted : js.mapM Element.ofJson = .ok scene) (labels : Dictionary Text) :
    StopsAt (styleLines (graphRead labels scene).styles)
      ((js.filter Element.counts).flatMap (Element.colourwise colourFaults)) := by
  have table : ((graphRead labels scene).styles.flatMap fun s => pairFaults s.fill s.stroke).head? =
      ((sceneShapes scene).flatMap fun i => pairFaults i.fill i.stroke).head? :=
    foldl_addShape_faults labels (sceneTexts scene) (sceneShapes scene) {} [] rfl
  have shapes : (sceneShapes scene).flatMap (fun i => pairFaults i.fill i.stroke) =
      (js.filter Element.counts).flatMap (Element.colourwise colourFaults) := by
    rw [sceneShapes, List.filterMap_eq_flatMap_toList, List.flatMap_assoc]
    refine (flatMap_eq_of_forall₂ (forall₂_live accepted) fun j e read => ?_).symm
    have taken := Element.takenFrom_of_ofJson read
    rw [Element.colourwise, ← (Element.kind_of_ofJson read).1, ← taken.fill, ← taken.stroke]
    unfold shapeItem? Element.shape?
    cases Shape.ofName? e.type with
    | none => rfl
    | some shape =>
      show colourFaults e.fill ++ colourFaults e.stroke = pairFaults _ _ ++ []
      rw [List.append_nil, pairFaults, faultsOf_colourOf_orElse rfl, faultsOf_colourOf_orElse rfl]
  rw [← shapes]
  exact ((StopsAt.mapM fun s _ => stopsAt_styleLine s).map _).congr table

/-! ## Requests -/

namespace ConvertRequest

def live (r : ConvertRequest) : List Json :=
  r.elements.filter Element.counts

/-- What keeps a graph from being written as a request asks. -/
def writingFaults (r : ConvertRequest) : List Fault :=
  match DiagramType.ofName? r.diagramType with
  | none => [.unsupportedType (.str r.diagramType)]
  | some .flowchart =>
    (if upper r.direction ∈ directions then []
      else [.unsupportedDirection (upper r.direction)]) ++
    (if r.includeColors then r.live.flatMap (Element.colourwise colourFaults) else [])
  | some _ => []

/-- All that is wrong with a request: first with reading its elements, then with those that count,
their texts before their colours, and at last with writing their graph. -/
def faults (r : ConvertRequest) : List Fault :=
  r.elements.flatMap Element.faults ++
    (r.live.flatMap Element.textFaults ++
      r.live.flatMap (Element.colourwise (misfits Json.isScalar)) ++ r.writingFaults)

def options (r : ConvertRequest) : ConvertOptions where
  diagramType := .str r.diagramType
  direction := .str r.direction
  includeColors := r.includeColors
  includeGroups := r.includeGroups
  groupLabels := r.groupLabels

theorem isObject_of_ofJson? {truths : TruthReader} {body : Json} {r : ConvertRequest}
    (accepted : ofJson? truths body = some r) : ∀ j ∈ r.elements, j.isObject = true := by
  unfold ofJson? at accepted
  split at accepted
  · cases accepted
  obtain ⟨elements, listed, accepted⟩ := Option.bind_eq_some_iff.mp accepted
  obtain ⟨diagramType, -, accepted⟩ := Option.bind_eq_some_iff.mp accepted
  obtain ⟨direction, -, accepted⟩ := Option.bind_eq_some_iff.mp accepted
  obtain ⟨includeColors, -, accepted⟩ := Option.bind_eq_some_iff.mp accepted
  obtain ⟨includeGroups, -, accepted⟩ := Option.bind_eq_some_iff.mp accepted
  obtain ⟨groupLabels, -, accepted⟩ := Option.bind_eq_some_iff.mp accepted
  cases accepted
  unfold Body.objects at listed
  split at listed
  · cases listed
    nofun
  · split at listed
    · rename_i objects
      cases listed
      exact List.all_eq_true.mp objects
    · cases listed
  · cases listed

end ConvertRequest

/-- The graph of a request is written, or refused for the first fault in writing it. -/
theorem stopsAt_writeGraph (r : ConvertRequest) {g : Graph} (blocks : List Block)
    (styles : StopsAt (styleLines g.styles) (r.live.flatMap (Element.colourwise colourFaults))) :
    StopsAt (writeGraph g r.options.toWriteOptions blocks) r.writingFaults := by
  have direction : StopsAt (readDirection (.str r.direction))
      (if upper r.direction ∈ directions then []
        else [.unsupportedDirection (upper r.direction)]) := by
    unfold readDirection
    by_cases known : upper r.direction ∈ directions
    · simp only [known, if_true]
      exact .ok _
    · simp only [known, if_false]
      exact .error _ []
  have lines (d : Text) : StopsAt (flowchartLines g d r.includeColors blocks)
      (if r.includeColors then r.live.flatMap (Element.colourwise colourFaults) else []) := by
    unfold flowchartLines
    cases r.includeColors with
    | true => exact styles.map _
    | false => exact .ok _
  have named : r.options.diagramType.text?.bind DiagramType.ofName? =
      DiagramType.ofName? r.diagramType := rfl
  unfold writeGraph DiagramType.ofJson ConvertRequest.writingFaults
  rw [named]
  cases DiagramType.ofName? r.diagramType with
  | none => exact .error _ []
  | some t =>
    cases t with
    | flowchart =>
      exact direction.bind fun d _ => (lines d).map _
    | _ => exact .ok _

/-- **A scene is converted, or refused for the first fault of the request.** -/
theorem stopsAt_convertScene {r : ConvertRequest} (objects : ∀ j ∈ r.elements, j.isObject = true) :
    StopsAt ((r.elements.mapM Element.ofJson).bind fun scene => convertScene scene r.options)
      r.faults := by
  refine StopsAt.bind (StopsAt.mapM fun j hj => Element.stopsAt_ofJson (objects j hj))
    fun scene read => ?_
  refine StopsAt.bind (stopsAt_readGraph read _) fun g graph => ?_
  refine stopsAt_writeGraph r _ ?_
  rw [(readGraph_eq_ok_iff.mp graph).2]
  exact stopsAt_styleLines read _

/-- **Typed elements are refused for nothing but what is written of them.** -/
theorem ConvertRequest.faults_eq_writingFaults {r : ConvertRequest}
    (typed : ∀ j ∈ r.elements, Element.IsTyped j) : r.faults = r.writingFaults := by
  have live : ∀ j ∈ r.live, Element.IsTyped j := fun j hj => typed j (List.mem_of_mem_filter hj)
  have reading : r.elements.flatMap Element.faults = [] :=
    List.flatMap_eq_nil_iff.mpr fun j hj => (typed j hj).faults_eq_nil
  have texts : r.live.flatMap Element.textFaults = [] :=
    List.flatMap_eq_nil_iff.mpr fun j hj => (live j hj).textFaults_eq_nil
  have keys : r.live.flatMap (Element.colourwise (misfits Json.isScalar)) = [] :=
    List.flatMap_eq_nil_iff.mpr fun j hj => (live j hj).keyFaults_eq_nil
  rw [faults, reading, texts, keys]
  rfl

/-- What is wrong with writing them can be worded. -/
theorem ConvertRequest.writingFaults_worded {r : ConvertRequest}
    (typed : ∀ j ∈ r.elements, Element.IsTyped j) :
    ∀ f ∈ r.writingFaults, f.message?.isSome = true := by
  intro f hf
  unfold writingFaults at hf
  split at hf
  · obtain rfl := List.mem_singleton.mp hf
    rfl
  · rcases List.mem_append.mp hf with direction | colour
    · split at direction
      · cases direction
      · obtain rfl := List.mem_singleton.mp direction
        rfl
    · split at colour
      · obtain ⟨j, hj, painted⟩ := List.mem_flatMap.mp colour
        obtain ⟨n, rfl⟩ := (typed j (List.mem_of_mem_filter hj)).exists_eq_badNumber painted
        rfl
      · cases colour
  · cases hf

namespace Service

/-- What comes of the outcome of a conversion. -/
def conversionAnswer : Except Fault Text → Except Failure Answer
  | .ok code => .ok (fieldAnswer "mermaidCode" (.str code))
  | .error f =>
    match f.message? with
    | some m => .ok (errorAnswer m 400)
    | none => .error (.fault f)

theorem convert_eq (r : ConvertRequest) : convert r = conversionAnswer
    ((r.elements.mapM Element.ofJson).bind fun scene => convertScene scene r.options) := rfl

/-- A conversion that stops at a fault is answered if the fault can be worded. -/
theorem conversionAnswer_isOk_iff {x : Except Fault Text} {fs : List Fault} (run : StopsAt x fs) :
    (∃ answer, conversionAnswer x = .ok answer) ↔ ∀ f ∈ fs.head?, f.message?.isSome = true := by
  cases run with
  | ok code => exact iff_of_true ⟨_, rfl⟩ nofun
  | error f fs =>
    dsimp only [conversionAnswer]
    simp only [List.head?_cons, Option.mem_some_iff, forall_eq']
    cases f.message? with
    | some m => exact iff_of_true ⟨_, rfl⟩ rfl
    | none => exact iff_of_false (fun ⟨_, h⟩ => by cases h) Bool.false_ne_true

/-- **Requests with typed elements are always answered.** -/
theorem convert_answers_of_typed {truths : TruthReader} {body : Json} {r : ConvertRequest}
    (accepted : ConvertRequest.ofJson? truths body = some r)
    (typed : ∀ j ∈ r.elements, Element.IsTyped j) : ∃ answer, convert r = .ok answer := by
  have run := stopsAt_convertScene (ConvertRequest.isObject_of_ofJson? accepted)
  rw [ConvertRequest.faults_eq_writingFaults typed] at run
  exact (conversionAnswer_isOk_iff run).mpr fun f hf =>
    ConvertRequest.writingFaults_worded typed f (List.mem_of_mem_head? hf)

/--
**A conversion answers just if the first fault of the request can be worded.** Without a fault the
answer is a diagram. A fault that can be worded is reported to the caller, and any other is raised.
-/
theorem convert_answers_iff {truths : TruthReader} {body : Json} {r : ConvertRequest}
    (accepted : ConvertRequest.ofJson? truths body = some r) :
    ((∃ answer, convert r = .ok answer) ↔ ∀ f ∈ r.faults.head?, f.message?.isSome = true) ∧
    (r.faults = [] → ∃ code, convert r = .ok (fieldAnswer "mermaidCode" (.str code))) ∧
    ∀ f ∈ r.faults.head?, (∀ m ∈ f.message?, convert r = .ok (errorAnswer m 400)) ∧
      (f.message? = none → convert r = .error (.fault f)) := by
  have run := stopsAt_convertScene (ConvertRequest.isObject_of_ofJson? accepted)
  rw [convert_eq]
  refine ⟨conversionAnswer_isOk_iff run, fun clean => ?_, fun f first => ?_⟩
  · rw [clean] at run
    obtain ⟨code, written⟩ := run.exists_eq_ok
    exact ⟨code, by rw [written]; rfl⟩
  · rw [run.eq_error first, conversionAnswer]
    refine ⟨fun m worded => ?_, fun unworded => ?_⟩
    · rw [worded]
    · rw [unworded]

def filledShape (fill : Json) : Json :=
  .obj [("id".toList, .str "a".toList), ("type".toList, .str "rectangle".toList),
    ("backgroundColor".toList, fill)]

def shapeBody (fill : Json) : Json :=
  .obj [("elements".toList, .arr [filledShape fill])]

theorem ofJson?_shapeBody (truths : TruthReader) (fill : Json) :
    ConvertRequest.ofJson? truths (shapeBody fill) = some { elements := [filledShape fill] } := rfl

/-- An opacity with one point is written, one with two points is reported. -/
theorem convert_answers_iff_shapeBody :
    (∃ r, ConvertRequest.ofJson? .strict (shapeBody (.str "rgba(1,2,3,.5)".toList)) = some r ∧
      ∃ code, convert r = .ok (fieldAnswer "mermaidCode" (.str code))) ∧
    ∃ r, ConvertRequest.ofJson? .strict (shapeBody (.str "rgba(1,2,3,.5.)".toList)) = some r ∧
      convert r = .ok (errorAnswer "could not convert string to float: '.5.'".toList 400) := by
  constructor
  · have accepted := ofJson?_shapeBody .strict (.str "rgba(1,2,3,.5)".toList)
    exact ⟨_, accepted,
      (convert_answers_iff accepted).2.1 (List.isEmpty_iff.mp (by decide +kernel))⟩
  · have accepted := ofJson?_shapeBody .strict (.str "rgba(1,2,3,.5.)".toList)
    exact ⟨_, accepted, ((convert_answers_iff accepted).2.2
      (.badNumber (.notANumber ".5.".toList)) rfl).1 _ (by decide +kernel)⟩

/-- **A request that is accepted and not answered.** Its only shape has a list for a fill. -/
theorem convert_raises :
    ∃ r, ConvertRequest.ofJson? .strict (shapeBody (.arr [.str "red".toList])) = some r ∧
      convert r = .error (.fault .wrongKind) :=
  ⟨_, ofJson?_shapeBody .strict _, rfl⟩

end Service

end Drawbridge
