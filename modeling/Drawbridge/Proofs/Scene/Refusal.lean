import Drawbridge.Proofs.Diagram.Faults
import Drawbridge.Proofs.Scene.Export
import Mathlib.Data.List.Forall2

/-!
What a scene is refused for. The faults of an element are listed in the order in which its fields
are looked at: those that keep it from being read (`Element.faults`), those of its text where it is
taken for a label (`Element.textFaults`), and those of its colours where they are taken for keys or
written (`Element.colourwise`). Whatever looks at them one by one stops at the first (`StopsAt`).

* `Element.stopsAt_ofJson`: an element is read, or refused for the first of its faults;
* `stopsAt_readGraph`: so is the graph of a scene;
* `Element.IsTyped`: elements that have no faults but in the wording of a colour.
-/

namespace Drawbridge

/-! ## Computations that stop -/

/-- A computation stops at the first of some faults. Without any it gives a result. -/
inductive StopsAt {ε α : Type} : Except ε α → List ε → Prop
  | ok (a : α) : StopsAt (.ok a) []
  | error (e : ε) (es : List ε) : StopsAt (.error e) (e :: es)

namespace StopsAt

variable {ε α β : Type} {x : Except ε α} {f : α → Except ε β} {e : ε} {es es' : List ε}

theorem exists_eq_ok (h : StopsAt x []) : ∃ a, x = .ok a := by
  cases h with
  | ok a => exact ⟨a, rfl⟩

theorem eq_error (h : StopsAt x es) (first : e ∈ es.head?) : x = .error e := by
  cases h with
  | ok a => cases first
  | error e es =>
    cases first
    rfl

theorem congr (h : StopsAt x es) (same : es.head? = es'.head?) : StopsAt x es' := by
  cases h with
  | ok a =>
    rw [List.head?_eq_none_iff.mp same.symm]
    exact .ok a
  | error e es =>
    obtain ⟨rest, rfl⟩ := List.head?_eq_some_iff.mp same.symm
    exact .error e rest

/-- The faults of a second step come after those of the first. -/
theorem bind (h : StopsAt x es) (hf : ∀ a, x = .ok a → StopsAt (f a) es') :
    StopsAt (x >>= f) (es ++ es') := by
  cases h with
  | ok a => exact hf a rfl
  | error e es => exact .error e (es ++ es')

theorem map (h : StopsAt x es) (g : α → β) : StopsAt (x >>= fun a => .ok (g a)) es := by
  have whole := h.bind fun a _ => .ok (g a)
  rwa [List.append_nil] at whole

theorem mapM {l : List α} {faults : α → List ε} (h : ∀ a ∈ l, StopsAt (f a) (faults a)) :
    StopsAt (l.mapM f) (l.flatMap faults) := by
  induction l with
  | nil => exact .ok []
  | cons a l ih =>
    rw [List.mapM_cons, List.flatMap_cons]
    have rest := ih fun b hb => h b (List.mem_cons_of_mem a hb)
    exact (h a List.mem_cons_self).bind fun b _ => rest.map (b :: ·)

end StopsAt

def faultsOf {ε α : Type} : Except ε α → List ε
  | .ok _ => []
  | .error e => [e]

theorem stopsAt_faultsOf {ε α : Type} (x : Except ε α) : StopsAt x (faultsOf x) := by
  cases x with
  | ok a => exact .ok a
  | error e => exact .error e []

/-! ## Fields -/

/-- Whether a value holds others one by one. -/
def Json.isListing : Json → Bool
  | .arr _ | .str _ | .obj _ => true
  | _ => false

/-- The fault of a value that is present and does not fit. -/
def misfits (fits : Json → Bool) (j : Json) : List Fault :=
  if j.isTruthy && !fits j then [.wrongKind] else []

def coordinateFaults (j : Json) : List Fault :=
  if j.isTruthy then
    match j with
    | .int n => if (Binary64.ofInt? n).isSome then [] else [.tooLarge]
    | .str s => if (readFloat? s).isSome then [] else [.badNumber (.notANumber s)]
    | .arr _ | .obj _ => [.wrongKind]
    | _ => []
  else []

def rowFaults : Json → List Fault
  | .arr rows => rows.flatMap fun row => if row.isListing then [] else [.wrongKind]
  | _ => []

/-- The fault of a colour that is to be written. -/
def colourFaults (j : Json) : List Fault :=
  if j.isTruthy then faultsOf (colourOf j) else []

theorem stopsAt_items (j : Json) :
    StopsAt j.items (if j.isListing then [] else [.wrongKind]) := by
  cases j <;> constructor

theorem stopsAt_optionalItems (j : Json) : StopsAt j.optionalItems (misfits Json.isListing j) := by
  unfold Json.optionalItems misfits
  cases j.isTruthy with
  | false => exact .ok []
  | true =>
    have here := stopsAt_items j
    cases listing : j.isListing with
    | false =>
      rw [listing] at here
      exact here
    | true =>
      rw [listing] at here
      exact here

theorem stopsAt_readCoordinate (j : Json) :
    StopsAt (Element.readCoordinate j) (coordinateFaults j) := by
  unfold Element.readCoordinate coordinateFaults
  cases present : j.isTruthy with
  | false => exact .ok 0.0
  | true =>
    rw [if_pos rfl, if_pos rfl]
    cases j with
    | int n =>
      dsimp only
      cases Binary64.ofInt? n <;> constructor
    | str s =>
      dsimp only [readFloat]
      cases readFloat? s <;> constructor
    | null => cases present
    | _ => constructor

theorem stopsAt_listings {rows : List Json} (h : ∀ row ∈ rows, row.isListing = true) :
    StopsAt (rows.mapM Json.items) [] := by
  have whole := StopsAt.mapM fun row (_ : row ∈ rows) => stopsAt_items row
  rwa [List.flatMap_eq_nil_iff.mpr fun row hr => if_pos (h row hr)] at whole

/-- Characters and keys hold others, so only the rows of a list may not. -/
theorem stopsAt_rows {j : Json} {rows : List Json} (h : j.optionalItems = .ok rows) :
    StopsAt (rows.mapM Json.items) (rowFaults j) := by
  unfold Json.optionalItems at h
  cases present : j.isTruthy with
  | false =>
    rw [present] at h
    cases h
    cases j with
    | arr xs =>
      cases xs with
      | nil => exact .ok []
      | cons x xs => cases present
    | _ => exact .ok []
  | true =>
    rw [present] at h
    cases j with
    | arr xs =>
      cases h
      exact StopsAt.mapM fun row _ => stopsAt_items row
    | str s =>
      cases h
      exact stopsAt_listings (List.forall_mem_map.mpr fun c _ => rfl)
    | obj fs =>
      cases h
      exact stopsAt_listings (List.forall_mem_map.mpr fun f _ => rfl)
    | _ => cases h

/-! ## Elements -/

namespace Element

/-- What keeps an element from being read. -/
def faults (j : Json) : List Fault :=
  let get (key : String) : Json := j.fieldOrNull key.toList
  [misfits Json.isListing (get "boundElements"), misfits Json.isListing (get "groupIds"),
    coordinateFaults (get "x"), coordinateFaults (get "y"), coordinateFaults (get "width"),
    coordinateFaults (get "height"), misfits Json.isListing (get "points"),
    rowFaults (get "points")].flatten

/-- **An element is read, or refused for the first of its faults.** -/
theorem stopsAt_ofJson {j : Json} (object : j.isObject = true) : StopsAt (ofJson j) (faults j) := by
  unfold ofJson faults
  simp only [object, Bool.not_true, Bool.false_eq_true, if_false, List.flatten_cons]
  refine (stopsAt_optionalItems _).bind fun bound _ => ?_
  refine (stopsAt_optionalItems _).bind fun groups _ => ?_
  refine (stopsAt_readCoordinate _).bind fun x _ => ?_
  refine (stopsAt_readCoordinate _).bind fun y _ => ?_
  refine (stopsAt_readCoordinate _).bind fun width _ => ?_
  refine (stopsAt_readCoordinate _).bind fun height _ => ?_
  refine (stopsAt_optionalItems _).bind fun points listed => ?_
  refine (stopsAt_rows listed).bind fun rows _ => ?_
  exact .ok _

def counts (j : Json) : Bool :=
  !(j.fieldOrNull "isDeleted".toList).isTruthy

def textFaults (j : Json) : List Fault :=
  if displayField j "type" = "text".toList then
    misfits (·.text?.isSome) (j.fieldOrNull "text".toList) ++
      misfits Json.isScalar (j.fieldOrNull "containerId".toList)
  else []

/-- What a shape has for each of its colours. -/
def colourwise (faults : Json → List Fault) (j : Json) : List Fault :=
  if (Shape.ofName? (displayField j "type")).isSome then
    faults (j.fieldOrNull "backgroundColor".toList) ++ faults (j.fieldOrNull "strokeColor".toList)
  else []

theorem kind_of_ofJson {j : Json} {e : Element} (h : ofJson j = .ok e) :
    e.type = displayField j "type" ∧ e.isDeleted = !counts j := by
  obtain ⟨bound, groups, x, y, width, height, points, rfl⟩ := exists_of_ofJson h
  exact ⟨rfl, (Bool.not_not _).symm⟩

end Element

theorem misfits_eq_nil {fits : Json → Bool} {j : Json} (h : j.isTruthy = true → fits j = true) :
    misfits fits j = [] := by
  unfold misfits
  cases present : j.isTruthy with
  | false => rfl
  | true =>
    rw [h present]
    rfl

theorem misfits_orElse {fits : Json → Bool} {default : Json} (fit : fits default = true)
    (j : Json) :
    misfits fits (j.orElse default) = misfits fits j := by
  unfold misfits Json.orElse
  cases present : j.isTruthy with
  | true => rw [if_pos rfl, present]
  | false =>
    rw [if_neg Bool.false_ne_true, fit]
    simp

theorem stopsAt_readTextItem (e : Element) : StopsAt (readTextItem e)
    (misfits (·.text?.isSome) e.text ++ misfits Json.isScalar e.containerId) := by
  have container (content : Text) : StopsAt
      (if e.containerId.isTruthy then
        if e.containerId.isScalar then
          .ok (⟨e.id, cleanLabel content, e.containerId.text?⟩ : TextItem)
        else .error .wrongKind
      else .ok ⟨e.id, cleanLabel content, none⟩)
      (misfits Json.isScalar e.containerId) := by
    unfold misfits
    cases e.containerId.isTruthy with
    | false => exact .ok _
    | true => cases e.containerId.isScalar <;> constructor
  unfold readTextItem
  rw [misfits]
  cases present : e.text.isTruthy with
  | false => exact container []
  | true =>
    cases given : e.text with
    | str s => exact container s
    | _ => exact .error _ _

theorem stopsAt_resolveColour (j : Json) (default : Text) :
    StopsAt (resolveColour j default) (misfits Json.isScalar j) := by
  unfold resolveColour misfits Json.orElse
  cases j.isTruthy with
  | false => exact .ok _
  | true =>
    simp only [if_true, Bool.true_and]
    cases j.isScalar <;> constructor

theorem stopsAt_readShapeItem (e : Element) : StopsAt (readShapeItem e)
    (if e.isShape then misfits Json.isScalar e.fill ++ misfits Json.isScalar e.stroke else []) := by
  unfold readShapeItem Element.isShape
  cases e.shape? with
  | none => exact .ok none
  | some shape =>
    refine (stopsAt_resolveColour _ _).bind fun fill _ => ?_
    exact (stopsAt_resolveColour _ _).map _

theorem forall₂_of_mapM_ok {ε α β : Type} {f : α → Except ε β} {l : List α} {bs : List β}
    (h : l.mapM f = .ok bs) : List.Forall₂ (fun a b => f a = .ok b) l bs := by
  induction l generalizing bs with
  | nil =>
    cases h
    exact .nil
  | cons a l ih =>
    rw [List.mapM_cons] at h
    obtain ⟨b, here, h⟩ := ok_of_bind h
    obtain ⟨cs, rest, h⟩ := ok_of_bind h
    cases h
    exact .cons here (ih rest)

/-- Related items with equal lists have equal lists together. -/
theorem flatMap_eq_of_forall₂ {α β γ : Type} {R : α → β → Prop} {as : List α} {bs : List β}
    (h : List.Forall₂ R as bs) {f : α → List γ} {g : β → List γ} (same : ∀ a b, R a b → f a = g b) :
    as.flatMap f = bs.flatMap g :=
  List.forall₂_eq_eq_eq ▸
    List.rel_flatMap (P := Eq) h fun a b r => List.forall₂_eq_eq_eq ▸ same a b r

theorem flatMap_filter {α β : Type} (p : α → Bool) (f : α → List β) (l : List α) :
    (l.filter p).flatMap f = l.flatMap fun a => if p a then f a else [] := by
  induction l with
  | nil => rfl
  | cons a l ih =>
    rw [List.flatMap_cons, ← ih]
    cases here : p a with
    | false => rw [List.filter_cons_of_neg (by rw [here]; exact Bool.false_ne_true)]; rfl
    | true => rw [List.filter_cons_of_pos here]; rfl

/-- The elements that count are read from those of a list that count. -/
theorem forall₂_live {js : List Json} {scene : List Element}
    (accepted : js.mapM Element.ofJson = .ok scene) :
    List.Forall₂ (fun j e => Element.ofJson j = .ok e) (js.filter Element.counts)
      (liveElements scene) := by
  refine List.rel_filter (fun {j e} read => ?_) (forall₂_of_mapM_ok accepted)
  dsimp only
  rw [(Element.kind_of_ofJson read).2, Bool.not_not]

/-- **A graph is read from a scene, or refused for the first fault of a text or else a colour.** -/
theorem stopsAt_readGraph {js : List Json} {scene : List Element}
    (accepted : js.mapM Element.ofJson = .ok scene) (labels : Dictionary Text) :
    StopsAt (readGraph scene labels) ((js.filter Element.counts).flatMap Element.textFaults ++
      (js.filter Element.counts).flatMap (Element.colourwise (misfits Json.isScalar))) := by
  have texts : (js.filter Element.counts).flatMap Element.textFaults =
      ((liveElements scene).filter Element.isText).flatMap fun e =>
        misfits (·.text?.isSome) e.text ++ misfits Json.isScalar e.containerId := by
    rw [flatMap_filter Element.isText]
    apply flatMap_eq_of_forall₂ (forall₂_live accepted)
    intro j e read
    have taken := Element.takenFrom_of_ofJson read
    rw [Element.textFaults, Element.isText, (Element.kind_of_ofJson read).1, taken.text,
      misfits_orElse rfl, taken.container]
    simp only [decide_eq_true_eq]
  have colours : (js.filter Element.counts).flatMap (Element.colourwise (misfits Json.isScalar)) =
      (liveElements scene).flatMap fun e => if e.isShape then
        misfits Json.isScalar e.fill ++ misfits Json.isScalar e.stroke else [] := by
    apply flatMap_eq_of_forall₂ (forall₂_live accepted)
    intro j e read
    have taken := Element.takenFrom_of_ofJson read
    rw [Element.colourwise, Element.isShape, Element.shape?, (Element.kind_of_ofJson read).1,
      taken.fill, taken.stroke]
  rw [texts, colours]
  unfold readGraph
  refine StopsAt.bind (StopsAt.mapM fun e _ => stopsAt_readTextItem e) fun items _ => ?_
  exact StopsAt.map (StopsAt.mapM fun e _ => stopsAt_readShapeItem e) _

/-- A text that is no colour to be written is in components that are no numbers. -/
theorem HoldsText.exists_eq_badNumber {j : Json} (h : HoldsText j) {f : Fault}
    (hf : f ∈ colourFaults j) : ∃ n, f = .badNumber n := by
  unfold colourFaults at hf
  split at hf
  · rename_i present
    obtain ⟨s, rfl⟩ := h present
    cases written : colourText s with
    | ok t =>
      rw [colourOf, written] at hf
      cases hf
    | error e =>
      rw [colourOf, written] at hf
      obtain rfl := List.mem_singleton.mp hf
      exact (colourText_converts s).fault _ written
  · cases hf

/-! ## Typed elements -/

/-- The fields of an element are of the kinds they are meant to be, as far as they are there. -/
structure Element.IsTyped (j : Json) : Prop where
  texts : HasTextFields j
  lists : ∀ key ∈ ["boundElements", "groupIds", "points"],
    (j.fieldOrNull key.toList).isTruthy = true → ∃ xs, j.fieldOrNull key.toList = .arr xs
  rows : ∀ rows, j.fieldOrNull "points".toList = .arr rows → ∀ row ∈ rows, ∃ xs, row = .arr xs
  /-- Coordinates are doubles, or integers within the range of doubles. -/
  coordinates : ∀ key ∈ ["x", "y", "width", "height"], (j.fieldOrNull key.toList).isTruthy = true →
    (∃ x, j.fieldOrNull key.toList = .float x) ∨
      ∃ n, j.fieldOrNull key.toList = .int n ∧ (Binary64.ofInt? n).isSome = true

namespace Element.IsTyped

variable {j : Json}

theorem faults_eq_nil (h : IsTyped j) : Element.faults j = [] := by
  have list : ∀ key ∈ ["boundElements", "groupIds", "points"],
      misfits Json.isListing (j.fieldOrNull key.toList) = [] := by
    intro key hk
    refine misfits_eq_nil fun present => ?_
    obtain ⟨xs, given⟩ := h.lists key hk present
    rw [given]
    rfl
  have coordinate : ∀ key ∈ ["x", "y", "width", "height"],
      coordinateFaults (j.fieldOrNull key.toList) = [] := by
    intro key hk
    unfold coordinateFaults
    split
    · rename_i present
      obtain ⟨x, given⟩ | ⟨n, given, inRange⟩ := h.coordinates key hk present
      · rw [given]
      · rw [given]
        exact if_pos inRange
    · rfl
  have rows : rowFaults (j.fieldOrNull "points".toList) = [] := by
    unfold rowFaults
    split
    · rename_i rows given
      refine List.flatMap_eq_nil_iff.mpr fun row hr => ?_
      obtain ⟨xs, rfl⟩ := h.rows rows given row hr
      rfl
    · rfl
  simp only [List.forall_mem_cons] at list coordinate
  obtain ⟨bound, groups, points, -⟩ := list
  obtain ⟨x, y, width, height, -⟩ := coordinate
  dsimp only [Element.faults]
  rw [bound, groups, x, y, width, height, points, rows]
  rfl

theorem textFaults_eq_nil (h : IsTyped j) : Element.textFaults j = [] := by
  have text : misfits (·.text?.isSome) (j.fieldOrNull "text".toList) = [] := by
    refine misfits_eq_nil fun present => ?_
    obtain ⟨s, given⟩ := h.texts.text present
    rw [given]
    rfl
  rw [Element.textFaults, text, misfits_eq_nil h.texts.container.isKey]
  exact ite_self _

theorem keyFaults_eq_nil (h : IsTyped j) :
    Element.colourwise (misfits Json.isScalar) j = [] := by
  rw [Element.colourwise, misfits_eq_nil h.texts.fill.isKey, misfits_eq_nil h.texts.stroke.isKey]
  exact ite_self _

/-- A colour of it that is not written is in components that are no numbers. -/
theorem exists_eq_badNumber (h : IsTyped j) {f : Fault}
    (hf : f ∈ Element.colourwise colourFaults j) : ∃ n, f = .badNumber n := by
  unfold Element.colourwise at hf
  split at hf
  · rcases List.mem_append.mp hf with fill | stroke
    · exact h.texts.fill.exists_eq_badNumber fill
    · exact h.texts.stroke.exists_eq_badNumber stroke
  · cases hf

end Element.IsTyped

end Drawbridge
