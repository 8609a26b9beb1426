import Drawbridge.Proofs.Diagram.Acceptance
import Drawbridge.Proofs.Number.Numerals

/-!
Why a graph is not written. Besides its kind and its direction there is one cause: a colour in
components that are no numbers. Components are digits, and an opacity is digits and points, perhaps
with a percent sign (`readRgb?_isRead`); so a component is a number unless it has too many digits,
and an opacity is one if it has a digit and no second point (`RgbText.Convertible`). Every other
colour is written, whatever it is (`colourText_converts`), and nothing else in a graph matters
(`writeGraph_fails_iff`).
-/

namespace Drawbridge

/-! ## Computations that fail for numbers -/

/-- A computation gives a result just if a condition holds; else it fails for a number that is
none. -/
structure Converts {α : Type} (x : Except Fault α) (p : Prop) : Prop where
  ok_iff : (∃ a, x = .ok a) ↔ p
  fault : ∀ e, x = .error e → ∃ n, e = .badNumber n

namespace Converts

variable {α β : Type} {x : Except Fault α} {f : α → Except Fault β} {p q : Prop}

theorem fails_iff (h : Converts x p) : (∃ e, x = .error e) ↔ ¬ p := by
  rw [← h.ok_iff]
  cases x with
  | error e => exact iff_of_true ⟨e, rfl⟩ (fun ⟨a, ha⟩ => by cases ha)
  | ok a => exact iff_of_false (fun ⟨e, he⟩ => by cases he) (not_not_intro ⟨a, rfl⟩)

theorem pure (a : α) : Converts (.ok a : Except Fault α) True :=
  ⟨iff_true_intro ⟨a, rfl⟩, nofun⟩

theorem congr (h : Converts x p) (same : p ↔ q) : Converts x q :=
  ⟨h.ok_iff.trans same, h.fault⟩

theorem bind (h : Converts x p) (hf : ∀ a, Converts (f a) q) : Converts (x >>= f) (p ∧ q) := by
  cases x with
  | error e =>
    have failed : ¬ p := by
      intro hp
      obtain ⟨a, ha⟩ := h.ok_iff.mpr hp
      cases ha
    refine ⟨⟨?_, fun both => (failed both.1).elim⟩, ?_⟩
    · rintro ⟨b, hb⟩
      cases hb
    · intro e' he'
      cases he'
      exact h.fault e rfl
  | ok a =>
    have given : p := h.ok_iff.mp ⟨a, rfl⟩
    have rest : Converts (f a) (p ∧ q) := (hf a).congr ⟨fun hq => ⟨given, hq⟩, And.right⟩
    exact rest

theorem map (h : Converts x p) (g : α → β) : Converts (x >>= fun a => .ok (g a)) p :=
  (h.bind fun a => Converts.pure (g a)).congr ⟨And.left, fun hp => ⟨hp, trivial⟩⟩

theorem mapM {l : List α} {p : α → Prop} (h : ∀ a ∈ l, Converts (f a) (p a)) :
    Converts (l.mapM f) (∀ a ∈ l, p a) := by
  induction l with
  | nil => exact (Converts.pure []).congr ⟨fun _ => nofun, fun _ => trivial⟩
  | cons a l ih =>
    have first := h a List.mem_cons_self
    have rest := ih fun b hb => h b (List.mem_cons_of_mem a hb)
    rw [List.mapM_cons]
    exact (first.bind fun b => rest.map (b :: ·)).congr List.forall_mem_cons.symm

end Converts

/-! ## Colours in components -/

/-- Components as they are read: digits, and for the opacity digits and points, perhaps with a
percent sign. -/
structure RgbText.IsRead (c : RgbText) : Prop where
  red : c.red ≠ [] ∧ ∀ d ∈ c.red, isDecimalDigit d = true
  green : c.green ≠ [] ∧ ∀ d ∈ c.green, isDecimalDigit d = true
  blue : c.blue ≠ [] ∧ ∀ d ∈ c.blue, isDecimalDigit d = true
  opacity : ∀ o ∈ c.opacity, ∃ ds, (∀ d ∈ ds, isDecimalPart d = true) ∧ (o = ds ∨ o = ds ++ ['%'])

theorem takeComponent?_digits {s ds r : Text} (h : takeComponent? s = some (ds, r)) :
    ds ≠ [] ∧ ∀ d ∈ ds, isDecimalDigit d = true := by
  unfold takeComponent? at h
  dsimp only at h
  split at h
  · cases h
  · rename_i full
    cases h
    exact ⟨full, fun d hd => List.mem_takeWhile_imp hd⟩

theorem takeOpacity?_parts {s o r : Text} (h : takeOpacity? s = some (o, r)) :
    ∃ ds, (∀ d ∈ ds, isDecimalPart d = true) ∧ (o = ds ∨ o = ds ++ ['%']) := by
  unfold takeOpacity? at h
  dsimp only at h
  split at h
  · cases h
  · refine ⟨(stripLeft s).takeWhile isDecimalPart, fun d hd => List.mem_takeWhile_imp hd, ?_⟩
    split at h
    · cases h
      exact .inr rfl
    · cases h
      exact .inl rfl

/-- **Components are read as digits and points.** -/
theorem readRgb?_isRead {s : Text} {c : RgbText} (h : readRgb? s = some c) : c.IsRead := by
  unfold readRgb? at h
  obtain ⟨r₀, -, h⟩ := Option.bind_eq_some_iff.mp h
  obtain ⟨r₁, -, h⟩ := Option.bind_eq_some_iff.mp h
  obtain ⟨⟨red, r₂⟩, hred, h⟩ := Option.bind_eq_some_iff.mp h
  obtain ⟨r₃, -, h⟩ := Option.bind_eq_some_iff.mp h
  obtain ⟨⟨green, r₄⟩, hgreen, h⟩ := Option.bind_eq_some_iff.mp h
  obtain ⟨r₅, -, h⟩ := Option.bind_eq_some_iff.mp h
  obtain ⟨⟨blue, r₆⟩, hblue, h⟩ := Option.bind_eq_some_iff.mp h
  have components := And.intro (takeComponent?_digits hred)
    (And.intro (takeComponent?_digits hgreen) (takeComponent?_digits hblue))
  dsimp only at h
  split at h
  · cases h
    exact ⟨components.1, components.2.1, components.2.2, nofun⟩
  · obtain ⟨⟨o, r₇⟩, hopacity, h⟩ := Option.bind_eq_some_iff.mp h
    dsimp only at h
    split at h
    · cases h
      refine ⟨components.1, components.2.1, components.2.2, ?_⟩
      intro o' ho'
      cases ho'
      exact takeOpacity?_parts hopacity
    · cases h
  · cases h

/-- The number in an opacity, without the percent sign. -/
def opacityNumber (o : Text) : Text :=
  if o.getLast? = some '%' then o.dropLast else o

/-- No component has too many digits, and an opacity has a digit and no second point. -/
def RgbText.Convertible (c : RgbText) : Prop :=
  (∀ ds ∈ [c.red, c.green, c.blue], ds.length ≤ maxDigits) ∧
    ∀ o ∈ c.opacity, IsDecimal (opacityNumber o)

instance (c : RgbText) : Decidable c.Convertible :=
  inferInstanceAs (Decidable ((∀ ds ∈ [c.red, c.green, c.blue], ds.length ≤ maxDigits) ∧
    ∀ o ∈ c.opacity, IsDecimal (opacityNumber o)))

theorem componentHex_converts {ds : Text} (h : ds ≠ [] ∧ ∀ d ∈ ds, isDecimalDigit d = true) :
    Converts (componentHex ds) (ds.length ≤ maxDigits) := by
  have read := readInt_digits h.1 h.2
  unfold componentHex
  rw [read]
  by_cases long : maxDigits < ds.length
  · rw [if_pos long]
    refine ⟨⟨?_, fun short => absurd short (Nat.not_le.mpr long)⟩, ?_⟩
    · rintro ⟨a, ha⟩
      cases ha
    · intro e he
      cases he
      exact ⟨_, rfl⟩
  · rw [if_neg long]
    exact (Converts.pure _).congr (iff_of_true trivial (Nat.le_of_not_lt long))

theorem readFloat_converts {s : Text} (h : ∀ c ∈ s, isDecimalPart c = true) :
    Converts ((readFloat s).mapError .badNumber) (IsDecimal s) := by
  have number := readFloat?_isSome_iff h
  unfold readFloat
  cases hx : readFloat? s with
  | none =>
    rw [hx] at number
    refine ⟨⟨?_, fun decimal => absurd (number.mpr decimal) Bool.false_ne_true⟩, ?_⟩
    · rintro ⟨a, ha⟩
      cases ha
    · intro e he
      cases he
      exact ⟨_, rfl⟩
  | some x =>
    rw [hx] at number
    exact (Converts.pure x).congr (iff_of_true trivial (number.mp rfl))

theorem opacityHex_converts {o ds : Text} (parts : ∀ d ∈ ds, isDecimalPart d = true)
    (h : o = ds ∨ o = ds ++ ['%']) : Converts (opacityHex (some o)) (IsDecimal (opacityNumber o)) := by
  have number := readFloat_converts parts
  have opacity : Converts (readOpacity o) (IsDecimal (opacityNumber o)) := by
    rcases h with rfl | rfl
    · have plain : o.getLast? ≠ some '%' := by
        intro last
        exact absurd (parts '%' (List.mem_of_getLast? last)) (by decide)
      rw [opacityNumber, if_neg plain]
      unfold readOpacity
      split
      · rename_i last
        exact (plain last).elim
      · exact number
    · have percent : (ds ++ ['%']).getLast? = some '%' := List.getLast?_concat
      rw [opacityNumber, if_pos percent, List.dropLast_concat]
      unfold readOpacity
      rw [percent, List.dropLast_concat]
      exact number.map (· / 100.0)
  exact opacity.map fun x => if x < 1.0 then hexPadded 2 (Binary64.round (x * 255.0)).toNat else []

/-- A colour that is written: not in components, or in components that are numbers. -/
def IsPaint (s : Text) : Prop :=
  ∀ c ∈ readRgb? (strip s), c.Convertible

instance (s : Text) : Decidable (IsPaint s) :=
  inferInstanceAs (Decidable (∀ c ∈ readRgb? (strip s), c.Convertible))

/-- **A colour is written unless it is in components that are no numbers.** -/
theorem colourText_converts (s : Text) : Converts (colourText s) (IsPaint s) := by
  unfold colourText IsPaint
  cases hc : readRgb? (strip s) with
  | none => exact (Converts.pure _).congr (iff_of_true trivial nofun)
  | some c =>
    have read := readRgb?_isRead hc
    have opacity : Converts (opacityHex c.opacity)
        (∀ o ∈ c.opacity, IsDecimal (opacityNumber o)) := by
      cases ho : c.opacity with
      | none => exact (Converts.pure []).congr (iff_of_true trivial nofun)
      | some o =>
        obtain ⟨ds, parts, written⟩ := read.opacity o ho
        exact (opacityHex_converts parts written).congr
          ⟨fun decimal o' ho' => Option.some.inj ho' ▸ decimal, fun all => all o rfl⟩
    have whole := (componentHex_converts read.red).bind fun red =>
      (componentHex_converts read.green).bind fun green =>
        (componentHex_converts read.blue).bind fun blue =>
          opacity.map fun opacity => '#' :: (red ++ green ++ blue ++ opacity)
    refine whole.congr ?_
    simp [RgbText.Convertible, and_assoc]

/-! ## Graphs -/

def StyleClass.HasTexts (s : StyleClass) : Prop :=
  (∃ t, s.fill = .str t) ∧ ∃ t, s.stroke = .str t

def StyleClass.IsPaint (s : StyleClass) : Prop :=
  ∀ c ∈ [s.fill, s.stroke], ∀ t ∈ c.text?, Drawbridge.IsPaint t

instance (s : StyleClass) : Decidable s.IsPaint :=
  inferInstanceAs (Decidable (∀ c ∈ [s.fill, s.stroke], ∀ t ∈ c.text?, Drawbridge.IsPaint t))

theorem styleLine_converts {s : StyleClass} (h : s.HasTexts) :
    Converts (styleLine s) s.IsPaint := by
  obtain ⟨⟨fill, hf⟩, stroke, hs⟩ := h
  have both : s.IsPaint ↔ IsPaint fill ∧ IsPaint stroke := by
    unfold StyleClass.IsPaint
    simp [hf, hs, Json.text?]
  unfold styleLine
  rw [hf, hs]
  have whole := (colourText_converts fill).bind fun f => (colourText_converts stroke).map fun k =>
    indent ++ "classDef ".toList ++ s.name ++ " fill:".toList ++ f ++ ",stroke:".toList ++ k ++
      ",stroke-width:2px;".toList
  exact whole.congr both.symm

/-- **A flowchart is written if the colours that it shows are.** -/
theorem flowchartLines_converts {g : Graph} (texts : ∀ s ∈ g.styles, s.HasTexts) (direction : Text)
    (colors : Bool) (blocks : List Block) :
    Converts (flowchartLines g direction colors blocks)
      (colors = true → ∀ s ∈ g.styles, s.IsPaint) := by
  let o := Outline.of g.nodes blocks
  let whole (definitions : List Text) : List Text := ("flowchart ".toList ++ direction) ::
    (allBlockLines colors o g.nodes ++ looseNodeLines colors o g.nodes ++
      g.edges.map edgeLine ++ definitions)
  cases colors with
  | false => exact (Converts.pure (whole [])).congr (iff_of_true trivial nofun)
  | true =>
    have styles : Converts (styleLines g.styles) (∀ s ∈ g.styles, s.IsPaint) :=
      (Converts.mapM fun s hs => styleLine_converts (texts s hs)).map
        fun ls => if ls = [] then [] else [] :: ls
    exact (styles.map whole).congr ⟨fun all _ => all, fun all => all rfl⟩

theorem ofJson_eq_ok_iff {j : Json} {kind : DiagramType} :
    DiagramType.ofJson j = .ok kind ↔ j = .str kind.name := by
  constructor
  · intro h
    unfold DiagramType.ofJson at h
    split at h
    · rename_i t named
      cases h
      obtain ⟨s, hs, found⟩ := Option.bind_eq_some_iff.mp named
      have name : kind.name = s := by simpa using List.find?_some found
      cases j with
      | str t =>
        cases hs
        rw [name]
      | _ => cases hs
    · cases h
  · rintro rfl
    cases kind <;> rfl

/-- What is no name of a kind is what a kind fails for. -/
theorem ofJson_cases (j : Json) :
    (∃ kind : DiagramType, j = .str kind.name ∧ DiagramType.ofJson j = .ok kind) ∨
      (∀ kind : DiagramType, j ≠ .str kind.name) ∧
        DiagramType.ofJson j = .error (.unsupportedType j) := by
  cases h : DiagramType.ofJson j with
  | ok kind => exact .inl ⟨kind, ofJson_eq_ok_iff.mp h, rfl⟩
  | error e =>
    refine .inr ⟨?_, ?_⟩
    · rintro kind rfl
      rw [ofJson_eq_ok_iff.mpr rfl] at h
      cases h
    · unfold DiagramType.ofJson at h
      split at h
      · cases h
      · exact h.symm

/--
**When a graph is not written.** For a graph whose colours are texts, and a direction that is a text:
just if its kind is not known, or it is to be a flowchart and either its direction is not known or it
is to show a colour in components that are no numbers. What it fails for is always worded.
-/
theorem writeGraph_fails_iff {g : Graph} (texts : ∀ s ∈ g.styles, s.HasTexts)
    {options : WriteOptions} {d : Text} (direction : options.direction = .str d)
    (blocks : List Block) :
    ((∃ e, writeGraph g options blocks = .error e) ↔
      (∀ kind : DiagramType, options.diagramType ≠ .str kind.name) ∨
      options.diagramType = .str DiagramType.flowchart.name ∧
        (upper d ∉ directions ∨
          options.includeColors = true ∧ ∃ s ∈ g.styles, ¬ s.IsPaint)) ∧
    ∀ e, writeGraph g options blocks = .error e → e.message?.isSome = true := by
  unfold writeGraph
  rcases ofJson_cases options.diagramType with ⟨kind, named, known⟩ | ⟨unnamed, unknown⟩
  · have other : ¬ ∀ kind : DiagramType, options.diagramType ≠ .str kind.name :=
      fun none_named => none_named kind named
    rw [known, or_iff_right other]
    cases kind with
    | flowchart =>
      have read : readDirection options.direction =
          if upper d ∈ directions then .ok (upper d) else .error (.unsupportedDirection (upper d)) := by
        rw [direction]
        rfl
      show ((∃ e, (readDirection options.direction >>= _) = _) ↔ _) ∧
        ∀ e, (readDirection options.direction >>= _) = _ → _
      rw [read, and_iff_right named]
      by_cases hd : upper d ∈ directions
      · have lines := (flowchartLines_converts texts (upper d) options.includeColors blocks).map
          joinLines
        rw [if_pos hd, or_iff_right (not_not_intro hd)]
        refine ⟨lines.fails_iff.trans (by simp), ?_⟩
        intro e he
        obtain ⟨n, rfl⟩ := lines.fault e he
        rfl
      · rw [if_neg hd]
        refine ⟨iff_of_true ⟨_, rfl⟩ (.inl hd), ?_⟩
        intro e he
        cases he
        rfl
    | classDiagram | sequenceDiagram =>
      have plain : options.diagramType ≠ .str DiagramType.flowchart.name := by
        rw [named]
        exact fun same => absurd (Json.str.inj same) (by decide)
      exact ⟨iff_of_false (fun ⟨e, he⟩ => by cases he) (fun h => plain h.1), nofun⟩
  · rw [unknown]
    refine ⟨iff_of_true ⟨_, rfl⟩ (.inl unnamed), ?_⟩
    intro e he
    cases he
    rfl

def paintedGraph (fill : Text) : Graph where
  nodes := [{ id := "A".toList, shape := .box, label := [], styleClass := "C1".toList }]
  styles := [⟨"C1".toList, .str fill, .str "#000000".toList⟩]

/-- An opacity with a digit and a point is written. With a second point it is not, but a flowchart
without colours is, and so is a list of components with something behind it. -/
theorem writeGraph_fails_iff_paintedGraph :
    (∀ fill, ∀ s ∈ (paintedGraph fill).styles, s.HasTexts) ∧
    (∃ code, writeGraph (paintedGraph "RGBA( 1,2,3 , .5% )".toList) {} [] = .ok code) ∧
    (∃ code, writeGraph (paintedGraph "rgb(1,2,3,4,5)".toList) {} [] = .ok code) ∧
    (∃ code, writeGraph (paintedGraph "rgb(1,2,3,..)".toList)
      { direction := .str "lr".toList, includeColors := false } [] = .ok code) ∧
    ∃ e, writeGraph (paintedGraph "rgb(1,2,3,..)".toList) {} [] = .error e := by
  have texts (fill : Text) : ∀ s ∈ (paintedGraph fill).styles, s.HasTexts :=
    List.forall_mem_singleton.mpr ⟨⟨fill, rfl⟩, _, rfl⟩
  have written {fill d : Text} {colors : Bool} (known : upper d ∈ directions)
      (paint : colors = true → ∀ s ∈ (paintedGraph fill).styles, s.IsPaint) :
      ∃ code, writeGraph (paintedGraph fill)
        { direction := .str d, includeColors := colors } [] = .ok code := by
    have fails := (@writeGraph_fails_iff (paintedGraph fill) (texts fill)
      { direction := .str d, includeColors := colors } d rfl []).1
    cases text : writeGraph (paintedGraph fill)
        { direction := .str d, includeColors := colors } [] with
    | ok code => exact ⟨code, rfl⟩
    | error e =>
      rcases fails.mp ⟨e, text⟩ with unnamed | ⟨-, unknown | ⟨coloured, s, hs, bad⟩⟩
      · exact (unnamed .flowchart rfl).elim
      · exact (unknown known).elim
      · exact (bad (paint coloured s hs)).elim
  have painted {fill : Text} (paint : IsPaint fill) : ∀ s ∈ (paintedGraph fill).styles, s.IsPaint := by
    have black : IsPaint "#000000".toList := by
      intro c read
      cases read.symm.trans (show readRgb? (strip "#000000".toList) = none from rfl)
    rintro _ (_ | ⟨_, ⟨⟩⟩) _ (_ | ⟨_, _ | ⟨_, ⟨⟩⟩⟩) _ ⟨⟩
    · exact paint
    · exact black
  have percent : IsPaint "RGBA( 1,2,3 , .5% )".toList := by
    have read : readRgb? (strip "RGBA( 1,2,3 , .5% )".toList) =
        some ⟨['1'], ['2'], ['3'], some ['.', '5', '%']⟩ := rfl
    intro c hc
    cases hc.symm.trans read
    decide
  have longer : IsPaint "rgb(1,2,3,4,5)".toList := by
    intro c hc
    cases hc.symm.trans (show readRgb? (strip "rgb(1,2,3,4,5)".toList) = none from rfl)
  have dotted : ¬ IsPaint "rgb(1,2,3,..)".toList := by
    intro paint
    have read : readRgb? (strip "rgb(1,2,3,..)".toList) =
        some ⟨['1'], ['2'], ['3'], some ['.', '.']⟩ := rfl
    exact absurd ((paint _ read).2 ['.', '.'] rfl) (by decide)
  have unpainted : ∃ s ∈ (paintedGraph "rgb(1,2,3,..)".toList).styles, ¬ s.IsPaint :=
    ⟨_, List.mem_cons_self, fun paint => dotted (paint _ List.mem_cons_self _ rfl)⟩
  exact ⟨texts, written (by decide) fun _ => painted percent,
    written (by decide) fun _ => painted longer, written (by decide) nofun,
    (writeGraph_fails_iff (texts _) rfl []).1.mpr (.inr ⟨rfl, .inr ⟨rfl, unpainted⟩⟩)⟩

/-- A scene with a box in a colour with an opacity of two points. -/
def spottedScene : List Element :=
  [{ id := "a".toList, type := "rectangle".toList, fill := .str "rgba(1,2,3,1.2.3)".toList }]

/-- **A flowchart that is not written for its colour.** Its kind and its direction are known, and
so it is with a scene in that colour. -/
theorem colour_unwritten :
    (∃ kind : DiagramType, ({} : WriteOptions).diagramType = .str kind.name) ∧
    ({} : WriteOptions).direction = .str "TD".toList ∧ upper "TD".toList ∈ directions ∧
    writeGraph (paintedGraph "rgba(1,2,3,1.2.3)".toList) {} [] =
      .error (.badNumber (.notANumber "1.2.3".toList)) ∧
    convertScene spottedScene {} = .error (.badNumber (.notANumber "1.2.3".toList)) := by
  exact ⟨⟨.flowchart, rfl⟩, rfl, by decide, rfl, rfl⟩

end Drawbridge
