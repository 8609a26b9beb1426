import Drawbridge.Canvas

/-!
A canvas under any run of calls, for any renderer. A `Step` remembers what one call found, answered
and left; a run has one for each call.

* `replaceElements_eq`: a stored scene is taken over element by element;
* `stepOf_sound`: what every call does (`Step.Sound`): a failed call and a writing of text leave
  the canvas as it was, a failed loading is a rejection, and the canvas shows what the call brought
  or what it showed before;
* `run_shows`: what a view of a canvas shows after a run was brought last;
* `run_atomic`: all of this for every run from an empty canvas.
-/

namespace Drawbridge.Canvas

/-! ## Edited scenes -/

/-- An edited scene: elements that are handed over, or a scene as the editor stores it. -/
inductive Edited where
  | handed (elements : List Handed)
  | stored (scene : Json)

def Edited.read : Edited → Except Fault (List Element)
  | handed elements => elements.mapM Handed.read
  | stored scene => Element.listOfJson scene

def replace (c : Canvas) : Edited → Except Fault Unit × Canvas
  | .handed elements => c.takeOver elements
  | .stored scene => c.replaceElements scene

/-- A stored scene is taken over element by element, if its elements can be told apart. -/
theorem replaceElements_eq (c : Canvas) (scene : Json) : c.replaceElements scene =
    match scene.items with
    | .error f => (.error f, c)
    | .ok items => c.takeOver (items.map .stored) := by
  cases h : scene.items with
  | error f =>
    have unread : Element.listOfJson scene = .error f := by
      rw [Element.listOfJson, h]
      rfl
    rw [replaceElements, unread]
  | ok items =>
    have read : Element.listOfJson scene = (items.map Handed.stored).mapM Handed.read := by
      rw [Element.listOfJson, h, List.mapM_map]
      rfl
    rw [replaceElements, read]
    rfl

/-- A scene of which one element cannot be read changes nothing. -/
theorem replace_error {scene : Edited} {f : Fault} (h : scene.read = .error f) (c : Canvas) :
    c.replace scene = (.error f, c) := by
  cases scene with
  | handed elements => rw [replace, takeOver, show elements.mapM Handed.read = .error f from h]
  | stored scene => rw [replace, replaceElements, show Element.listOfJson scene = .error f from h]

theorem replace_ok {scene : Edited} {es : List Element} (h : scene.read = .ok es) (c : Canvas) :
    c.replace scene = (.ok (), { c with elements := es }) := by
  cases scene with
  | handed elements => rw [replace, takeOver, show elements.mapM Handed.read = .ok es from h]
  | stored scene => rw [replace, replaceElements, show Element.listOfJson scene = .ok es from h]

/-! ## Calls -/

/-- What can be asked of a canvas. -/
inductive Call where
  | load (code : Text)
  | replace (scene : Edited)
  | toText (options : WriteOptions) (includeGroups : Bool)
  | clear

inductive Answer where
  | rendering (r : Rendering)
  | text (t : Text)
  | done

def perform (renderer : Renderer) (c : Canvas) : Call → Except Failure Answer × Canvas
  | .load code =>
    let (r, c) := c.load renderer code
    ((r.mapError .rejected).map .rendering, c)
  | .replace scene =>
    let (r, c) := c.replace scene
    ((r.mapError .fault).map fun _ => .done, c)
  | .toText options includeGroups =>
    (((c.toText options includeGroups).mapError .fault).map .text, c)
  | .clear => (.ok .done, c.clear)

/-- What comes from a loaded diagram beside its elements. -/
structure Loaded where
  code : Text := []
  files : Dictionary Json := []
  groupLabels : Dictionary Text := []

/-- What a canvas holds of the diagram that was loaded. -/
def loaded (c : Canvas) : Loaded :=
  ⟨c.code, c.files, c.groupLabels⟩

/-- One call: what it found, answered and left. -/
structure Step where
  call : Call
  before : Canvas
  outcome : Except Failure Answer
  after : Canvas

def stepOf (renderer : Renderer) (c : Canvas) (call : Call) : Step :=
  ⟨call, c, (perform renderer c call).1, (perform renderer c call).2⟩

namespace Step

/-- The diagram that a successful loading or a clearing brings. -/
def loaded? (s : Step) : Option Loaded :=
  match s.call, s.outcome with
  | .load code, .ok (.rendering r) =>
    some (if prepareForRendering code = [] then {} else ⟨code, r.files, r.groupLabels⟩)
  | .clear, .ok _ => some {}
  | _, _ => none

/-- The elements that a successful loading or replacement or a clearing brings. -/
def elements? (s : Step) : Option (List Element) :=
  match s.call, s.outcome with
  | .load _, .ok (.rendering r) => some r.elements
  | .replace scene, .ok _ => scene.read.toOption
  | .clear, .ok _ => some []
  | _, _ => none

/-- What holds of every step with a renderer. -/
structure Sound (renderer : Renderer) (s : Step) : Prop where
  /-- A call that fails leaves the canvas as it was. -/
  failed (e : Failure) : s.outcome = .error e → s.after = s.before
  /-- So does writing the scene as text. -/
  written (options : WriteOptions) (includeGroups : Bool) :
    s.call = .toText options includeGroups → s.after = s.before
  /-- What the renderer says of a text is what a loading answers, and a text with nothing to render
  is loaded. -/
  answered (code : Text) : s.call = .load code → s.outcome =
    if prepareForRendering code = [] then .ok (.rendering {})
    else ((renderer (prepareForRendering code)).mapError fun e =>
      .rejected (rejection (prepareForRendering code) e)).map .rendering
  /-- The canvas holds the diagram that the step brings, or the one it held before. -/
  loaded_eq : s.after.loaded = s.loaded?.getD s.before.loaded
  elements_eq : s.after.elements = s.elements?.getD s.before.elements

theorem Sound.rejected {renderer : Renderer} {s : Step} (sound : s.Sound renderer) {code : Text}
    {e : Failure} (h : s.call = .load code) (he : s.outcome = .error e) :
    ∃ r, e = .rejected r := by
  have answered := sound.answered code h
  rw [he] at answered
  split at answered
  · cases answered
  · cases said : renderer (prepareForRendering code) with
    | error f =>
      rw [said] at answered
      cases answered
      exact ⟨_, rfl⟩
    | ok r =>
      rw [said] at answered
      cases answered

end Step

variable (renderer : Renderer) (c : Canvas)

theorem load_sound (code : Text) : (stepOf renderer c (.load code)).Sound renderer := by
  by_cases blank : prepareForRendering code = []
  · have loads : c.load renderer code = (.ok {}, {}) := by
      rw [load, if_pos blank]
      rfl
    have step : stepOf renderer c (.load code) = ⟨.load code, c, .ok (.rendering {}), {}⟩ := by
      rw [stepOf, perform, loads]
      rfl
    rw [step]
    refine ⟨nofun, nofun, ?_, ?_, rfl⟩
    · rintro _ ⟨⟩
      exact (if_pos blank).symm
    · simp only [Step.loaded?, if_pos blank]
      rfl
  · cases said : renderer (prepareForRendering code) with
    | error e =>
      have loads : c.load renderer code =
          (.error (rejection (prepareForRendering code) e), c) := by
        rw [load, if_neg blank, said]
      have step : stepOf renderer c (.load code) =
          ⟨.load code, c, .error (.rejected (rejection (prepareForRendering code) e)), c⟩ := by
        rw [stepOf, perform, loads]
        rfl
      rw [step]
      refine ⟨fun _ _ => rfl, nofun, ?_, rfl, rfl⟩
      rintro _ ⟨⟩
      rw [if_neg blank, said]
      rfl
    | ok r =>
      have loads : c.load renderer code =
          (.ok r, ⟨code, r.elements, r.files, r.groupLabels⟩) := by
        rw [load, if_neg blank, said]
      have step : stepOf renderer c (.load code) =
          ⟨.load code, c, .ok (.rendering r), ⟨code, r.elements, r.files, r.groupLabels⟩⟩ := by
        rw [stepOf, perform, loads]
        rfl
      rw [step]
      refine ⟨nofun, nofun, ?_, ?_, rfl⟩
      · rintro _ ⟨⟩
        rw [if_neg blank, said]
        rfl
      · simp only [Step.loaded?, if_neg blank]
        rfl

theorem replace_sound (scene : Edited) : (stepOf renderer c (.replace scene)).Sound renderer := by
  cases read : scene.read with
  | error f =>
    have step : stepOf renderer c (.replace scene) =
        ⟨.replace scene, c, .error (.fault f), c⟩ := by
      rw [stepOf, perform, replace_error read]
      rfl
    rw [step]
    exact ⟨fun _ _ => rfl, nofun, nofun, rfl, rfl⟩
  | ok es =>
    have step : stepOf renderer c (.replace scene) =
        ⟨.replace scene, c, .ok .done, { c with elements := es }⟩ := by
      rw [stepOf, perform, replace_ok read]
      rfl
    rw [step]
    refine ⟨nofun, nofun, nofun, rfl, ?_⟩
    simp only [Step.elements?, read]
    rfl

/-- **What every call does.** -/
theorem stepOf_sound (call : Call) : (stepOf renderer c call).Sound renderer := by
  cases call with
  | load code => exact load_sound renderer c code
  | replace scene => exact replace_sound renderer c scene
  | toText options includeGroups => exact ⟨fun _ _ => rfl, fun _ _ _ => rfl, nofun, rfl, rfl⟩
  | clear => exact ⟨nofun, nofun, nofun, rfl, rfl⟩

/-! ## Runs -/

def steps (renderer : Renderer) : Canvas → List Call → List Step
  | _, [] => []
  | c, call :: calls =>
    stepOf renderer c call :: steps renderer (perform renderer c call).2 calls

def run (renderer : Renderer) (c : Canvas) (calls : List Call) : Canvas :=
  calls.foldl (fun c call => (perform renderer c call).2) c

theorem steps_sound (calls : List Call) :
    ∀ s ∈ steps renderer c calls, s.Sound renderer := by
  induction calls generalizing c with
  | nil => nofun
  | cons call calls ih =>
    intro s hs
    rcases List.mem_cons.mp hs with rfl | hs
    · exact stepOf_sound renderer c call
    · exact ih _ s hs

/-- **What a view shows after a run was brought last**, if every step shows what it brings or what
was shown before. -/
theorem run_shows {α : Type} (view : Canvas → α) (brings : Step → Option α)
    (shows : ∀ c call, view (perform renderer c call).2 =
      (brings (stepOf renderer c call)).getD (view c)) (calls : List Call) :
    view (run renderer c calls) =
      (((steps renderer c calls).filterMap brings).getLast?).getD (view c) := by
  induction calls generalizing c with
  | nil => rfl
  | cons call calls ih =>
    rw [run, List.foldl_cons, ← run, ih, steps, List.filterMap_cons]
    have shown := shows c call
    cases hb : brings (stepOf renderer c call) with
    | none =>
      rw [hb] at shown
      exact congrArg _ shown
    | some a =>
      rw [hb] at shown
      rw [List.getLast?_cons, Option.getD_some]
      exact congrArg _ shown

/-- **A canvas is changed as a whole or not at all.** For any renderer and any run of calls: a call
that fails and a writing of text leave the canvas as it was; a loading fails with a rejection,
whatever the renderer failed with; code, files and titles come together from the last successful
loading or clearing, and the elements from the last of these or the last successful replacement. -/
theorem run_atomic (calls : List Call) :
    (∀ s ∈ steps renderer {} calls,
      (∀ e, s.outcome = .error e → s.after = s.before) ∧
      (∀ options includeGroups, s.call = .toText options includeGroups → s.after = s.before) ∧
      (∀ code e, s.call = .load code → s.outcome = .error e → ∃ r, e = .rejected r) ∧
      (∀ code, s.call = .load code → s.outcome =
        if prepareForRendering code = [] then .ok (.rendering {})
        else ((renderer (prepareForRendering code)).mapError fun e =>
          .rejected (rejection (prepareForRendering code) e)).map .rendering)) ∧
    (run renderer {} calls).loaded =
      (((steps renderer {} calls).filterMap Step.loaded?).getLast?).getD {} ∧
    (run renderer {} calls).elements =
      (((steps renderer {} calls).filterMap Step.elements?).getLast?).getD [] := by
  refine ⟨fun s hs => ?_, ?_, ?_⟩
  · have sound := steps_sound renderer {} calls s hs
    exact ⟨sound.failed, sound.written, fun _ _ => sound.rejected, sound.answered⟩
  · exact run_shows renderer {} loaded Step.loaded?
      (fun c call => (stepOf_sound renderer c call).loaded_eq) calls
  · exact run_shows renderer {} Canvas.elements Step.elements?
      (fun c call => (stepOf_sound renderer c call).elements_eq) calls

/-- Renders one text and fails for all others, not with a rejection. -/
def pickyRenderer : Renderer := fun t =>
  if t = "good".toList then
    .ok { elements := [{ id := "a".toList, type := "rectangle".toList }] }
  else .error (.general .runtime [.str "no".toList])

/-- A run with a loading, a replacement that fails at its second element, another loading that
fails, and a writing. -/
def bumpyRun : List Call :=
  [.load "good".toList,
    .replace (.handed [.element { id := "b".toList, type := "arrow".toList }, .stored (.int 1)]),
    .load "bad".toList, .toText {} true]

/-- After it the canvas is as it was loaded first. -/
theorem run_atomic_bumpyRun : (run pickyRenderer {} bumpyRun).code = "good".toList ∧
    (run pickyRenderer {} bumpyRun).elements.map (·.id) = ["a".toList] := by
  obtain ⟨-, loaded, elements⟩ := run_atomic pickyRenderer bumpyRun
  constructor
  · refine (congrArg Loaded.code loaded).trans ?_
    rfl
  · rw [elements]
    rfl

end Drawbridge.Canvas
