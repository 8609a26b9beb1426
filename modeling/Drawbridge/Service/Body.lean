import Drawbridge.Json.Value

/-!
Request bodies. A body is an object; unknown fields do not count, and a field may be spelled in
camel case or in snake case. A body with a field of the wrong kind is refused.
-/

namespace Drawbridge

/-- How truth values are read. What reads the bodies may take numbers and words for truth values; a
truth value itself is taken for what it is. -/
structure TruthReader where
  read : Json → Option Bool
  read_bool : ∀ b, read (.bool b) = some b

/-- Takes nothing but truth values for them. -/
def TruthReader.strict : TruthReader where
  read
    | .bool b => some b
    | _ => none
  read_bool _ := rfl

namespace Body

/-- A field under one of its two spellings, the first before the second. -/
def field? (j : Json) (camel snake : String) : Option Json :=
  (j.field? camel.toList).or (j.field? snake.toList)

def text (j : Json) (camel snake : String) (default : Text := []) : Option Text :=
  match field? j camel snake with
  | none => some default
  | some v => v.text?

/-- A text field that may be absent or `null`. -/
def optionalText (j : Json) (camel snake : String) : Option (Option Text) :=
  match field? j camel snake with
  | none | some .null => some none
  | some v => v.text?.map some

def truth (truths : TruthReader) (j : Json) (camel snake : String) (default : Bool) :
    Option Bool :=
  match field? j camel snake with
  | none => some default
  | some v => truths.read v

/-- An object field that may be absent or `null`. -/
def optionalObject (j : Json) (camel snake : String) : Option Json :=
  match field? j camel snake with
  | none | some .null => some .null
  | some v => if v.isObject then some v else none

/-- A field that is a list of texts and may be absent or `null`. -/
def optionalTexts (j : Json) (camel snake : String) : Option (List Text) :=
  match field? j camel snake with
  | none | some .null => some []
  | some (.arr xs) => xs.mapM Json.text?
  | some _ => none

/-- A field that is a list of objects, empty if absent. -/
def objects (j : Json) (camel snake : String) : Option (List Json) :=
  match field? j camel snake with
  | none => some []
  | some (.arr xs) => if xs.all Json.isObject then some xs else none
  | some _ => none

/-- A field that is an object with text values, empty if absent. -/
def textObject (j : Json) (camel snake : String) : Option (Dictionary Text) :=
  match field? j camel snake with
  | none => some []
  | some (.obj fs) => fs.mapM fun (k, v) => v.text?.map fun t => (k, t)
  | some _ => none

end Body

/-- What every request to the model says about the model. -/
structure ModelChoice where
  aiConfig : Json := .null
  accessPassword : Option Text := none
  selectedModel : Option Text := none

structure GenerateRequest extends ModelChoice where
  text : Text := []
  diagramType : Text := "auto".toList
  language : Text := "zh".toList
  stream : Bool := true

structure OptimizeRequest extends ModelChoice where
  code : Text := []
  instruction : Text := []
  groups : List Text := []

structure SuggestionsRequest extends ModelChoice where
  code : Text := []

structure ConvertRequest where
  elements : List Json := []
  diagramType : Text := "flowchart".toList
  direction : Text := "TD".toList
  includeColors : Bool := true
  includeGroups : Bool := false
  groupLabels : Dictionary Text := []

def ModelChoice.ofJson? (j : Json) : Option ModelChoice := do
  if !j.isObject then none
  return {
    aiConfig := ← Body.optionalObject j "aiConfig" "ai_config"
    accessPassword := ← Body.optionalText j "accessPassword" "access_password"
    selectedModel := ← Body.optionalText j "selectedModel" "selected_model" }

def GenerateRequest.ofJson? (truths : TruthReader) (j : Json) : Option GenerateRequest := do
  let choice ← ModelChoice.ofJson? j
  return { choice with
    text := ← Body.text j "text" "text"
    diagramType := ← Body.text j "diagramType" "diagram_type" "auto".toList
    language := ← Body.text j "language" "language" "zh".toList
    stream := ← Body.truth truths j "stream" "stream" true }

def OptimizeRequest.ofJson? (j : Json) : Option OptimizeRequest := do
  let choice ← ModelChoice.ofJson? j
  return { choice with
    code := ← Body.text j "mermaidCode" "mermaid_code"
    instruction := ← Body.text j "instruction" "instruction"
    groups := ← Body.optionalTexts j "groupList" "group_list" }

def SuggestionsRequest.ofJson? (j : Json) : Option SuggestionsRequest := do
  let choice ← ModelChoice.ofJson? j
  return { choice with code := ← Body.text j "mermaidCode" "mermaid_code" }

def ConvertRequest.ofJson? (truths : TruthReader) (j : Json) : Option ConvertRequest := do
  if !j.isObject then none
  return {
    elements := ← Body.objects j "elements" "elements"
    diagramType := ← Body.text j "diagramType" "diagram_type" "flowchart".toList
    direction := ← Body.text j "direction" "direction" "TD".toList
    includeColors := ← Body.truth truths j "includeColors" "include_colors" true
    includeGroups := ← Body.truth truths j "includeGroups" "include_groups" false
    groupLabels := ← Body.textObject j "groupLabels" "group_labels" }

end Drawbridge
