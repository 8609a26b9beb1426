import Drawbridge.Json.Value
import Drawbridge.Text.Blank

/-!
What the model is told: the messages that ask for a diagram, for an improved diagram, and for
suggestions.
-/

namespace Drawbridge

structure Message where
  role : Text
  content : Text
  deriving DecidableEq, Repr

namespace Message

def system (content : Text) : Message := ⟨"system".toList, content⟩

def user (content : Text) : Message := ⟨"user".toList, content⟩

def toJson (m : Message) : Json :=
  .obj [("role".toList, .str m.role), ("content".toList, .str m.content)]

end Message

namespace Prompt

def typeHints : Dictionary Text :=
  [("auto".toList, "Pick the Mermaid diagram type that best fits the text.".toList),
    ("flowchart".toList, "Produce a flowchart (flowchart TD).".toList),
    ("sequenceDiagram".toList, "Produce a sequence diagram (sequenceDiagram).".toList),
    ("classDiagram".toList, "Produce a class diagram (classDiagram).".toList),
    ("stateDiagram".toList, "Produce a state diagram (stateDiagram-v2).".toList),
    ("erDiagram".toList, "Produce an entity relationship diagram (erDiagram).".toList),
    ("gantt".toList, "Produce a Gantt chart (gantt).".toList),
    ("mindmap".toList, "Produce a mind map (mindmap).".toList)]

/-- What is asked for a type of diagram; an unknown type leaves the choice to the model. -/
def typeHint (diagramType : Text) : Text :=
  let auto := (typeHints.get? "auto".toList).getD []
  (typeHints.get? diagramType).getD auto

/-- The names of languages; an unknown one is named as it is. -/
def languageName (language : Text) : Text :=
  if language = "zh".toList then "Chinese".toList
  else if language = "en".toList then "English".toList
  else language

def generation (diagramType language : Text) : Text :=
  strip <|
    "You convert the user's text into ONE Mermaid diagram.\n\nRules:\n- ".toList ++
      typeHint diagramType ++
      "\n- Output ONLY Mermaid code inside a single ```mermaid fenced block".toList ++
      "\n- No explanations before or after the block".toList ++
      "\n- Node ids: short, ASCII letters and digits only".toList ++
      "\n- Quote any label that contains brackets, parentheses, pipes or quotes".toList ++
      "\n- Do not use <br> or HTML in labels".toList ++
      "\n- Write labels in ".toList ++ languageName language

def optimization : Text :=
  "You improve an existing Mermaid diagram.\n\nRules:".toList ++
    "\n- Keep the diagram type and every piece of information in the original".toList ++
    "\n- Fix syntax errors and simplify confusing structure".toList ++
    "\n- Output ONLY the improved Mermaid code inside a single ```mermaid fenced block".toList

def suggestions : Text :=
  "You review Mermaid diagrams and propose improvements.\n\n".toList ++
    "Return strict JSON only, no markdown:\n".toList ++
    "\x7b\"suggestions\": [\"short actionable suggestion\", \"...\"]\x7d\n\n".toList ++
    "Give at most 5 suggestions.".toList

def fenced (code : Text) : Text :=
  "```mermaid\n".toList ++ code ++ "\n```".toList

def forGeneration (text diagramType language : Text) : List Message :=
  [.system (generation diagramType language), .user text]

/-- What the user asks for when a diagram is to be improved. -/
def optimizationRequest (code instruction : Text) (groups : List Text) : Text :=
  let parts :=
    ["Mermaid code:\n".toList ++ fenced code] ++
      (if instruction = [] then [] else ["Instruction: ".toList ++ instruction]) ++
      (if groups = [] then []
        else ["Group the nodes into these subgraphs, in this order:\n".toList ++
          joinLines (groups.map fun g => "- ".toList ++ g)])
  joinWith "\n\n".toList parts

def forOptimization (code instruction : Text) (groups : List Text) : List Message :=
  [.system optimization, .user (optimizationRequest code instruction groups)]

def forSuggestions (code : Text) : List Message :=
  [.system suggestions, .user (fenced code)]

end Prompt

end Drawbridge
