import Drawbridge.Json.Reader
import Drawbridge.Markup.Fence

/-!
JSON inside prose. An answer may wrap its JSON in a fence or in sentences: the body of the first
fence is tried as a whole, then the piece from the first bracket that is closed at all to the last
closing bracket of its kind. What cannot be read counts as an empty object.
-/

namespace Drawbridge

/-- The piece from the first bracket with a closing one after it through the last of those. -/
def bracketed? : Text → Option Text
  | [] => none
  | c :: s =>
    let found :=
      if c = '{' then throughLast? '}' s
      else if c = '[' then throughLast? ']' s
      else none
    match found with
    | some body => some (c :: body)
    | none => bracketed? s

def extractJson (s : Text) : Json :=
  let s := unfence s
  match Json.parse s with
  | some j => j
  | none => ((bracketed? s).bind Json.parse).getD (.obj [])

/-- The first JSON value in an answer; an answer that is no text holds none. -/
def extractJsonFrom : Json → Json
  | .str [] => .obj []
  | .str s => extractJson s
  | _ => .obj []

end Drawbridge
