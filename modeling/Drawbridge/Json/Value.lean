import Drawbridge.Dictionary
import Drawbridge.Number.Binary64

/-!
JSON values. Integers are exact and apart from doubles, and objects keep the order of their keys.
-/

namespace Drawbridge

inductive Json where
  | null
  | bool (b : Bool)
  | int (n : Int)
  | float (x : Float)
  | str (s : Text)
  | arr (items : List Json)
  | obj (fields : List (Text × Json))

namespace Json

instance : Inhabited Json := ⟨null⟩

/-- Whether a value counts as present: `null`, `false`, zeros and empty values do not. -/
def isTruthy : Json → Bool
  | null => false
  | bool b => b
  | int n => n ≠ 0
  | float x => !(x == 0.0)
  | str s => !s.isEmpty
  | arr xs => !xs.isEmpty
  | obj fs => !fs.isEmpty

/-- The value of a field of an object; other values have no fields. -/
def field? (key : Text) : Json → Option Json
  | obj fs => Dictionary.get? fs key
  | _ => none

def fieldOrNull (key : Text) (j : Json) : Json :=
  (j.field? key).getD null

def text? : Json → Option Text
  | str s => some s
  | _ => none

def isText (j : Json) (s : Text) : Bool :=
  match j with
  | str t => t = s
  | _ => false

def isObject : Json → Bool
  | obj _ => true
  | _ => false

/-- The first value if it counts as present, the second otherwise. -/
def orElse (j k : Json) : Json :=
  if j.isTruthy then j else k

/-- Whether a value is a scalar, which may serve as a key. -/
def isScalar : Json → Bool
  | arr _ | obj _ => false
  | _ => true

/-- Booleans count as `0` and `1` where a number is asked for. -/
def asInt? : Json → Option Int
  | bool b => some (if b then 1 else 0)
  | int n => some n
  | _ => none

/-- Whether two scalars are one key: equal texts, or numbers of equal value. -/
def sameKey (j k : Json) : Bool :=
  match j, k with
  | null, null => true
  | str s, str t => s = t
  | float x, float y => x == y || (x.isNaN && y.isNaN)
  | float x, k =>
    match k.asInt? with
    | some n => Binary64.eqInt x n
    | none => false
  | j, float y =>
    match j.asInt? with
    | some n => Binary64.eqInt y n
    | none => false
  | j, k =>
    match j.asInt?, k.asInt? with
    | some m, some n => m = n
    | _, _ => false

end Json

end Drawbridge
