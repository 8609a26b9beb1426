import Drawbridge.Json.Display
import Drawbridge.Number.Reading

/-!
Why a scene cannot be read or written as a diagram. `Fault.message` words the faults that lie in
the values given: numbers that are none, and options that are not supported.
-/

namespace Drawbridge

/-- What can be wrong with a scene or with the options of a conversion. -/
inductive Fault where
  /-- A value of the wrong kind, such as a number where a list is needed. -/
  | wrongKind
  /-- A value that is asked for what only texts or objects have. -/
  | noSuchMember
  /-- An integer beyond the range of coordinates. -/
  | tooLarge
  | badNumber (e : NumberError)
  | unsupportedType (value : Json)
  | unsupportedDirection (direction : Text)

namespace NumberError

def message : NumberError → Text
  | notANumber s => "could not convert string to float: ".toList ++ inspectText s
  | tooManyDigits n =>
    "Exceeds the limit (".toList ++ decimal maxDigits ++
      " digits) for integer string conversion: value has ".toList ++ decimal n ++
      " digits; use sys.set_int_max_str_digits() to increase the limit".toList

end NumberError

namespace Fault

/-- The wording of a fault in a value, none for the other faults. -/
def message? : Fault → Option Text
  | badNumber e => some e.message
  | unsupportedType v => some ("Unsupported diagram type: ".toList ++ v.inspect)
  | unsupportedDirection d => some ("Unsupported flowchart direction: ".toList ++ inspectText d)
  | wrongKind | noSuchMember | tooLarge => none

end Fault

namespace Json

/-- What a value holds one by one: items of a list, characters of a text, keys of an object. -/
def items : Json → Except Fault (List Json)
  | arr xs => .ok xs
  | str s => .ok (s.map fun c => .str [c])
  | obj fs => .ok (fs.map fun (k, _) => .str k)
  | _ => .error .wrongKind

def optionalItems (j : Json) : Except Fault (List Json) :=
  if j.isTruthy then j.items else .ok []

end Json

end Drawbridge
