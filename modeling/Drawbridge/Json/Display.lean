import Drawbridge.Json.Value
import Drawbridge.Json.Writer
import Drawbridge.Text.Printable

/-!
Values in messages. `display` writes a value for a reader: a text as it is, other values as
`inspect` does. `inspect` writes texts in single quotes, in double quotes if they hold a single
quote and no double one, and escapes what has no printed form.
-/

namespace Drawbridge

def hexPadded (width n : Nat) : Text :=
  match width with
  | 0 => []
  | width + 1 => hexPadded width (n / 16) ++ [Json.hexDigit (n % 16)]

def inspectChar (quote c : Char) : Text :=
  if c = quote || c = '\\' then ['\\', c]
  else if c = '\n' then ['\\', 'n']
  else if c = '\r' then ['\\', 'r']
  else if c = '\t' then ['\\', 't']
  else if isPrintable c then [c]
  else if c.toNat < 0x100 then '\\' :: 'x' :: hexPadded 2 c.toNat
  else if c.toNat < 0x10000 then '\\' :: 'u' :: hexPadded 4 c.toNat
  else '\\' :: 'U' :: hexPadded 8 c.toNat

def inspectText (s : Text) : Text :=
  let quote := if s.contains '\'' && !s.contains '"' then '"' else '\''
  quote :: (s.flatMap (inspectChar quote) ++ [quote])

namespace Json

mutual

/-- A value as it is written inside a message or another value. -/
def inspect : Json → Text
  | .null => "None".toList
  | .bool b => if b then "True".toList else "False".toList
  | .int n => decimalInt n
  | .float x => Shortest.floatText x
  | .str s => inspectText s
  | .arr xs => '[' :: (inspectItems xs ++ [']'])
  | .obj fs => '{' :: (inspectFields fs ++ ['}'])

def inspectItems : List Json → Text
  | [] => []
  | [x] => inspect x
  | x :: xs => inspect x ++ (", ".toList ++ inspectItems xs)

def inspectFields : List (Text × Json) → Text
  | [] => []
  | [(k, x)] => inspectText k ++ (": ".toList ++ inspect x)
  | (k, x) :: fs =>
    inspectText k ++ (": ".toList ++ (inspect x ++ (", ".toList ++ inspectFields fs)))

end

/-- A value as a message shows it: a text as it is. -/
def display : Json → Text
  | .str s => s
  | j => inspect j

end Json

end Drawbridge
