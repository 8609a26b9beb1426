import Drawbridge.Json.Value
import Drawbridge.Number.Shortest

/-!
The JSON writer. Items are separated by a comma and a space, keys from values by a colon and a
space. In strings only the quote, the backslash and control characters are escaped.
-/

namespace Drawbridge.Json

def hexDigit (n : Nat) : Char :=
  if n < 10 then Char.ofNat (48 + n) else Char.ofNat (87 + n)

def escapeChar (c : Char) : Text :=
  if c = '"' then ['\\', '"']
  else if c = '\\' then ['\\', '\\']
  else if c = '\n' then ['\\', 'n']
  else if c = '\r' then ['\\', 'r']
  else if c = '\t' then ['\\', 't']
  else if c = '\x08' then ['\\', 'b']
  else if c = '\x0c' then ['\\', 'f']
  else if c < ' ' then
    ['\\', 'u', '0', '0', hexDigit (c.toNat / 16), hexDigit (c.toNat % 16)]
  else [c]

def renderString (s : Text) : Text :=
  '"' :: (s.flatMap escapeChar ++ ['"'])

def renderFloat (x : Float) : Text :=
  match Binary64.decode x with
  | .nan => "NaN".toList
  | .infinite negative => if negative then "-Infinity".toList else "Infinity".toList
  | .finite .. => Shortest.floatText x

mutual

def render : Json → Text
  | .null => "null".toList
  | .bool b => if b then "true".toList else "false".toList
  | .int n => decimalInt n
  | .float x => renderFloat x
  | .str s => renderString s
  | .arr xs => '[' :: (renderItems xs ++ [']'])
  | .obj fs => '{' :: (renderFields fs ++ ['}'])

def renderItems : List Json → Text
  | [] => []
  | [x] => render x
  | x :: xs => render x ++ (", ".toList ++ renderItems xs)

def renderFields : List (Text × Json) → Text
  | [] => []
  | [(k, x)] => renderString k ++ (": ".toList ++ render x)
  | (k, x) :: fs =>
    renderString k ++ (": ".toList ++ (render x ++ (", ".toList ++ renderFields fs)))

end

end Drawbridge.Json
