import Drawbridge.Text.Blank

/-!
Labels in diagram text. A label that holds a character with a meaning of its own is written in
quotes, with its own quotes as `#quot;`; `unquote` reads a label back, quoted or not.
-/

namespace Drawbridge

/-- What stands for a quote inside a quoted label. -/
def quoteEntity : Text := "#quot;".toList

/-- Characters that end or change a label unless it is quoted. -/
def isSpecialChar (c : Char) : Bool :=
  "[]\x7b\x7d()|\"<>;#\x60".toList.contains c

/-- Whether a label has to be quoted: it holds a special character or the beginning of an arrow. -/
def needsQuotes : Text → Bool
  | [] => false
  | c :: s =>
    isSpecialChar c ||
      (match c, s with
        | '-', '-' :: _ => true
        | '=', '=' :: _ => true
        | '-', '.' :: _ => true
        | _, _ => false) ||
      needsQuotes s

def escapeQuotes (s : Text) : Text :=
  s.flatMap fun c => if c = '"' then quoteEntity else [c]

def quoteLabel (s : Text) : Text :=
  if needsQuotes s then '"' :: (escapeQuotes s ++ ['"']) else s

def unescapeQuotes : Text → Text
  | [] => []
  | '#' :: 'q' :: 'u' :: 'o' :: 't' :: ';' :: s => '"' :: unescapeQuotes s
  | c :: s => c :: unescapeQuotes s

def dropOuterQuotes (s : Text) : Text :=
  match s with
  | '"' :: c :: r => if (c :: r).getLast? = some '"' then (c :: r).dropLast else s
  | _ => s

/-- Reads a written label. -/
def unquote (s : Text) : Text :=
  strip (unescapeQuotes (dropOuterQuotes (strip s)))

end Drawbridge
