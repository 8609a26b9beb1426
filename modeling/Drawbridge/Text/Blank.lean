import Drawbridge.Text.Basic

/-!
White space. `isBlank` holds of Unicode white space and of the four information separators;
`isLineBreak` of the characters that end a line. `strip` trims, `words` cuts at runs of blanks and
`lines` at line ends, of which a carriage return with its line feed is one.
-/

namespace Drawbridge

/-- Unicode white space and the information separators U+001C to U+001F. -/
def isBlank (c : Char) : Bool :=
  let n := c.toNat
  (0x09 ≤ n && n ≤ 0x0d) || (0x1c ≤ n && n ≤ 0x20) || n = 0x85 || n = 0xa0 || n = 0x1680 ||
    (0x2000 ≤ n && n ≤ 0x200a) || n = 0x2028 || n = 0x2029 || n = 0x202f || n = 0x205f ||
    n = 0x3000

def isLineBreak (c : Char) : Bool :=
  let n := c.toNat
  (0x0a ≤ n && n ≤ 0x0d) || (0x1c ≤ n && n ≤ 0x1e) || n = 0x85 || n = 0x2028 || n = 0x2029

def stripLeft (s : Text) : Text :=
  s.dropWhile isBlank

def stripRight (s : Text) : Text :=
  dropRightWhile isBlank s

/-- The text without leading and trailing blanks. -/
def strip (s : Text) : Text :=
  stripRight (stripLeft s)

/-- The maximal pieces without blanks. -/
def words (s : Text) : List Text :=
  (splitWhere isBlank s).filter (· ≠ [])

/-- The lines of a text, without what ends them. A line end at the end of the text opens no line. -/
def lines : Text → List Text
  | [] => []
  | '\r' :: '\n' :: s => [] :: lines s
  | c :: s => if isLineBreak c then [] :: lines s else consHead c (lines s)

def joinLines (ls : List Text) : Text :=
  joinWith ['\n'] ls

end Drawbridge
