import Drawbridge.Text.Blank

/-!
Tidying what a user typed. `cleanText` brings a text into a normal form: line feeds end the lines,
no zero-width characters, no blanks before a line end, at most one empty line in a row, and nothing
blank around the whole. `cleanLabel` makes a label one line with single spaces.
-/

namespace Drawbridge

def unifyNewlines : Text → Text
  | [] => []
  | '\r' :: '\n' :: s => '\n' :: unifyNewlines s
  | '\r' :: s => '\n' :: unifyNewlines s
  | c :: s => c :: unifyNewlines s

/-- Characters that take no room: zero-width space and joiners, word joiner, byte order mark. -/
def isZeroWidth (c : Char) : Bool :=
  c = '\u200b' || c = '\u200c' || c = '\u200d' || c = '\u2060' || c = '\ufeff'

/-- A space or a tab. -/
def isGap (c : Char) : Bool :=
  c = ' ' || c = '\t'

def trimLineEnds (s : Text) : Text :=
  joinLines ((splitWhere (· = '\n') s).map (dropRightWhile isGap))

/-- Shortens runs of line feeds to two; `n` of the current run have been kept. -/
def squeezeNewlines (n : Nat) : Text → Text
  | [] => []
  | c :: s =>
    if c = '\n' then
      if n < 2 then c :: squeezeNewlines (n + 1) s else squeezeNewlines n s
    else c :: squeezeNewlines 0 s

/-- The normal form of a user's text. -/
def cleanText (s : Text) : Text :=
  strip (squeezeNewlines 0 (trimLineEnds ((unifyNewlines s).filter fun c => !isZeroWidth c)))

/-- A label as one line: runs of blanks become single spaces, none stands at an end. -/
def cleanLabel (s : Text) : Text :=
  joinWith [' '] (words s)

end Drawbridge
