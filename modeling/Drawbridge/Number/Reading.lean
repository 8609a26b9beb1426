import Drawbridge.Number.Binary64
import Drawbridge.Text.Blank
import Drawbridge.Text.Digit

/-!
Numbers written by hand, as settings and coordinates may hold them: digits of any script, blanks
around, and single underscores between digits. `readInt` reads integers of at most `maxDigits`
digits, `readFloat?` decimals with an optional exponent, infinities and not-a-number.
-/

namespace Drawbridge

/-- Why a text is not a number. -/
inductive NumberError where
  | notANumber (text : Text)
  | tooManyDigits (count : Nat)
  deriving DecidableEq, Repr

def maxDigits : Nat := 4300

/-- The blanks allowed around a number: the information separators are none. -/
def isNumberBlank (c : Char) : Bool :=
  isBlank c && !(0x1c ≤ c.toNat && c.toNat ≤ 0x1f)

/-- The text with the digits of every script as ASCII digits. -/
def asciiDigits (s : Text) : Text :=
  s.map fun c =>
    match digitValue? c with
    | some d => Char.ofNat (48 + d)
    | none => c

/-- The text without underscores, each of which has to stand between two digits. -/
def dropGroupMarks? (previous : Char) : Text → Option Text
  | [] => if previous = '_' then none else some []
  | c :: s =>
    if c = '_' then
      if previous.isDigit then dropGroupMarks? c s else none
    else if previous = '_' && !c.isDigit then none
    else (dropGroupMarks? c s).map (c :: ·)

/-- The number that a run of ASCII digits stands for. -/
def natOfDigits (ds : Text) : Nat :=
  ds.foldl (fun n c => 10 * n + (c.toNat - 48)) 0

def takeSign : Text → Bool × Text
  | '-' :: s => (true, s)
  | '+' :: s => (false, s)
  | s => (false, s)

/-- The number as plain ASCII: no blanks around it, no underscores. -/
def plainNumber? (s : Text) : Option Text :=
  dropGroupMarks? ' ' (asciiDigits (dropRightWhile isNumberBlank (s.dropWhile isNumberBlank)))

def readInt (s : Text) : Except NumberError Int :=
  match plainNumber? s with
  | none => .error (.notANumber s)
  | some t =>
    let (negative, ds) := takeSign t
    if ds = [] || !ds.all Char.isDigit then .error (.notANumber s)
    else if maxDigits < ds.length then .error (.tooManyDigits ds.length)
    else .ok (if negative then -(natOfDigits ds : Int) else natOfDigits ds)

/-- A signed exponent after its mark; nothing at all stands for zero. -/
def readExponent? : Text → Option Int
  | [] => some 0
  | c :: s =>
    let (negative, ds) := takeSign s
    if (c = 'e' || c = 'E') && ds ≠ [] && ds.all Char.isDigit then
      some (if negative then -(natOfDigits ds : Int) else natOfDigits ds)
    else none

/-- Reads a decimal without sign. -/
def readDecimal? (s : Text) : Option Float :=
  let whole := s.takeWhile Char.isDigit
  let rest := s.dropWhile Char.isDigit
  let (places, rest) :=
    match rest with
    | '.' :: r => (r.takeWhile Char.isDigit, r.dropWhile Char.isDigit)
    | _ => ([], rest)
  if whole = [] && places = [] then none
  else
    (readExponent? rest).map fun e =>
      Binary64.ofDecimal (natOfDigits (whole ++ places)) (e - places.length)

/-- Reads a double: a decimal, `inf`, `infinity` or `nan`, with an optional sign. -/
def readFloat? (s : Text) : Option Float := do
  let (negative, t) := takeSign (← plainNumber? s)
  let name := t.map Char.toLower
  let x ←
    if name = "inf".toList || name = "infinity".toList then some (1.0 / 0.0)
    else if name = "nan".toList then some (0.0 / 0.0)
    else readDecimal? t
  return if negative then -x else x

/-- Reads a double, keeping the text that is none. -/
def readFloat (s : Text) : Except NumberError Float :=
  match readFloat? s with
  | some x => .ok x
  | none => .error (.notANumber s)

end Drawbridge
