import Drawbridge.Fault

/-!
Colours in diagram text. Commas separate the properties of a style class, so a colour of the form
`rgb(...)` or `rgba(...)` is written in hexadecimal, and any other comma as a space.
-/

namespace Drawbridge

/-- A colour by its components as they are written: red, green, blue and perhaps an opacity. -/
structure RgbText where
  red : Text
  green : Text
  blue : Text
  opacity : Option Text
  deriving DecidableEq, Repr

/-- The text after one of two forms of a letter. -/
def afterLetter? (c : Char) : Text → Option Text
  | d :: s => if d.toLower = c then some s else none
  | [] => none

/-- A run of digits between blanks, and the rest. -/
def takeComponent? (s : Text) : Option (Text × Text) :=
  let s := stripLeft s
  let ds := s.takeWhile isDecimalDigit
  if ds = [] then none else some (ds, stripLeft (s.dropWhile isDecimalDigit))

/-- An opacity between blanks, digits and points with perhaps a percent sign, and the rest. -/
def takeOpacity? (s : Text) : Option (Text × Text) :=
  let s := stripLeft s
  let isPart := fun c => isDecimalDigit c || c = '.'
  let ds := s.takeWhile isPart
  if ds = [] then none
  else
    match s.dropWhile isPart with
    | '%' :: r => some (ds ++ ['%'], stripLeft r)
    | r => some (ds, stripLeft r)

def readRgb? (s : Text) : Option RgbText := do
  let r ← (afterLetter? 'r' s).bind fun s => (afterLetter? 'g' s).bind (afterLetter? 'b')
  let r := (afterLetter? 'a' r).getD r
  let r ← afterPrefix? ['('] r
  let (red, r) ← takeComponent? r
  let r ← afterPrefix? [','] r
  let (green, r) ← takeComponent? r
  let r ← afterPrefix? [','] r
  let (blue, r) ← takeComponent? r
  match r with
  | [')'] => some { red, green, blue, opacity := none }
  | ',' :: r =>
    let (opacity, r) ← takeOpacity? r
    if r = [')'] then some { red, green, blue, opacity := some opacity } else none
  | _ => none

def componentHex (s : Text) : Except Fault Text := do
  let n ← (readInt s).mapError .badNumber
  return hexPadded 2 (min n 255).toNat

/-- An opacity as a number from zero on, a percentage as its hundredth part. -/
def readOpacity (s : Text) : Except Fault Float := do
  match s.getLast? with
  | some '%' => return (← (readFloat s.dropLast).mapError .badNumber) / 100.0
  | _ => (readFloat s).mapError .badNumber

/-- The last two digits of a colour: none for full opacity. -/
def opacityHex : Option Text → Except Fault Text
  | none => .ok []
  | some s => do
    let x ← readOpacity s
    return if x < 1.0 then hexPadded 2 (Binary64.round (x * 255.0)).toNat else []

/-- A colour as it is written in a style class. -/
def colourText (s : Text) : Except Fault Text :=
  match readRgb? (strip s) with
  | some c => do
    let red ← componentHex c.red
    let green ← componentHex c.green
    let blue ← componentHex c.blue
    let opacity ← opacityHex c.opacity
    return '#' :: (red ++ green ++ blue ++ opacity)
  | none => .ok (s.map fun c => if c = ',' then ' ' else c)

/-- A colour value as it is written in a style class; only a text is a colour. -/
def colourOf : Json → Except Fault Text
  | .str s => colourText s
  | _ => .error .noSuchMember

end Drawbridge
