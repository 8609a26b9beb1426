import Drawbridge.Json.Value
import Drawbridge.Number.Reading

/-!
The JSON reader. `Json.parse` reads a whole text. Besides the standard grammar it knows `NaN`,
`Infinity` and `-Infinity`; a decimal beyond the range of doubles is infinite; an integer of more
than `maxDigits` digits is refused; and of equal keys the last value counts, at the place of the
first.
-/

namespace Drawbridge.Json

/-- The white space of JSON. -/
def isSpace (c : Char) : Bool :=
  c = ' ' || c = '\t' || c = '\n' || c = '\r'

def skipSpace (s : Text) : Text :=
  s.dropWhile isSpace

/-! ## Strings -/

def hexValue? (c : Char) : Option Nat :=
  if '0' ≤ c && c ≤ '9' then some (c.toNat - 48)
  else if 'a' ≤ c && c ≤ 'f' then some (c.toNat - 87)
  else if 'A' ≤ c && c ≤ 'F' then some (c.toNat - 55)
  else none

/-- The value of four hexadecimal digits. -/
def hexUnit? (a b c d : Char) : Option Nat := do
  return (((← hexValue? a) * 16 + (← hexValue? b)) * 16 + (← hexValue? c)) * 16 + (← hexValue? d)

/-- What a backslash and a character stand for. -/
def unescape? : Char → Option Char
  | '"' => some '"'
  | '\\' => some '\\'
  | '/' => some '/'
  | 'b' => some '\x08'
  | 'f' => some '\x0c'
  | 'n' => some '\n'
  | 'r' => some '\r'
  | 't' => some '\t'
  | _ => none

/-- A part of a string: a character, or a UTF-16 unit written in hexadecimal. -/
inductive Piece where
  | char (c : Char)
  | unit (n : Nat)

/-- The parts of a string after its opening quote, and what follows its closing quote. -/
def readPieces : Text → Option (List Piece × Text)
  | [] => none
  | '"' :: s => some ([], s)
  | '\\' :: 'u' :: a :: b :: c :: d :: s =>
    match hexUnit? a b c d with
    | some n => (readPieces s).map fun (ps, r) => (.unit n :: ps, r)
    | none => none
  | '\\' :: c :: s =>
    match unescape? c with
    | some e => (readPieces s).map fun (ps, r) => (.char e :: ps, r)
    | none => none
  | c :: s =>
    if c < ' ' then none else (readPieces s).map fun (ps, r) => (.char c :: ps, r)

/-- Whether a UTF-16 unit is the first of a pair. -/
def isHighUnit (n : Nat) : Bool :=
  0xd800 ≤ n && n < 0xdc00

/-- Whether a UTF-16 unit is the second of a pair. -/
def isLowUnit (n : Nat) : Bool :=
  0xdc00 ≤ n && n < 0xe000

/-- The characters of the parts: pairs of units are joined, a lone half is replaced. -/
def joinPieces : List Piece → Text
  | [] => []
  | .char c :: ps => c :: joinPieces ps
  | [.unit n] => [if isHighUnit n || isLowUnit n then '\ufffd' else Char.ofNat n]
  | .unit n :: .unit m :: ps =>
    if isHighUnit n && isLowUnit m then
      Char.ofNat (0x10000 + (n - 0xd800) * 0x400 + (m - 0xdc00)) :: joinPieces ps
    else (if isHighUnit n || isLowUnit n then '\ufffd' else Char.ofNat n) ::
      joinPieces (.unit m :: ps)
  | .unit n :: .char c :: ps =>
    (if isHighUnit n || isLowUnit n then '\ufffd' else Char.ofNat n) :: c :: joinPieces ps

def readString (s : Text) : Option (Text × Text) :=
  (readPieces s).map fun (ps, r) => (joinPieces ps, r)

/-! ## Numbers -/

/-- The digits of an integer part: no zero stands in front of another digit. -/
def readWhole : Text → Option (Text × Text)
  | '0' :: s => some (['0'], s)
  | s =>
    let ds := s.takeWhile Char.isDigit
    if ds = [] then none else some (ds, s.dropWhile Char.isDigit)

/-- The places after a point, if at least one digit follows it. -/
def readPlaces : Text → Option (Text × Text)
  | '.' :: s =>
    let ds := s.takeWhile Char.isDigit
    if ds = [] then none else some (ds, s.dropWhile Char.isDigit)
  | _ => none

/-- An exponent, if at least one digit follows its mark and sign. -/
def readPower : Text → Option (Int × Text)
  | c :: s =>
    if c = 'e' || c = 'E' then
      let (negative, t) := takeSign s
      let ds := t.takeWhile Char.isDigit
      let n : Int := natOfDigits ds
      if ds = [] then none else some (if negative then -n else n, t.dropWhile Char.isDigit)
    else none
  | [] => none

/-- A number without its sign: an integer unless it has places or an exponent. -/
def readUnsigned (negative : Bool) (s : Text) : Option (Json × Text) :=
  match readWhole s with
  | none => none
  | some (whole, r) =>
    let places := readPlaces r
    let r := (places.map Prod.snd).getD r
    let power := readPower r
    let r := (power.map Prod.snd).getD r
    if places.isNone && power.isNone then
      if maxDigits < whole.length then none
      else
        let n : Int := natOfDigits whole
        some (.int (if negative then -n else n), r)
    else
      let ds := (places.map Prod.fst).getD []
      let e := (power.map Prod.fst).getD 0
      let x := Binary64.ofDecimal (natOfDigits (whole ++ ds)) (e - ds.length)
      some (.float (if negative then -x else x), r)

def readNumber : Text → Option (Json × Text)
  | '-' :: s => readUnsigned true s
  | s => readUnsigned false s

/-! ## Values -/

/-- The names that stand for values. -/
def names : List (Text × Json) :=
  [("null".toList, .null), ("true".toList, .bool true), ("false".toList, .bool false),
    ("NaN".toList, .float (0.0 / 0.0)), ("Infinity".toList, .float (1.0 / 0.0)),
    ("-Infinity".toList, .float (-1.0 / 0.0))]

def readName (s : Text) : Option (Json × Text) :=
  names.findSome? fun (name, j) => (afterPrefix? name s).map fun r => (j, r)

mutual

/-- A value at the start of a text, and the rest. The first argument bounds the depth of calls. -/
def readValue : Nat → Text → Option (Json × Text)
  | 0, _ => none
  | fuel + 1, s =>
    match s with
    | '"' :: r => (readString r).map fun (t, r) => (.str t, r)
    | '[' :: r =>
      match skipSpace r with
      | ']' :: r => some (.arr [], r)
      | r => (readItems fuel r).map fun (xs, r) => (.arr xs, r)
    | '{' :: r =>
      match skipSpace r with
      | '}' :: r => some (.obj [], r)
      | r => (readFields fuel r).map fun (fs, r) => (.obj (Dictionary.ofList fs), r)
    | s => (readName s).orElse fun _ => readNumber s

/-- The items of an array that has at least one more, up to its closing bracket. -/
def readItems : Nat → Text → Option (List Json × Text)
  | 0, _ => none
  | fuel + 1, s =>
    match readValue fuel s with
    | none => none
    | some (x, r) =>
      match skipSpace r with
      | ']' :: r => some ([x], r)
      | ',' :: r => (readItems fuel (skipSpace r)).map fun (xs, r) => (x :: xs, r)
      | _ => none

/-- The fields of an object that has at least one more, up to its closing brace. -/
def readFields : Nat → Text → Option (List (Text × Json) × Text)
  | 0, _ => none
  | fuel + 1, s =>
    match s with
    | '"' :: r =>
      match readString r with
      | none => none
      | some (key, r) =>
        match skipSpace r with
        | ':' :: r =>
          match readValue fuel (skipSpace r) with
          | none => none
          | some (x, r) =>
            match skipSpace r with
            | '}' :: r => some ([(key, x)], r)
            | ',' :: r => (readFields fuel (skipSpace r)).map fun (fs, r) => ((key, x) :: fs, r)
            | _ => none
        | _ => none
    | _ => none

end

/-- Reads a text that holds one value and nothing else but white space. -/
def parse (s : Text) : Option Json :=
  match readValue (2 * s.length + 2) (skipSpace s) with
  | some (j, r) => if skipSpace r = [] then some j else none
  | none => none

end Drawbridge.Json
