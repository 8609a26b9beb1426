/-!
Texts as lists of characters, and the cutting and joining operations the rest of the library
is written in.

* `consHead`, `splitWhere`: cut a text at separators; `n` separators give `n + 1` pieces.
* `joinWith`: put pieces together again.
* `afterPrefix?`: the rest of a text that starts with a given one.
* `erase`: drop every piece that a measuring function recognises, from left to right.
-/

namespace Drawbridge

/-- A text, character by character. All offsets count characters. -/
abbrev Text := List Char

instance : LawfulBEq Text := inferInstance

/-- Puts a character in front of the first piece. -/
def consHead (c : Char) : List Text → List Text
  | [] => [[c]]
  | piece :: pieces => (c :: piece) :: pieces

/-- The pieces of a text between the characters that satisfy `p`. -/
def splitWhere (p : Char → Bool) : Text → List Text
  | [] => [[]]
  | c :: s => if p c then [] :: splitWhere p s else consHead c (splitWhere p s)

/-- The pieces with a separator between each two of them. -/
def joinWith (sep : Text) : List Text → Text
  | [] => []
  | [piece] => piece
  | piece :: pieces => piece ++ sep ++ joinWith sep pieces

/-- What follows `p` in a text that starts with it. -/
def afterPrefix? : Text → Text → Option Text
  | [], s => some s
  | _ :: _, [] => none
  | a :: p, c :: s => if a = c then afterPrefix? p s else none

/-- Whether `p` occurs somewhere in the text. -/
def occursIn (p : Text) : Text → Bool
  | [] => p.isEmpty
  | c :: s => p.isPrefixOf (c :: s) || occursIn p s

/-- The text without its longest ending that satisfies `p` throughout. -/
def dropRightWhile (p : Char → Bool) (s : Text) : Text :=
  (s.reverse.dropWhile p).reverse

/-- What stands before the first `c`, and what follows it. -/
def cutAt? (c : Char) : Text → Option (Text × Text)
  | [] => none
  | d :: s => if d = c then some ([], s) else (cutAt? c s).map fun (a, b) => (d :: a, b)

/-- The beginning of the text up to and including the last `c`. -/
def throughLast? (c : Char) : Text → Option Text
  | [] => none
  | d :: s =>
    match throughLast? c s with
    | some t => some (d :: t)
    | none => if d = c then some [d] else none

/--
Drops the pieces that `size` recognises. `size s` is the length of the piece at the start of `s`,
`0` if none starts there; the first argument counts the characters of the current piece that are
still to be dropped.
-/
def eraseFrom (size : Text → Nat) : Nat → Text → Text
  | _, [] => []
  | k + 1, _ :: s => eraseFrom size k s
  | 0, c :: s =>
    match size (c :: s) with
    | 0 => c :: eraseFrom size 0 s
    | k + 1 => eraseFrom size k s

/-- Drops every piece that `size` recognises, from left to right. -/
def erase (size : Text → Nat) (s : Text) : Text :=
  eraseFrom size 0 s

def decimal (n : Nat) : Text :=
  Nat.toDigits 10 n

/-- Decimal digits of an integer, with a sign if it is negative. -/
def decimalInt : Int → Text
  | .ofNat n => decimal n
  | .negSucc n => '-' :: decimal (n + 1)

end Drawbridge
