/-!
Double-precision numbers as exact values. `decode` splits a number into sign, significand and
power of two, and `ofRatio` rounds a quotient of natural numbers to the nearest double, a tie going
to the even significand. Both work in exact arithmetic.
-/

namespace Drawbridge.Binary64

/-- A double by its kind. A finite one has the value `significand * 2 ^ exponent`, up to sign. -/
inductive Parts where
  | nan
  | infinite (negative : Bool)
  | finite (negative : Bool) (significand : Nat) (exponent : Int)
  deriving DecidableEq, Repr

/-- The weight of the bit before the fraction of a double, `2 ^ 52`. -/
def hiddenBit : Nat := 0x10000000000000

def decode (x : Float) : Parts :=
  let bits : Nat := x.toBits.toNat
  let negative : Bool := bits / (2048 * hiddenBit) = 1
  let field : Nat := bits / hiddenBit % 2048
  let fraction : Nat := bits % hiddenBit
  if field = 2047 then
    if fraction = 0 then .infinite negative else .nan
  else if field = 0 then .finite negative fraction (-1074)
  else .finite negative (hiddenBit + fraction) (field - 1075)

/-- `num / den` to the nearest natural number, a tie going to the even one. -/
def roundDiv (num den : Nat) : Nat :=
  let q := num / den
  let r := num % den
  if 2 * r < den then q
  else if den < 2 * r then q + 1
  else if q % 2 = 0 then q else q + 1

/-- The fraction `num / den * base ^ e`, again as a fraction. -/
def scale (base num den : Nat) (e : Int) : Nat × Nat :=
  if 0 ≤ e then (num * base.pow e.toNat, den) else (num, den * base.pow (-e).toNat)

/-- The double nearest to `num / den`; infinity from the rounding limit on. -/
def ofRatio (num den : Nat) : Float :=
  if num = 0 then 0.0
  else
    let e : Int := (num.log2 : Int) - den.log2 - 53
    let (n, d) := scale 2 num den (-e)
    let e := if n < 2 * hiddenBit * d then e else e + 1
    let e := max e (-1074)
    let (n, d) := scale 2 num den (-e)
    let m := roundDiv n d
    let bits := if m < hiddenBit then m else (e + 1075).toNat * hiddenBit + (m - hiddenBit)
    Float.ofBits (UInt64.ofNat (min bits (2047 * hiddenBit)))

/-- The double nearest to `m * 10 ^ e`. Far outside the range the power is not computed. -/
def ofDecimal (m : Nat) (e : Int) : Float :=
  let size := (m.log2 : Int) * 30103 / 100000 + e
  if m = 0 then 0.0
  else if size > 310 then Float.ofBits (UInt64.ofNat (2047 * hiddenBit))
  else if size < -330 then 0.0
  else
    let (n, d) := scale 10 m 1 e
    ofRatio n d

/-- The double nearest to an integer, none if that is beyond the finite range. -/
def ofInt? (n : Int) : Option Float :=
  let x := ofRatio n.natAbs 1
  match decode x with
  | .finite .. => some (if n < 0 then -x else x)
  | _ => none

/-- A finite double to the nearest integer, a tie going to the even one; other doubles give `0`. -/
def round (x : Float) : Int :=
  match decode x with
  | .finite negative m e =>
    let (n, d) := scale 2 m 1 e
    if negative then -(roundDiv n d : Int) else roundDiv n d
  | _ => 0

def eqInt (x : Float) (n : Int) : Bool :=
  match decode x with
  | .finite negative m e =>
    let (a, b) := scale 2 m 1 e
    (if negative then -(a : Int) else a) = n * b
  | _ => false

end Drawbridge.Binary64
