import Drawbridge.Number.Binary64
import Drawbridge.Text.Basic

/-!
Shortest decimals. `digits` finds the fewest significant digits that read back as a given double,
and of those the nearest to it, by testing for 1, 2, ... 17 digits the two neighbours of the value
on that decimal grid. `floatText` writes them: positionally from `0.0001` up to below `10 ^ 16`,
with an exponent of at least two digits otherwise, and never without a mark of being no integer.
-/

namespace Drawbridge.Shortest

open Binary64 (hiddenBit scale)

def fracLe (a b : Nat × Nat) : Bool :=
  a.1 * b.2 ≤ b.1 * a.2

/-- The reals that round to `m * 2 ^ e`: lower end, upper end, and whether the ends belong to it. -/
def interval (m : Nat) (e : Int) : (Nat × Nat) × (Nat × Nat) × Bool :=
  let low := if m = hiddenBit && -1074 < e then 4 * m - 1 else 4 * m - 2
  (scale 2 low 1 (e - 2), scale 2 (4 * m + 2) 1 (e - 2), m % 2 = 0)

/-- Whether a decimal reads back as `m * 2 ^ e`. -/
def readsBack (m : Nat) (e : Int) (d : Nat) (k : Int) : Bool :=
  let (low, high, closed) := interval m e
  let x := scale 10 d 1 k
  if closed then fracLe low x && fracLe x high
  else !fracLe x low && !fracLe high x

/-- The power of ten above `m * 2 ^ e`: the least `p` with a value below `10 ^ p`. -/
def magnitude (m : Nat) (e : Int) : Int :=
  let v := scale 2 m 1 e
  let p := ((m.log2 : Int) + e) * 30103 / 100000
  match [p - 1, p, p + 1, p + 2].find? fun p => !fracLe (scale 10 1 1 p) v with
  | some p => p
  | none => p + 3

/--
The decimal with `n` digits that reads back as `m * 2 ^ e`, if there is one: of the two neighbours
of the value the nearer one, at equal distance the even one. `p` is the magnitude of the value.
-/
def withDigits? (m : Nat) (e p : Int) (n : Nat) : Option (Nat × Int) :=
  let k := p - n
  let (num, den) := scale 2 m 1 e
  let (unitNum, unitDen) := scale 10 1 1 k
  let a := num * unitDen
  let b := den * unitNum
  let d := a / b
  let r := a % b
  let above := b < 2 * r || (b = 2 * r && d % 2 = 1)
  let order := if above then [d + 1, d] else [d, d + 1]
  (order.find? fun d => readsBack m e d k).map fun d => (d, k)

/-- The shortest decimal `d * 10 ^ k` that reads back as `m * 2 ^ e`. -/
def digits (m : Nat) (e : Int) : Nat × Int :=
  let p := magnitude m e
  match (List.range 17).findSome? fun n => withDigits? m e p (n + 1) with
  | some r => r
  | none => (m, e)

def dropZeros (fuel d : Nat) : Nat × Nat :=
  match fuel with
  | 0 => (d, 0)
  | fuel + 1 =>
    if d % 10 = 0 && d ≠ 0 then
      let (d, z) := dropZeros fuel (d / 10)
      (d, z + 1)
    else (d, 0)

/-- Writes digits with the point after the first `p` of them. -/
def place (ds : Text) (p : Int) : Text :=
  let n : Int := ds.length
  if -3 ≤ p && p ≤ 16 then
    if p ≤ 0 then '0' :: '.' :: (List.replicate (-p).toNat '0' ++ ds)
    else if n ≤ p then ds ++ List.replicate (p - n).toNat '0' ++ ['.', '0']
    else ds.take p.toNat ++ '.' :: ds.drop p.toNat
  else
    let x := p - 1
    let power := decimal x.natAbs
    let power := if power.length < 2 then '0' :: power else power
    let tail := 'e' :: (if x < 0 then '-' else '+') :: power
    match ds with
    | [] => tail
    | [c] => c :: tail
    | c :: cs => c :: '.' :: (cs ++ tail)

def floatText (x : Float) : Text :=
  match Binary64.decode x with
  | .nan => "nan".toList
  | .infinite negative => if negative then "-inf".toList else "inf".toList
  | .finite negative m e =>
    let body :=
      if m = 0 then "0.0".toList
      else
        let (d, k) := digits m e
        let (d, z) := dropZeros 20 d
        let ds := decimal d
        place ds (ds.length + k + z)
    if negative then '-' :: body else body

end Drawbridge.Shortest
