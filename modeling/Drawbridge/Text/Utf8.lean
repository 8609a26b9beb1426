import Drawbridge.Text.Basic

/-!
Incremental UTF-8. A decoder takes bytes one at a time and keeps what it has read of an unfinished
character, so it does not matter where the bytes are cut. Ill-formed input is replaced: every
maximal beginning of a character that is not continued, and every byte that begins none, becomes
one U+FFFD.
-/

namespace Drawbridge.Utf8

/-- What a decoder remembers between two bytes. -/
inductive Decoder where
  /-- At the boundary of two characters. -/
  | ready
  /-- Inside a character: bytes to come, the bits read so far, and the range of the next byte. -/
  | inside (missing value low high : Nat)
  deriving DecidableEq, Repr

def replacement : Char := '\ufffd'

/-- What the first byte of a character leads to, with the characters it completes. -/
def Decoder.first (b : Nat) : Decoder × Text :=
  if b < 0x80 then (.ready, [Char.ofNat b])
  else if b < 0xc2 then (.ready, [replacement])
  else if b < 0xe0 then (.inside 1 (b - 0xc0) 0x80 0xbf, [])
  else if b = 0xe0 then (.inside 2 0 0xa0 0xbf, [])
  else if b = 0xed then (.inside 2 0xd 0x80 0x9f, [])
  else if b < 0xf0 then (.inside 2 (b - 0xe0) 0x80 0xbf, [])
  else if b = 0xf0 then (.inside 3 0 0x90 0xbf, [])
  else if b < 0xf4 then (.inside 3 (b - 0xf0) 0x80 0xbf, [])
  else if b = 0xf4 then (.inside 3 4 0x80 0x8f, [])
  else (.ready, [replacement])

/-- One byte: the next state and the characters that the byte completes or gives up. -/
def Decoder.step : Decoder → Nat → Decoder × Text
  | .ready, b => first b
  | .inside missing value low high, b =>
    if low ≤ b && b ≤ high then
      let value := value * 64 + (b - 0x80)
      if missing ≤ 1 then (.ready, [Char.ofNat value])
      else (.inside (missing - 1) value 0x80 0xbf, [])
    else
      let (d, cs) := first b
      (d, replacement :: cs)

/-- A run of bytes: the state after them and the characters they gave. -/
def Decoder.feed : Decoder → List UInt8 → Decoder × Text
  | d, [] => (d, [])
  | d, b :: bs =>
    let (d, cs) := d.step b.toNat
    let (d, ds) := d.feed bs
    (d, cs ++ ds)

/-- What an unfinished character becomes at the end of the input. -/
def Decoder.finish : Decoder → Text
  | .ready => []
  | .inside .. => [replacement]

def decode (bs : List UInt8) : Text :=
  let (d, cs) := Decoder.ready.feed bs
  cs ++ d.finish

def encodeChar (c : Char) : List UInt8 :=
  let n := c.toNat
  if n < 0x80 then [UInt8.ofNat n]
  else if n < 0x800 then [UInt8.ofNat (0xc0 + n / 64), UInt8.ofNat (0x80 + n % 64)]
  else if n < 0x10000 then
    [UInt8.ofNat (0xe0 + n / 4096), UInt8.ofNat (0x80 + n / 64 % 64), UInt8.ofNat (0x80 + n % 64)]
  else
    [UInt8.ofNat (0xf0 + n / 262144), UInt8.ofNat (0x80 + n / 4096 % 64),
      UInt8.ofNat (0x80 + n / 64 % 64), UInt8.ofNat (0x80 + n % 64)]

def encode (s : Text) : List UInt8 :=
  s.flatMap encodeChar

end Drawbridge.Utf8
