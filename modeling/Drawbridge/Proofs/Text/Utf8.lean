import Drawbridge.Text.Utf8

/-!
Properties of incremental UTF-8. Bytes that arrive in pieces give the text of the whole
(`Decoder.feed_append`), and a text comes back from its bytes (`decode_encode`).
-/

namespace Drawbridge.Utf8

namespace Decoder

theorem feed_append (d : Decoder) (bs cs : List UInt8) : d.feed (bs ++ cs) =
    (((d.feed bs).1.feed cs).1, (d.feed bs).2 ++ ((d.feed bs).1.feed cs).2) := by
  induction bs generalizing d with
  | nil => rfl
  | cons b bs ih =>
    simp only [List.cons_append, feed]
    rw [ih, List.append_assoc]

theorem step_ready (b : Nat) : ready.step b = first b := rfl

/-- One byte that the decoder accepts inside a character. -/
theorem step_inside {missing value low high b : Nat} (hl : low ≤ b) (hh : b ≤ high) :
    (inside missing value low high).step b =
      if missing ≤ 1 then (ready, [Char.ofNat (value * 64 + (b - 0x80))])
      else (inside (missing - 1) (value * 64 + (b - 0x80)) 0x80 0xbf, []) := by
  simp [step, hl, hh]

theorem first_one {b : Nat} (h : b < 0x80) : first b = (ready, [Char.ofNat b]) := by
  simp [first, h]

theorem first_two {b : Nat} (hl : 0xc2 ≤ b) (hh : b < 0xe0) :
    first b = (inside 1 (b - 0xc0) 0x80 0xbf, []) := by
  have h₁ : ¬ b < 0x80 := by omega
  have h₂ : ¬ b < 0xc2 := by omega
  simp [first, h₁, h₂, hh]

/-- The range of the second byte leaves out what shorter sequences say and the surrogates. -/
theorem first_three {b : Nat} (hl : 0xe0 ≤ b) (hh : b < 0xf0) :
    first b = (inside 2 (b - 0xe0) (if b = 0xe0 then 0xa0 else 0x80)
      (if b = 0xed then 0x9f else 0xbf), []) := by
  have h₁ : ¬ b < 0x80 := by omega
  have h₂ : ¬ b < 0xc2 := by omega
  have h₃ : ¬ b < 0xe0 := by omega
  by_cases h₄ : b = 0xe0
  · subst h₄
    rfl
  · by_cases h₅ : b = 0xed
    · subst h₅
      rfl
    · simp [first, h₁, h₂, h₃, h₄, h₅, hh]

/-- The range of the second byte leaves out what shorter sequences say and what is beyond
Unicode. -/
theorem first_four {b : Nat} (hl : 0xf0 ≤ b) (hh : b ≤ 0xf4) :
    first b = (inside 3 (b - 0xf0) (if b = 0xf0 then 0x90 else 0x80)
      (if b = 0xf4 then 0x8f else 0xbf), []) := by
  have : b = 0xf0 ∨ b = 0xf1 ∨ b = 0xf2 ∨ b = 0xf3 ∨ b = 0xf4 := by omega
  rcases this with rfl | rfl | rfl | rfl | rfl <;> rfl

/-- The bytes of a character give it, and nothing of it is left over. -/
theorem feed_encodeChar (c : Char) : ready.feed (encodeChar c) = (ready, [c]) := by
  have valid : c.toNat < 0xd800 ∨ 0xdfff < c.toNat ∧ c.toNat < 0x110000 := c.valid
  have same : Char.ofNat c.toNat = c := Char.ofNat_toNat c
  generalize hn : c.toNat = n at valid same
  simp only [encodeChar, hn]
  by_cases h₁ : n < 0x80
  · have hb : (UInt8.ofNat n).toNat = n := by simp; omega
    rw [if_pos h₁, feed, hb, step_ready, first_one h₁, same]
    rfl
  · rw [if_neg h₁]
    have tail (m : Nat) : (UInt8.ofNat (0x80 + m % 64)).toNat = 0x80 + m % 64 := by simp; omega
    by_cases h₂ : n < 0x800
    · have hb : (UInt8.ofNat (0xc0 + n / 64)).toNat = 0xc0 + n / 64 := by simp; omega
      have joined : (0xc0 + n / 64 - 0xc0) * 64 + (0x80 + n % 64 - 0x80) = n := by omega
      rw [if_pos h₂]
      simp only [feed, hb, tail, step_ready]
      rw [first_two (by omega) (by omega)]
      simp only
      rw [step_inside (by omega) (by omega), if_pos (Nat.le_refl 1), joined, same]
      rfl
    · rw [if_neg h₂]
      by_cases h₃ : n < 0x10000
      · have hb : (UInt8.ofNat (0xe0 + n / 4096)).toNat = 0xe0 + n / 4096 := by simp; omega
        have joined : ((0xe0 + n / 4096 - 0xe0) * 64 + (0x80 + n / 64 % 64 - 0x80)) * 64 +
            (0x80 + n % 64 - 0x80) = n := by omega
        rw [if_pos h₃]
        simp only [feed, hb, tail, step_ready]
        rw [first_three (by omega) (by omega)]
        simp only
        rw [step_inside (by split <;> omega) (by split <;> omega), if_neg (by decide)]
        simp only
        rw [step_inside (by omega) (by omega), if_pos (by decide), joined, same]
        rfl
      · have hb : (UInt8.ofNat (0xf0 + n / 262144)).toNat = 0xf0 + n / 262144 := by simp; omega
        have joined : (((0xf0 + n / 262144 - 0xf0) * 64 + (0x80 + n / 4096 % 64 - 0x80)) * 64 +
            (0x80 + n / 64 % 64 - 0x80)) * 64 + (0x80 + n % 64 - 0x80) = n := by omega
        rw [if_neg h₃]
        simp only [feed, hb, tail, step_ready]
        rw [first_four (by omega) (by omega)]
        simp only
        rw [step_inside (by split <;> omega) (by split <;> omega), if_neg (by decide)]
        simp only
        rw [step_inside (by omega) (by omega), if_neg (by decide)]
        simp only
        rw [step_inside (by omega) (by omega), if_pos (by decide), joined, same]
        rfl

theorem feed_encode (s : Text) : ready.feed (encode s) = (ready, s) := by
  induction s with
  | nil => rfl
  | cons c s ih =>
    have cons : encode (c :: s) = encodeChar c ++ encode s := by simp [encode]
    rw [cons, feed_append, feed_encodeChar, ih]
    rfl

/-- The end of the input completes no message: it gives nothing or one replacement. -/
theorem finish_eq (d : Decoder) : d.finish = [] ∨ d.finish = [replacement] := by
  cases d with
  | ready => exact .inl rfl
  | inside => exact .inr rfl

end Decoder

/-- **A text comes back from its bytes.** -/
theorem decode_encode (s : Text) : decode (encode s) = s := by
  simp [decode, Decoder.feed_encode, Decoder.finish]

end Drawbridge.Utf8
