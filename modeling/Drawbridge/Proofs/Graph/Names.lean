import Drawbridge.Graph.Basic
import Drawbridge.Text.Blank
import Drawbridge.Text.WordChar
import Mathlib.Tactic.ByContra

/-!
Canonical names. Nodes and style classes with different indices have different names
(`nodeName_injective`, `styleName_injective`), and names are identifiers that begin with a capital
(`IsName`), so that no keyword of a diagram begins like one.
-/

namespace Drawbridge

theorem decimal_injective {m n : Nat} (h : decimal m = decimal n) : m = n := by
  have parsed := congrArg (fun ds => Nat.ofDigitChars 10 ds 0) h
  simpa [decimal] using parsed

theorem isDigit_of_mem_decimal {n : Nat} {c : Char} (h : c ∈ decimal n) : c.isDigit = true :=
  Nat.isDigit_of_mem_toDigits (by decide) (by decide) h

structure IsIdent (s : Text) : Prop where
  ne_nil : s ≠ []
  ident : ∀ c ∈ s, isIdentChar c = true

/-- An identifier that begins with a capital letter. -/
structure IsName (s : Text) : Prop where
  capital : ∃ c r, s = c :: r ∧ c.isUpper = true
  ident : ∀ c ∈ s, isIdentChar c = true

theorem isIdentChar_of_isDigit {c : Char} (h : c.isDigit = true) : isIdentChar c = true := by
  simp [isIdentChar, Char.isAlphanum, h]

theorem isIdentChar_of_isUpper {c : Char} (h : c.isUpper = true) : isIdentChar c = true := by
  have alpha : c.isAlpha = true := by
    show (c.isUpper || c.isLower) = true
    rw [h]
    rfl
  simp [isIdentChar, Char.isAlphanum, alpha]

/-- Letters, digits and the underscore by their code points. -/
theorem isIdentChar_bounds {c : Char} (h : isIdentChar c = true) :
    48 ≤ c.toNat ∧ c.toNat ≤ 57 ∨ 65 ≤ c.toNat ∧ c.toNat ≤ 90 ∨ c.toNat = 95 ∨
      97 ≤ c.toNat ∧ c.toNat ≤ 122 := by
  delta isIdentChar Char.isAlphanum Char.isAlpha Char.isUpper Char.isLower Char.isDigit at h
  simp only [Bool.or_eq_true, Bool.and_eq_true, decide_eq_true_eq, UInt32.le_iff_toNat_le,
    ge_iff_le] at h
  have code : c.toNat = c.val.toNat := rfl
  rw [code]
  rcases h with ((h | h) | h) | rfl
  · exact .inr (.inl h)
  · exact .inr (.inr (.inr h))
  · exact .inl h
  · exact .inr (.inr (.inl rfl))

theorem not_blank_of_isIdentChar {c : Char} (h : isIdentChar c = true) : isBlank c = false := by
  have bounds := isIdentChar_bounds h
  by_contra hb
  simp only [isBlank, Bool.not_eq_false, Bool.or_eq_true, Bool.and_eq_true,
    decide_eq_true_eq] at hb
  omega

/-- A capital letter with a number behind it is a name. -/
theorem isName_numbered {c : Char} (h : c.isUpper = true) (n : Nat) : IsName (c :: decimal n) where
  capital := ⟨c, decimal n, rfl, h⟩
  ident := by
    intro d hd
    rcases List.mem_cons.mp hd with rfl | hd
    · exact isIdentChar_of_isUpper h
    · exact isIdentChar_of_isDigit (isDigit_of_mem_decimal hd)

theorem letter_isUpper (i : Nat) (h : i < 26) : (Char.ofNat (65 + i)).isUpper = true := by
  revert i
  decide

theorem nodeName_isName (i : Nat) : IsName (nodeName i) := by
  unfold nodeName
  split
  · rename_i h
    refine ⟨⟨_, [], rfl, letter_isUpper i h⟩, ?_⟩
    intro c hc
    rw [List.mem_singleton.mp hc]
    exact isIdentChar_of_isUpper (letter_isUpper i h)
  · exact isName_numbered (by decide) (i + 1)

theorem styleName_isName (i : Nat) : IsName (styleName i) :=
  isName_numbered (by decide) (i + 1)

theorem letter_injective :
    ∀ i < 26, ∀ j < 26, Char.ofNat (65 + i) = Char.ofNat (65 + j) → i = j := by
  decide +kernel

/-- **Different nodes have different names.** -/
theorem nodeName_injective {i j : Nat} (h : nodeName i = nodeName j) : i = j := by
  unfold nodeName at h
  have more : ∀ n, decimal n ≠ [] := fun n => Nat.toDigits_ne_nil
  split at h <;> split at h
  · rename_i hi hj
    exact letter_injective i hi j hj (List.singleton_inj.mp h)
  · exact (more _ (List.cons.inj h).2.symm).elim
  · exact (more _ (List.cons.inj h).2).elim
  · have := decimal_injective (List.cons.inj h).2
    omega

/-- **Different style classes have different names.** -/
theorem styleName_injective {i j : Nat} (h : styleName i = styleName j) : i = j := by
  have := decimal_injective (List.cons.inj h).2
  omega

namespace IsName

variable {s : Text}

theorem ne_nil (h : IsName s) : s ≠ [] := by
  obtain ⟨c, r, rfl, -⟩ := h.capital
  exact List.cons_ne_nil c r

theorem solid (h : IsName s) : ∀ c ∈ s, isBlank c = false :=
  fun c hc => not_blank_of_isIdentChar (h.ident c hc)

theorem stripLeft_eq (h : IsName s) : stripLeft s = s := by
  obtain ⟨c, r, rfl, -⟩ := h.capital
  exact List.dropWhile_cons_of_neg (by simp [h.solid c List.mem_cons_self])

theorem isIdent (h : IsName s) : IsIdent s :=
  ⟨h.ne_nil, h.ident⟩

end IsName

end Drawbridge
