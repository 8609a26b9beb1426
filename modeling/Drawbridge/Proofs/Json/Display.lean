import Drawbridge.Json.Display

/-!
Values in messages. Whatever counts as present shows as some text (`Json.display_ne_nil`).
-/

namespace Drawbridge

theorem decimal_ne_nil (n : Nat) : decimal n ≠ [] :=
  Nat.toDigits_ne_nil

theorem decimalInt_ne_nil (n : Int) : decimalInt n ≠ [] := by
  cases n with
  | ofNat n => exact decimal_ne_nil n
  | negSucc n => simp [decimalInt]

namespace Shortest

theorem place_ne_nil {ds : Text} (h : ds ≠ []) (p : Int) : place ds p ≠ [] := by
  obtain ⟨c, cs, rfl⟩ := List.exists_cons_of_ne_nil h
  unfold place
  dsimp only
  split
  · split
    · simp
    · split <;> simp
  · cases cs <;> simp

theorem floatText_ne_nil (x : Float) : floatText x ≠ [] := by
  have signed (negative : Bool) {body : Text} (h : body ≠ []) :
      (if negative then '-' :: body else body) ≠ [] := by
    cases negative <;> simp [h]
  unfold floatText
  split
  · decide
  · split <;> decide
  · apply signed
    split
    · decide
    · exact place_ne_nil (decimal_ne_nil _) _

end Shortest

namespace Json

theorem inspect_ne_nil (j : Json) : j.inspect ≠ [] := by
  cases j with
  | null => decide
  | bool b => cases b <;> decide
  | int n => exact decimalInt_ne_nil n
  | float x => exact Shortest.floatText_ne_nil x
  | str s => simp [inspect, inspectText]
  | arr xs => simp [inspect]
  | obj fs => simp [inspect]

theorem display_ne_nil {j : Json} (h : j.isTruthy = true) : j.display ≠ [] := by
  cases j with
  | str s => simpa [isTruthy, display] using h
  | null | bool _ | int _ | float _ | arr _ | obj _ => exact inspect_ne_nil _

end Json

end Drawbridge
