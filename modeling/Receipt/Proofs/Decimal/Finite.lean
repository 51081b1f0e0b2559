/-
Doubles that are infinite or not numbers stay so.

A product or a quotient is finite only if its left operand is.  Both are read off the
parts of a double: a sign and a size, zero, infinite, or not a number at all.
-/
namespace Receipt.Decimal

open Float.Model (UnpackedFloat pack)

/-! ### Parts of a double -/

theorem isFinite_pack {u : UnpackedFloat} (h : u.isFinite = false) :
    (pack u).unpack.isFinite = false := by
  cases u with
  | infinity s => cases s <;> rfl
  | notANumber => rfl
  | zero s => exact Bool.noConfusion h
  | finite s m e hm => exact Bool.noConfusion h

theorem isFinite_mul {u : UnpackedFloat} (h : u.isFinite = false) (v : UnpackedFloat) :
    (UnpackedFloat.mul .binary64 u v).isFinite = false := by
  cases u with
  | infinity s => cases v <;> rfl
  | notANumber => rfl
  | zero s => exact Bool.noConfusion h
  | finite s m e hm => exact Bool.noConfusion h

theorem isFinite_div {u : UnpackedFloat} (h : u.isFinite = false) (v : UnpackedFloat) :
    (UnpackedFloat.div .binary64 u v).isFinite = false := by
  cases u with
  | infinity s => cases v <;> rfl
  | notANumber => rfl
  | zero s => exact Bool.noConfusion h
  | finite s m e hm => exact Bool.noConfusion h

/-! ### Doubles -/

theorem isFinite_left_of_mul {x y : Float} (h : (x * y).isFinite = true) : x.isFinite = true := by
  cases hx : x.isFinite with
  | true => rfl
  | false =>
      have hnot : (x * y).isFinite = false := isFinite_pack (isFinite_mul hx _)
      rw [hnot] at h
      exact h

theorem isFinite_left_of_div {x y : Float} (h : (x / y).isFinite = true) : x.isFinite = true := by
  cases hx : x.isFinite with
  | true => rfl
  | false =>
      have hnot : (x / y).isFinite = false := isFinite_pack (isFinite_div hx _)
      rw [hnot] at h
      exact h

/-- A finite double that is not at most zero is positive. -/
theorem pos_of_not_le {x : Float} (hfinite : x.isFinite = true) (h : ¬x ≤ 0.0) : 0.0 < x := by
  have hle : x ≤ 0.0 ↔ x.toModel.unpack.le (.zero .positive) = true := decide_eq_true_iff
  have hlt : 0.0 < x ↔ UnpackedFloat.lt (.zero .positive) x.toModel.unpack = true :=
    decide_eq_true_iff
  have hparts : x.toModel.unpack.isFinite = true := hfinite
  rw [hle] at h
  rw [hlt]
  cases hx : x.toModel.unpack with
  | infinity s =>
      rw [hx] at hparts
      exact Bool.noConfusion hparts
  | notANumber =>
      rw [hx] at hparts
      exact Bool.noConfusion hparts
  | zero s =>
      rw [hx] at h
      exact absurd rfl h
  | finite s m e hm =>
      rw [hx] at h
      cases s with
      | positive => rfl
      | negative => exact absurd rfl h

end Receipt.Decimal
