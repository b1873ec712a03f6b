import HubContract.Number.Layout
import HubContract.Proofs.Number.Rounding
import Mathlib.Tactic.ByContra

namespace HubContract.Number

open HubContract.Text Binary64

namespace Magnitude

variable {m : Magnitude}

theorem eq_zero_of_mantissa (zero : m.mantissa = 0) : m = .zero := by
  obtain ⟨mantissa, shift, canonical⟩ := m
  obtain rfl : mantissa = 0 := zero
  have noShift : shift = 0 := canonical.2.1.resolve_right (by decide)
  subst noShift
  rfl

theorem units_pos (positive : m.mantissa ≠ 0) : 0 < m.units :=
  Nat.mul_pos (Nat.pos_of_ne_zero positive) (Nat.two_pow_pos m.shift)

theorem units_lt (m : Magnitude) : m.units < Nat.pow 2 53 * Nat.pow 2 2045 := by
  obtain ⟨below, -, reach⟩ := m.canonical
  -- The name keeps the power from being computed.
  obtain ⟨top, name⟩ : ∃ n, n = 2045 := ⟨_, rfl⟩
  rw [← name] at reach ⊢
  have power : Nat.pow 2 m.shift ≤ Nat.pow 2 top := Nat.pow_le_pow_right (by decide) reach
  calc
    m.units < Nat.pow 2 53 * Nat.pow 2 m.shift :=
      Nat.mul_lt_mul_of_pos_right below (Nat.two_pow_pos m.shift)
    _ ≤ Nat.pow 2 53 * Nat.pow 2 top := Nat.mul_le_mul_left _ power

-- The expansion is long, but neither too small nor too large to be read.
theorem length_digits_expansion (positive : m.mantissa ≠ 0) :
    744 ≤ (digits m.expansion.coefficient).length ∧
      (digits m.expansion.coefficient).length ≤ 1384 := by
  have low : 10 ^ 743 ≤ m.expansion.coefficient :=
    calc
      10 ^ 743 ≤ Nat.pow 5 1074 := by decide +kernel
      _ ≤ m.units * Nat.pow 5 1074 := Nat.le_mul_of_pos_left _ (units_pos positive)
  have high : m.expansion.coefficient < 10 ^ 1384 :=
    calc
      m.units * Nat.pow 5 1074 < Nat.pow 2 53 * Nat.pow 2 2045 * Nat.pow 5 1074 :=
        Nat.mul_lt_mul_of_pos_right (units_lt m) (by decide +kernel)
      _ ≤ 10 ^ 1384 := by decide +kernel
  constructor
  · by_contra short
    have fits := (length_digits_le_iff (by decide)).mp (Nat.le_of_lt_succ (Nat.not_le.mp short))
    exact Nat.not_lt.mpr low fits
  · exact (length_digits_le_iff (by decide)).mpr high

theorem ofDecimal_expansion (positive : m.mantissa ≠ 0) :
    ofDecimal false m.expansion.coefficient m.expansion.exponent = .finite false m := by
  obtain ⟨low, high⟩ := length_digits_expansion positive
  have nonzero : m.expansion.coefficient ≠ 0 := by
    intro zero
    rw [zero] at low
    exact absurd low (by decide)
  have exponent : m.expansion.exponent = -1074 := rfl
  have places : (-1074 : Int).natAbs = 1074 := rfl
  rw [digits] at low high
  rw [exponent, ofDecimal, if_neg (by omega), if_neg (by omega), if_pos (by decide), places]
  exact ofRatio_units m rfl

theorem readsAs_shortest (m : Magnitude) : m.shortest.readsAs m = true := by
  rw [shortest]
  split
  next zero =>
    rw [eq_zero_of_mantissa zero]
    rfl
  next positive =>
    have full : m.expansion.readsAs m = true := decide_eq_true (ofDecimal_expansion positive)
    simp only
    cases found : (List.range 17).findSome? fun extra : Nat =>
        (neighbours m.units (leadingExponent m.units - extra)).find? (Decimal.readsAs m) with
    | none => exact full
    | some d =>
      obtain ⟨extra, -, near⟩ := List.exists_of_findSome?_eq_some found
      exact List.find?_some near

end Magnitude

namespace Layout

theorem stripZeros_eq (fuel n : Nat) : (stripZeros fuel n).1 * 10 ^ (stripZeros fuel n).2 = n := by
  induction fuel generalizing n with
  | zero => rw [stripZeros, Nat.pow_zero, Nat.mul_one]
  | succ fuel ih =>
    rw [stripZeros]
    split
    next divides =>
      have tenth := ih (n / 10)
      rw [Nat.pow_succ, ← Nat.mul_assoc, tenth]
      omega
    next => rw [Nat.pow_zero, Nat.mul_one]

-- What is shown of a magnitude: digits and a point, which together denote it.
theorem exists_place (l : Layout) (m : Magnitude) :
    ∃ c point, l.magnitude m = l.place (digits c) point ∧ (c = 0 → point = 1) ∧
      ∀ negative, ofDecimal negative c (point - (digits c).length) = .finite negative m := by
  have reads : ofDecimal false m.shortest.coefficient m.shortest.exponent = .finite false m :=
    of_decide_eq_true (Magnitude.readsAs_shortest m)
  obtain ⟨c, zeros, stripped⟩ : ∃ c zeros,
      stripZeros (digits m.shortest.coefficient).length m.shortest.coefficient = (c, zeros) :=
    ⟨_, _, rfl⟩
  have value := stripZeros_eq (digits m.shortest.coefficient).length m.shortest.coefficient
  rw [stripped] at value
  rw [← value, ofDecimal_mul_pow] at reads
  refine ⟨c, _, by rw [magnitude, stripped], fun zero => if_pos zero, fun negative => ?_⟩
  apply ofDecimal_finite
  rw [← reads]
  split
  next zero => rw [zero, ofDecimal, ofDecimal, if_pos (.inl rfl), if_pos (.inl rfl)]
  next => rw [Int.add_sub_cancel]

end Layout

end HubContract.Number
