import HubContract.Number.Binary64
import HubContract.Proofs.Text.Numeral
import Mathlib.Tactic.SplitIfs

namespace HubContract.Number

variable {num den t : Nat}

theorem roundedQuotient_mul_right (positive : 0 < t) :
    roundedQuotient (num * t) (den * t) = roundedQuotient num den := by
  have remainder : 2 * (num * t % (den * t)) = 2 * (num % den) * t := by
    rw [Nat.mul_mod_mul_right, Nat.mul_assoc]
  simp only [roundedQuotient, Nat.mul_div_mul_right _ _ positive, remainder,
    Nat.mul_lt_mul_right positive]

theorem roundedQuotient_mul_self (positive : 0 < den) : roundedQuotient (num * den) den = num := by
  rw [roundedQuotient, Nat.mul_mod_left, Nat.mul_div_cancel _ positive]
  exact if_pos positive

namespace Magnitude

theorem ofUnits?_mul_right (positive : 0 < t) : ofUnits? (num * t) (den * t) = ofUnits? num den := by
  have rounded (shift : Nat) : roundedQuotient (num * t) (den * t * Nat.pow 2 shift) =
      roundedQuotient num (den * Nat.pow 2 shift) := by
    rw [Nat.mul_right_comm, roundedQuotient_mul_right positive]
  simp only [ofUnits?, Nat.mul_div_mul_right _ _ positive, rounded]

theorem ofParts?_self (m : Magnitude) : ofParts? m.mantissa m.shift = some m := dif_pos m.canonical

theorem shiftFor_units (m : Magnitude) : shiftFor m.units = m.shift := by
  obtain ⟨below, normal, -⟩ := m.canonical
  simp only [Nat.pow_eq] at below normal
  rw [shiftFor, units, Nat.pow_eq, Nat.pow_eq]
  rcases Nat.eq_zero_or_pos m.shift with zero | positive
  · rw [zero, Nat.pow_zero, Nat.mul_one, if_pos below]
  · have large : 2 ^ 52 ≤ m.mantissa := normal.resolve_left (by omega)
    have two : 2 ^ 1 ≤ 2 ^ m.shift := Nat.pow_le_pow_right (by decide) positive
    have noFit : ¬ m.mantissa * 2 ^ m.shift < 2 ^ 53 := by
      have product := Nat.mul_le_mul large two
      omega
    -- The leading bit of the mantissa is the one of weight 2^52.
    have log : (m.mantissa * 2 ^ m.shift).log2 = 52 + m.shift := by
      refine (Nat.log2_eq_iff (by omega)).mpr ⟨?_, ?_⟩
      · rw [Nat.pow_add]
        exact Nat.mul_le_mul_right _ large
      · rw [show 52 + m.shift + 1 = 53 + m.shift by omega, Nat.pow_add]
        exact Nat.mul_lt_mul_of_pos_right below (Nat.two_pow_pos m.shift)
    rw [if_neg noFit, log]
    omega

-- A value is the one nearest to its own units.
theorem ofUnits?_units (m : Magnitude) : ofUnits? m.units 1 = some m := by
  have below : m.mantissa ≠ Nat.pow 2 53 := Nat.ne_of_lt m.canonical.1
  have exact : roundedQuotient m.units (1 * Nat.pow 2 m.shift) = m.mantissa := by
    rw [Nat.one_mul, units, Nat.pow_eq, roundedQuotient_mul_self (Nat.two_pow_pos m.shift)]
  rw [ofUnits?, Nat.div_one, shiftFor_units, exact, carried, if_neg below]
  exact ofParts?_self m

end Magnitude

namespace Binary64

variable {negative : Bool} {m : Magnitude} {c : Nat} {e : Int}

theorem ofRatio_mul_right (positive : 0 < t) :
    ofRatio negative (num * t) (den * t) = ofRatio negative num den := by
  rw [ofRatio, ofRatio, Nat.mul_right_comm, Magnitude.ofUnits?_mul_right positive]

theorem ofRatio_units (m : Magnitude) {k : Nat} (places : k = 1074) :
    ofRatio negative (m.units * Nat.pow 5 k) (Nat.pow 10 k) = .finite negative m := by
  have scaled : m.units * Nat.pow 5 k * Nat.pow 2 k = m.units * Nat.pow 10 k := by
    rw [Nat.mul_assoc, Nat.pow_eq, Nat.pow_eq, Nat.pow_eq, ← Nat.mul_pow]
  have unscaled : Magnitude.ofUnits? (m.units * Nat.pow 10 k) (1 * Nat.pow 10 k) = some m := by
    have positive : 0 < Nat.pow 10 k := Nat.pow_pos (by decide)
    rw [Magnitude.ofUnits?_mul_right positive, Magnitude.ofUnits?_units]
  rw [Nat.one_mul] at unscaled
  rw [ofRatio, ← places, scaled, unscaled, ofMagnitude]

theorem ofMagnitude_eq_finite {o : Option Magnitude} :
    ofMagnitude negative o = .finite negative m ↔ o = some m := by
  cases o with
  | none =>
    constructor
    · intro h
      cases h
    · intro h
      cases h
  | some m' => rw [ofMagnitude, finite.injEq, Option.some.injEq, eq_self, true_and]

theorem ofRatio_finite (read : ofRatio false num den = .finite false m) :
    ofRatio negative num den = .finite negative m :=
  ofMagnitude_eq_finite.mpr (ofMagnitude_eq_finite.mp read)

-- The sign of a decimal is only carried along.
theorem ofDecimal_finite (read : ofDecimal false c e = .finite false m) :
    ofDecimal negative c e = .finite negative m := by
  rw [ofDecimal] at read ⊢
  split at read
  next low =>
    cases read
    rw [if_pos low]
  next inside =>
  rw [if_neg inside]
  split at read
  next => cases read
  next reach =>
  rw [if_neg reach]
  split at read
  next fraction =>
    rw [if_pos fraction]
    exact ofRatio_finite read
  next whole =>
    rw [if_neg whole]
    exact ofRatio_finite read

end Binary64

end HubContract.Number

namespace HubContract.Text

theorem digits_mul_ten {n : Nat} (positive : 0 < n) : digits (n * 10) = digits n ++ ['0'] := by
  have split := Nat.toDigits_append_toDigits (b := 10) (n := n) (d := 0) (by decide) positive
    (by decide)
  rw [digits, Nat.mul_comm]
  exact split.symm

theorem digits_mul_pow {n : Nat} (positive : 0 < n) (k : Nat) :
    digits (n * 10 ^ k) = digits n ++ List.replicate k '0' := by
  induction k with
  | zero => rw [Nat.pow_zero, Nat.mul_one, List.replicate_zero, List.append_nil]
  | succ k ih =>
    have more : 0 < n * 10 ^ k := Nat.mul_pos positive (Nat.pow_pos (by decide))
    rw [Nat.pow_succ, ← Nat.mul_assoc, digits_mul_ten more, ih, List.append_assoc,
      List.replicate_succ']

end HubContract.Text

namespace HubContract.Number.Binary64

open HubContract.Text

variable {negative : Bool}

-- Zeros at the end of the coefficient may as well be counted in the exponent.
theorem ofDecimal_mul_pow (c k : Nat) (e : Int) :
    ofDecimal negative (c * 10 ^ k) e = ofDecimal negative c (e + k) := by
  rcases Nat.eq_zero_or_pos c with rfl | positive
  · rw [Nat.zero_mul, ofDecimal, ofDecimal, if_pos (.inl rfl), if_pos (.inl rfl)]
  have more : 0 < c * 10 ^ k := Nat.mul_pos positive (Nat.pow_pos (by decide))
  have places : ((Nat.toDigits 10 (c * 10 ^ k)).length : Int) = (Nat.toDigits 10 c).length + k := by
    have written := congrArg List.length (digits_mul_pow positive k)
    rw [List.length_append, List.length_replicate, digits, digits] at written
    omega
  have lead : e + ((Nat.toDigits 10 c).length + k) = e + k + (Nat.toDigits 10 c).length := by omega
  simp only [ofDecimal, places, lead, Nat.pos_iff_ne_zero.mp positive, Nat.pos_iff_ne_zero.mp more,
    Nat.pow_eq, false_or]
  split_ifs with low high fraction whole
  · rfl
  · rfl
  · have scale : e.natAbs = (e + k).natAbs + k := by omega
    rw [scale, Nat.pow_add, ofRatio_mul_right (Nat.pow_pos (by decide))]
  · have scale : k = (e + k).natAbs + e.natAbs := by omega
    have scaled : ofRatio negative (c * 10 ^ (e + k).natAbs * 10 ^ e.natAbs) (1 * 10 ^ e.natAbs) =
        ofRatio negative (c * 10 ^ (e + k).natAbs) 1 := ofRatio_mul_right (Nat.pow_pos (by decide))
    rw [← scaled, Nat.mul_assoc, ← Nat.pow_add, ← scale, Nat.one_mul]
  · omega
  · have scale : (e + k).natAbs = k + e.natAbs := by omega
    rw [scale, Nat.pow_add, Nat.mul_assoc]

end HubContract.Number.Binary64
