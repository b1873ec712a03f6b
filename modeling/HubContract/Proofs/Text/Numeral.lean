import HubContract.Text.Numeral
import Mathlib.Algebra.Group.Nat.Defs

namespace HubContract.Text

variable {c : Char}

theorem exists_digitChar_of_mem_hex {width n : Nat} (mem : c ∈ hex width n) :
    ∃ d < 16, c = Nat.digitChar d := by
  induction width generalizing n with
  | zero => cases mem
  | succ width ih =>
    rcases List.mem_append.mp mem with mem | mem
    · exact ih mem
    · exact ⟨n % 16, Nat.mod_lt n (by decide), List.mem_singleton.mp mem⟩

theorem hexValue?_digitChar : ∀ d < 16, hexValue? (Nat.digitChar d) = some d := by decide

theorem ofHex?_concat (xs : List Char) (c : Char) :
    ofHex? (xs ++ [c]) = do return 16 * (← ofHex? xs) + (← hexValue? c) := by
  rw [ofHex?, List.foldl_append]
  rfl

-- Digits that do not fit into the width are lost, and only those.
theorem ofHex?_hex (width n : Nat) : ofHex? (hex width n) = some (n % 16 ^ width) := by
  induction width generalizing n with
  | zero => rw [Nat.pow_zero, Nat.mod_one]; rfl
  | succ width ih =>
    have last : hexValue? (hexDigit n) = some (n % 16) :=
      hexValue?_digitChar _ (Nat.mod_lt n (by decide))
    rw [hex, ofHex?_concat, ih, last, Nat.pow_succ', Nat.mod_mul]
    exact congrArg some (Nat.add_comm ..)

theorem ofHex?_hex_of_lt {width n : Nat} (small : n < 16 ^ width) :
    ofHex? (hex width n) = some n := by
  rw [ofHex?_hex, Nat.mod_eq_of_lt small]

theorem isDigit_eq (c : Char) : isDigit c = c.isDigit := by
  rw [isDigit, Char.isDigit, Bool.decide_and]
  rfl

theorem isDigit_zero : isDigit '0' = true := by decide

theorem isDigit_of_mem_digits {n : Nat} (mem : c ∈ digits n) : isDigit c = true := by
  rw [isDigit_eq]
  exact Nat.isDigit_of_mem_toDigits (by decide) (by decide) mem

theorem digits_ne_nil (n : Nat) : digits n ≠ [] :=
  List.ne_nil_of_length_pos Nat.length_toDigits_pos

theorem length_digits_le_iff {n k : Nat} (positive : 0 < k) :
    (digits n).length ≤ k ↔ n < 10 ^ k :=
  Nat.length_toDigits_le_iff (by decide) positive

theorem ofDigits_eq (cs : List Char) : ofDigits cs = Nat.ofDigitChars 10 cs 0 := by
  rw [Nat.ofDigitChars_eq_foldl]
  rfl

@[simp]
theorem ofDigits_digits (n : Nat) : ofDigits (digits n) = n := by
  rw [ofDigits_eq, digits, Nat.ofDigitChars_ten_toDigits]

theorem ofDigits_append (xs ys : List Char) :
    ofDigits (xs ++ ys) = 10 ^ ys.length * ofDigits xs + ofDigits ys := by
  rw [ofDigits_eq, ofDigits_eq, ofDigits_eq, Nat.ofDigitChars_append,
    Nat.ofDigitChars_eq_ofDigitChars_zero]

theorem ofDigits_replicate_zero (k : Nat) : ofDigits (List.replicate k '0') = 0 := by
  rw [ofDigits_eq, Nat.ofDigitChars_replicate_zero, Nat.mul_zero]

-- Zeros in front of the digits, and a number that is filled with them.

theorem isDigit_of_mem_replicate {k : Nat} (mem : c ∈ List.replicate k '0') : isDigit c = true := by
  rw [List.eq_of_mem_replicate mem]
  exact isDigit_zero

theorem isDigit_of_mem_filled {k n : Nat} (mem : c ∈ List.replicate k '0' ++ digits n) :
    isDigit c = true := by
  rcases List.mem_append.mp mem with mem | mem
  · exact isDigit_of_mem_replicate mem
  · exact isDigit_of_mem_digits mem

theorem isDigit_of_mem_padded {width n : Nat} (mem : c ∈ (padded width n).toList) :
    isDigit c = true := by
  rw [padded, String.toList_ofList] at mem
  exact isDigit_of_mem_filled mem

theorem padded_ne_nil (width n : Nat) : (padded width n).toList ≠ [] := by
  rw [padded, String.toList_ofList]
  exact List.append_ne_nil_of_right_ne_nil _ (digits_ne_nil n)

theorem ofDigits_padded (width n : Nat) : ofDigits (padded width n).toList = n := by
  rw [padded, String.toList_ofList, ofDigits_append, ofDigits_replicate_zero, ofDigits_digits,
    Nat.mul_zero, Nat.zero_add]

-- Only zero begins with the digit zero.
theorem head?_digits {n : Nat} (positive : n ≠ 0) : (digits n).head? ≠ some '0' := by
  induction n using Nat.strongRecOn with
  | ind n ih =>
    rcases Nat.lt_or_ge n 10 with small | large
    · rw [digits, Nat.toDigits_of_lt_base small]
      intro zero
      exact positive (Nat.digitChar_eq_zero.mp (Option.some.inj zero))
    · have shorter : n / 10 < n := by omega
      have rest : n / 10 ≠ 0 := by omega
      obtain ⟨d, ds, split⟩ := List.exists_cons_of_ne_nil (digits_ne_nil (n / 10))
      rw [digits, Nat.toDigits_of_base_le (by decide) large]
      have first := ih (n / 10) shorter rest
      rw [digits] at split first
      rw [split] at first ⊢
      exact first

end HubContract.Text
