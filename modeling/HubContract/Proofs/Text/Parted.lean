import Mathlib.Data.List.Basic

namespace HubContract.Text

variable {c : Char} {a a' b b' : String}

theorem parted_list_inj {xs xs' ys ys' : List Char} (unmet : c ∉ xs) (unmet' : c ∉ xs')
    (same : xs ++ c :: ys = xs' ++ c :: ys') : xs = xs' ∧ ys = ys' := by
  have first {xs ys : List Char} (unmet : c ∉ xs) : (xs ++ c :: ys).takeWhile (· ≠ c) = xs := by
    have each : ∀ x ∈ xs, decide (x ≠ c) = true := fun x inside =>
      decide_eq_true fun same => unmet (same ▸ inside)
    rw [List.takeWhile_append_of_pos each, List.takeWhile_cons_of_neg (by simp), List.append_nil]
  have heads : xs = xs' := by rw [← first unmet, same, first unmet']
  rw [heads] at same
  exact ⟨heads, (List.cons.inj (List.append_cancel_left same)).2⟩

-- The first such character is the one between the parts.
theorem parted_inj (unmet : c ∉ a.toList) (unmet' : c ∉ a'.toList)
    (same : a ++ String.singleton c ++ b = a' ++ String.singleton c ++ b') : a = a' ∧ b = b' := by
  have parts : a.toList ++ c :: b.toList = a'.toList ++ c :: b'.toList := by
    simpa using congrArg String.toList same
  obtain ⟨heads, tails⟩ := parted_list_inj unmet unmet' parts
  exact ⟨String.toList_inj.mp heads, String.toList_inj.mp tails⟩

-- The last one is, seen from behind.
theorem parted_inj_right (unmet : c ∉ b.toList) (unmet' : c ∉ b'.toList)
    (same : a ++ String.singleton c ++ b = a' ++ String.singleton c ++ b') : a = a' ∧ b = b' := by
  have parts : b.toList.reverse ++ c :: a.toList.reverse = b'.toList.reverse ++ c :: a'.toList.reverse := by
    simpa using congrArg List.reverse (congrArg String.toList same)
  obtain ⟨tails, heads⟩ := parted_list_inj (mt List.mem_reverse.mp unmet) (mt List.mem_reverse.mp unmet') parts
  exact ⟨String.toList_inj.mp (List.reverse_injective heads),
    String.toList_inj.mp (List.reverse_injective tails)⟩

end HubContract.Text
