import HubContract.Options
import HubContract.Proofs.Document.Canonical
import HubContract.Proofs.Document.Discovery

namespace HubContract

open HubContract.Data HubContract.Number

namespace Check

theorem bind_eq_ok_iff {x : Check α} {f : α → Check β} :
    x.bind f = .ok b ↔ ∃ a, x = .ok a ∧ f a = .ok b := by
  cases x <;> simp [bind]

-- What is read from each value of a list has what any of them has.
theorem forall_of_each {f : α → Check β} {P : β → Prop} (value : ∀ x y, f x = .ok y → P y) {n : Nat}
    {xs : List α} {ys : List β} (read : each f n xs = .ok ys) : ∀ y ∈ ys, P y := by
  induction xs generalizing n ys with
  | nil =>
    obtain rfl := Check.ok.inj read
    exact fun _ mem => absurd mem List.not_mem_nil
  | cons x xs ih =>
    have read : List.cons <$> (f x).under (.index n) <*> each f (n + 1) xs = .ok ys := read
    obtain ⟨g, rest, consed, others, rfl⟩ := seq_eq_ok_iff.mp read
    obtain ⟨y, first, rfl⟩ := map_eq_ok_iff.mp consed
    exact List.forall_mem_cons.mpr ⟨value x y (under_eq_ok_iff.mp first), ih others⟩

end Check

namespace Data

variable {f : Data → Check α} {d : Data} {name : String} {a absent : α} {P : α → Prop}

theorem exists_of_checkRecord (read : checkRecord f d = .ok a) : ∃ es, f (.mapping es) = .ok a := by
  unfold checkRecord at read
  split at read
  · exact ⟨_, read⟩
  · cases read

theorem forall_of_checkList (value : ∀ d a, f d = .ok a → P a) {as : List α}
    (read : checkList f d = .ok as) : ∀ a ∈ as, P a := by
  unfold checkList at read
  split at read
  case h_4 => cases read
  all_goals exact Check.forall_of_each value read

theorem of_fieldOr (value : ∀ d a, f d = .ok a → P a) (default : P absent)
    (read : d.fieldOr name absent f = .ok a) : P a := by
  unfold fieldOr at read
  split at read
  · exact value _ a (Check.under_eq_ok_iff.mp read)
  · exact Check.ok.inj read ▸ default

theorem of_field (value : ∀ d a, f d = .ok a → P a) (read : d.field name f = .ok a) : P a := by
  unfold field at read
  split at read
  · exact value _ a (Check.under_eq_ok_iff.mp read)
  · cases read

end Data

variable {number : Data → Check Binary64} {d : Data}

namespace BackoffTier

-- The delay is a number from zero on, which may be infinite.
def IsAdmitted (t : BackoffTier) : Prop := t.delay ≠ .nan ∧ t.delay.isNegative = false

theorem isAdmitted_ofNat (attempts n : Nat) : IsAdmitted ⟨attempts, .ofNat n⟩ := by
  unfold IsAdmitted Binary64.ofNat Binary64.ofRatio
  cases Magnitude.ofUnits? (n * Nat.pow 2 1074) 1 with
  | none => exact ⟨nofun, rfl⟩
  | some m => exact ⟨nofun, rfl⟩

theorem isAdmitted_of_checkWith {t : BackoffTier} (read : checkWith number d = .ok t) :
    t.IsAdmitted := by
  obtain ⟨es, read⟩ := exists_of_checkRecord read
  obtain ⟨g, delay, named, field, rfl⟩ := Check.seq_eq_ok_iff.mp read
  obtain ⟨attempts, -, rfl⟩ := Check.map_eq_ok_iff.mp named
  refine of_field (P := fun delay => IsAdmitted ⟨attempts, delay⟩) (fun d x checked => ?_) field
  obtain ⟨y, -, checked⟩ := Check.bind_eq_ok_iff.mp checked
  split at checked
  · cases checked
  · rename_i admitted
    obtain rfl := Check.ok.inj checked
    rw [not_or, Bool.not_eq_true] at admitted
    exact admitted

end BackoffTier

theorem ReconnectPolicy.isAdmitted_standard : ∀ t ∈ standard.tiers, t.IsAdmitted := by
  simp [standard, BackoffTier.isAdmitted_ofNat]

theorem ReconnectPolicy.isAdmitted_of_checkWith {p : ReconnectPolicy}
    (read : checkWith number d = .ok p) : ∀ t ∈ p.tiers, t.IsAdmitted := by
  obtain ⟨es, read⟩ := exists_of_checkRecord read
  obtain ⟨tiers, field, rfl⟩ := Check.map_eq_ok_iff.mp read
  exact of_fieldOr (P := fun tiers => ∀ t ∈ tiers, t.IsAdmitted)
    (fun _ _ => forall_of_checkList fun _ _ => BackoffTier.isAdmitted_of_checkWith)
    isAdmitted_standard field

namespace Options

variable {o : Options}

-- Options come out of the check of a record, whatever form they were given in.
theorem exists_check_of_ofData (read : ofData d = .ok o) : ∃ es, check (.mapping es) = .ok o := by
  unfold ofData at read
  dsimp only at read
  split at read
  all_goals
    obtain ⟨entries, -, read⟩ := Document.bind_eq_ok_iff.mp read
    obtain ⟨es, -, read⟩ := Document.bind_eq_ok_iff.mp read
    split at read
    next found => exact ⟨es, by rw [found, Except.ok.inj read]⟩
    next => cases read

-- Options that were read have no other tiers.
theorem isAdmitted_of_ofData (read : ofData d = .ok o) :
    ∀ t ∈ o.reconnectPolicy.tiers, t.IsAdmitted := by
  obtain ⟨entries, checked⟩ := exists_check_of_ofData read
  obtain ⟨es, checked⟩ := exists_of_checkRecord checked
  simp only [Check.seq_eq_ok_iff, Check.map_eq_ok_iff] at checked
  -- the policy is the first of seven fields
  obtain ⟨_, _, ⟨_, _, ⟨_, _, ⟨_, _, ⟨_, _, ⟨_, _, ⟨policy, field, rfl⟩, -, rfl⟩, -, rfl⟩, -, rfl⟩, -, rfl⟩,
    -, rfl⟩, -, rfl⟩ := checked
  exact of_fieldOr (P := fun p => ∀ t ∈ p.tiers, t.IsAdmitted)
    (fun _ _ => ReconnectPolicy.isAdmitted_of_checkWith) ReconnectPolicy.isAdmitted_standard field

end Options

end HubContract
