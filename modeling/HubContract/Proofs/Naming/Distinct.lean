import HubContract.Naming
import Mathlib.Data.List.Nodup
import Mathlib.Data.List.Perm.Subperm

namespace HubContract.Naming

open HubContract.Text

theorem natural_injective : Function.Injective natural := by
  intro m n same
  have digits : Nat.toDigits 10 m = Nat.toDigits 10 n := by
    simpa [natural, Text.digits] using congrArg String.toList same
  have number := congrArg (fun ds => Nat.ofDigitChars 10 ds 0) digits
  simpa using number

theorem suffixed_injective (name : String) : Function.Injective (suffixed name) := by
  intro m n same
  have tails : (name ++ "_").toList ++ (natural m).toList = (name ++ "_").toList ++ (natural n).toList := by
    simpa [suffixed] using congrArg String.toList same
  exact natural_injective (String.toList_inj.mp (List.append_cancel_left tails))

-- Where the search ends on a name that is taken, it has met as many taken names as it could.
theorem mem_of_freeSuffix {taken : List String} {name : String} {fuel k : Nat}
    (ends : suffixed name (freeSuffix taken name fuel k) ∈ taken) :
    ∀ i < fuel, suffixed name (k + i) ∈ taken := by
  induction fuel generalizing k with
  | zero => simp
  | succ fuel ih =>
    rw [freeSuffix] at ends
    by_cases here : suffixed name k ∈ taken
    · rw [if_pos (List.contains_iff_mem.mpr here)] at ends
      intro i hi
      cases i with
      | zero => exact here
      | succ i =>
        have later := ih ends i (by omega)
        rwa [Nat.add_right_comm, Nat.add_assoc] at later
    · rw [if_neg (by simpa using here)] at ends
      exact absurd ends here

theorem freeSuffix_not_mem (taken : List String) (name : String) (k : Nat) :
    suffixed name (freeSuffix taken name (taken.length + 1) k) ∉ taken := by
  intro ends
  have all := mem_of_freeSuffix ends
  -- one candidate more than there are names taken
  have distinct : ((List.range (taken.length + 1)).map fun i => suffixed name (k + i)).Nodup :=
    List.nodup_range.map fun i j same => Nat.add_left_cancel (suffixed_injective name same)
  have inside : ((List.range (taken.length + 1)).map fun i => suffixed name (k + i)) ⊆ taken := by
    intro s hs
    obtain ⟨i, hi, rfl⟩ := List.mem_map.mp hs
    exact all i (List.mem_range.mp hi)
  have fits := (List.subperm_of_subset distinct inside).length_le
  rw [List.length_map, List.length_range] at fits
  omega

namespace Namer

theorem give_not_mem (n : Namer) (name : String) : (n.give name).1 ∉ n.taken := by
  unfold give
  by_cases here : name ∈ n.taken
  · rw [if_pos (List.contains_iff_mem.mpr here)]
    exact freeSuffix_not_mem n.taken name _
  · rw [if_neg (by simpa using here)]
    exact here

theorem taken_give (n : Namer) (name : String) :
    (n.give name).2.taken = (n.give name).1 :: n.taken := by
  unfold give
  split <;> rfl

@[simp] theorem length_giveAll (n : Namer) (names : List String) :
    (n.giveAll names).length = names.length := by
  induction names generalizing n with
  | nil => rfl
  | cons name names ih => simp [giveAll, ih]

theorem nodup_giveAll (n : Namer) (names : List String) :
    (n.giveAll names).Nodup ∧ ∀ s ∈ n.giveAll names, s ∉ n.taken := by
  induction names generalizing n with
  | nil => exact ⟨List.nodup_nil, fun s none => (nomatch none)⟩
  | cons name names ih =>
    obtain ⟨distinct, new⟩ := ih (n.give name).2
    rw [taken_give] at new
    refine ⟨List.nodup_cons.mpr ⟨fun again => ?_, distinct⟩, fun s inside => ?_⟩
    · exact new _ again List.mem_cons_self
    · obtain rfl | later := List.mem_cons.mp inside
      · exact give_not_mem n name
      · exact fun before => new s later (List.mem_cons_of_mem _ before)

end Namer

theorem nodup_uniqueNames (names : List String) : (uniqueNames names).Nodup :=
  (Namer.nodup_giveAll {} names).1

@[simp] theorem length_uniqueNames (names : List String) :
    (uniqueNames names).length = names.length := Namer.length_giveAll {} names

theorem nodup_uniqueBases (names : List String) : (uniqueBases names).Nodup := nodup_uniqueNames _

@[simp] theorem length_uniqueBases (names : List String) :
    (uniqueBases names).length = names.length := by
  simp [uniqueBases]

-- Slots, thunks and wrappers of one base give it away, so that distinct bases have distinct names.

theorem slotName_injective : Function.Injective slotName := by
  intro a b same
  have tails : "on_".toList ++ a.toList = "on_".toList ++ b.toList := by
    simpa [slotName] using congrArg String.toList same
  exact String.toList_inj.mp (List.append_cancel_left tails)

theorem invokeName_injective : Function.Injective invokeName := by
  intro a b same
  have tails : "invoke_".toList ++ a.toList = "invoke_".toList ++ b.toList := by
    simpa [invokeName] using congrArg String.toList same
  exact String.toList_inj.mp (List.append_cancel_left tails)

theorem thunkName_injective : Function.Injective thunkName := by
  intro a b same
  have tails : "_".toList ++ (a.toList ++ "_handler".toList) =
      "_".toList ++ (b.toList ++ "_handler".toList) := by
    simpa [thunkName] using congrArg String.toList same
  exact String.toList_inj.mp (List.append_cancel_right (List.append_cancel_left tails))

-- How a name looks from outside: its first and its last character. By that members are told apart from
-- one another, and from everything else that classes have.
def ends (name : String) : Option Char × Option Char := (name.toList.head?, name.toList.getLast?)

theorem ends_slotName (base : String) : (ends (slotName base)).1 = some 'o' := by
  simp [ends, slotName]

theorem ends_invokeName (base : String) : (ends (invokeName base)).1 = some 'i' := by
  simp [ends, invokeName]

theorem ends_thunkName (base : String) : ends (thunkName base) = (some '_', some 'r') := by
  simp [ends, thunkName, List.getLast?_cons, List.getLast?_append]

theorem slotName_ne_invokeName (a b : String) : slotName a ≠ invokeName b := by
  intro same
  have first := ends_slotName a
  rw [same, ends_invokeName] at first
  nomatch first

theorem slotName_ne_thunkName (a b : String) : slotName a ≠ thunkName b := by
  intro same
  have first := ends_slotName a
  rw [same, ends_thunkName] at first
  nomatch first

theorem invokeName_ne_thunkName (a b : String) : invokeName a ≠ thunkName b := by
  intro same
  have first := ends_invokeName a
  rw [same, ends_thunkName] at first
  nomatch first

-- Whether a name looks like one of a member.
def isOfMember (name : String) : Bool :=
  match ends name with
  | (some 'o', _) | (some 'i', _) | (some '_', some 'r') => true
  | _ => false

theorem isOfMember_slotName (base : String) : isOfMember (slotName base) := by
  have first := ends_slotName base
  unfold isOfMember
  generalize ends (slotName base) = looks at first
  obtain ⟨first, last⟩ := looks
  subst first
  rfl

theorem isOfMember_invokeName (base : String) : isOfMember (invokeName base) := by
  have first := ends_invokeName base
  unfold isOfMember
  generalize ends (invokeName base) = looks at first
  obtain ⟨first, last⟩ := looks
  subst first
  rfl

theorem isOfMember_thunkName (base : String) : isOfMember (thunkName base) := by
  rw [isOfMember, ends_thunkName]
  rfl

end HubContract.Naming
