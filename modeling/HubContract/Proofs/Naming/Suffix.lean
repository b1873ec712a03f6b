import HubContract.Binding.Registration
import HubContract.Proofs.Naming.Distinct
import Mathlib.Order.Bounds.Basic

namespace HubContract

namespace Naming

variable {taken earlier names out : List String} {name given other : String} {k m : Nat} {n n' : Namer}

-- How a suffix is looked for: past each one that is taken, up to the first that is not.
inductive Search (taken : List String) (name : String) : Nat → Nat → Prop where
  | found {k : Nat} (new : suffixed name k ∉ taken) : Search taken name k k
  | next {k m : Nat} (used : suffixed name k ∈ taken) (rest : Search taken name (k + 1) m) :
      Search taken name k m

theorem Search.isLeast (search : Search taken name k m) :
    IsLeast {j | k ≤ j ∧ suffixed name j ∉ taken} m := by
  induction search with
  | found new => exact ⟨⟨Nat.le_refl _, new⟩, fun j free => free.1⟩
  | @next k m used rest ih =>
    obtain ⟨⟨later, new⟩, least⟩ := ih
    refine ⟨⟨Nat.le_of_succ_le later, new⟩, fun j ⟨reached, free⟩ => least ⟨?_, free⟩⟩
    exact Nat.lt_of_le_of_ne reached fun same => free (same ▸ used)

theorem Search.le (search : Search taken name k m) : k ≤ m := search.isLeast.1.1

theorem Search.mem_of_lt {j : Nat} (search : Search taken name k m) (reached : k ≤ j) (before : j < m) :
    suffixed name j ∈ taken := by
  by_contra free
  exact Nat.not_le_of_lt before (search.isLeast.2 ⟨reached, free⟩)

theorem Search.of_freeSuffix {fuel : Nat} (new : suffixed name (freeSuffix taken name fuel k) ∉ taken) :
    Search taken name k (freeSuffix taken name fuel k) := by
  induction fuel generalizing k with
  | zero => exact .found new
  | succ fuel ih =>
    rw [freeSuffix] at new ⊢
    split at new
    case isTrue used =>
      rw [if_pos used]
      exact .next (by simpa using used) (ih new)
    case isFalse free =>
      rw [if_neg free]
      exact .found new

-- There is always an end to it, and the names that are taken bound how far it is.
theorem search_freeSuffix (taken : List String) (name : String) (k : Nat) :
    Search taken name k (freeSuffix taken name (taken.length + 1) k) :=
  .of_freeSuffix (freeSuffix_not_mem taken name k)

-- What is given for a name after others were given.
def IsNext (earlier : List String) (name given : String) : Prop :=
  if name ∈ earlier then
    ∃ k, IsLeast {k | 2 ≤ k ∧ suffixed name k ∉ earlier} k ∧ given = suffixed name k
  else given = name

theorem IsNext.unique (one : IsNext earlier name given) (two : IsNext earlier name other) :
    given = other := by
  unfold IsNext at one two
  split at one
  case isTrue used =>
    rw [if_pos used] at two
    obtain ⟨k, least, rfl⟩ := one
    obtain ⟨m, least', rfl⟩ := two
    rw [least.unique least']
  case isFalse new =>
    rw [if_neg new] at two
    exact one.trans two.symm

-- The order in which the others were given has no say in it.
theorem isNext_congr (same : ∀ s, s ∈ taken ↔ s ∈ earlier) :
    IsNext taken name given ↔ IsNext earlier name given := by
  simp only [IsNext, same]

-- Names that are given one after the other.
inductive GivenAfter : List String → List String → List String → Prop where
  | nil {earlier : List String} : GivenAfter earlier [] []
  | cons {earlier names out : List String} {name given : String} (next : IsNext earlier name given)
      (rest : GivenAfter (given :: earlier) names out) : GivenAfter earlier (name :: names) (given :: out)

namespace GivenAfter

theorem unique {out' : List String} (one : GivenAfter earlier names out)
    (two : GivenAfter earlier names out') : out = out' := by
  induction one generalizing out' with
  | nil =>
    cases two
    rfl
  | cons next rest ih =>
    cases two with
    | cons next' rest' =>
      obtain rfl := next.unique next'
      rw [ih rest']

theorem isNext_of_getElem? (row : GivenAfter earlier names out) {i : Nat} (asked : names[i]? = some name) :
    ∃ given, out[i]? = some given ∧ IsNext (out.take i ++ earlier) name given := by
  induction row generalizing i with
  | nil => cases asked
  | @cons earlier names out name' given next rest ih =>
    cases i with
    | zero =>
      obtain rfl : name' = name := Option.some.inj asked
      exact ⟨given, rfl, next⟩
    | succ i =>
      obtain ⟨later, here, next⟩ := ih asked
      refine ⟨later, here, (isNext_congr fun s => ?_).mp next⟩
      simp [or_left_comm]

end GivenAfter

namespace Namer

-- How a name is given: as it is, or with a suffix that is looked for behind the last one that was tried.
inductive Step (n : Namer) (name : String) : String → Namer → Prop where
  | plain (new : name ∉ n.taken) : Step n name name ⟨name :: n.taken, (name, n.count name) :: n.counts⟩
  | numbered {k : Nat} (used : name ∈ n.taken) (search : Search n.taken name (n.count name + 1) k) :
      Step n name (suffixed name k) ⟨suffixed name k :: n.taken, (name, k) :: n.counts⟩

theorem step_give (n : Namer) (name : String) : n.Step name (n.give name).1 (n.give name).2 := by
  unfold give
  split
  case isTrue used => exact .numbered (by simpa using used) (search_freeSuffix ..)
  case isFalse new => exact .plain (by simpa using new)

-- A list of names as it is gone through.
inductive Run : Namer → List String → List String → Prop where
  | nil {n : Namer} : Run n [] []
  | cons {n n' : Namer} {name given : String} {names out : List String} (step : n.Step name given n')
      (rest : Run n' names out) : Run n (name :: names) (given :: out)

theorem run_giveAll (n : Namer) (names : List String) : n.Run names (n.giveAll names) := by
  induction names generalizing n with
  | nil => exact .nil
  | cons name names ih => exact .cons (n.step_give name) (ih _)

-- All suffixes up to the last one that was tried are taken.
structure IsSpent (n : Namer) : Prop where
  begun : ∀ name, 1 ≤ n.count name
  passed : ∀ name k, 2 ≤ k → k ≤ n.count name → suffixed name k ∈ n.taken

theorem isSpent_empty : IsSpent {} where
  begun _ := Nat.le_refl 1
  passed _ _ two one := absurd one (Nat.not_le_of_lt two)

theorem count_cons (n : Namer) (given name other : String) (k : Nat) :
    count ⟨given :: n.taken, (name, k) :: n.counts⟩ other = if other = name then k else n.count other := by
  rw [count, List.lookup_cons]
  split
  case h_1 same => rw [if_pos (eq_of_beq same), Option.getD_some]
  case h_2 apart => rw [if_neg (ne_of_beq_false apart), count]

-- Only for the name itself there is something to show.
theorem IsSpent.cons (spent : n.IsSpent) (begun : 1 ≤ k)
    (passed : ∀ j, 2 ≤ j → j ≤ k → suffixed name j ∈ given :: n.taken) :
    IsSpent ⟨given :: n.taken, (name, k) :: n.counts⟩ where
  begun other := by
    rw [count_cons]
    split
    · exact begun
    · exact spent.begun other
  passed other j two tried := by
    rw [count_cons] at tried
    split at tried
    case isTrue same => exact same ▸ passed j two tried
    case isFalse => exact List.mem_cons_of_mem _ (spent.passed other j two tried)

theorem Step.isSpent (step : n.Step name given n') (spent : n.IsSpent) : n'.IsSpent := by
  cases step with
  | plain new =>
    exact spent.cons (spent.begun name) fun j two tried =>
      List.mem_cons_of_mem _ (spent.passed name j two tried)
  | @numbered k used search =>
    refine spent.cons (Nat.le_trans (Nat.le_add_left 1 _) search.le) fun j two tried => ?_
    obtain rfl | before := Nat.eq_or_lt_of_le tried
    · exact List.mem_cons_self
    refine List.mem_cons_of_mem _ ?_
    -- what is passed over now was taken, like all that was tried before
    by_cases earlier : j ≤ n.count name
    · exact spent.passed name j two earlier
    · exact search.mem_of_lt (Nat.lt_of_not_le earlier) before

theorem Step.isNext (step : n.Step name given n') (spent : n.IsSpent) : IsNext n.taken name given := by
  cases step with
  | plain new => exact (if_neg new).mpr rfl
  | @numbered k used search =>
    obtain ⟨⟨later, new⟩, least⟩ := search.isLeast
    -- no suffix that was tried is free, so that none is missed by beginning behind them
    refine (if_pos used).mpr ⟨k, ⟨⟨?_, new⟩, fun j ⟨two, free⟩ => least ⟨?_, free⟩⟩, rfl⟩
    · exact Nat.le_trans (Nat.succ_le_succ (spent.begun name)) later
    · exact Nat.lt_of_not_le fun tried => free (spent.passed name j two tried)

theorem Step.taken_eq (step : n.Step name given n') : n'.taken = given :: n.taken := by
  cases step <;> rfl

theorem Run.givenAfter (run : n.Run names out) (spent : n.IsSpent) : GivenAfter n.taken names out := by
  induction run with
  | nil => exact .nil
  | cons step rest ih =>
    have later := ih (step.isSpent spent)
    rw [step.taken_eq] at later
    exact .cons (step.isNext spent) later

end Namer

theorem givenAfter_uniqueNames (names : List String) : GivenAfter [] names (uniqueNames names) :=
  (Namer.run_giveAll {} names).givenAfter Namer.isSpent_empty

end Naming

namespace RegistrationHelper

open HubContract.Naming

theorem isNext_methodName (used : List String) (binding : String) :
    IsNext used (builderMethodName binding) (methodName used binding) := by
  unfold methodName
  extract_lets base
  split
  case isTrue again =>
    exact (if_pos (by simpa using again)).mpr ⟨_, (search_freeSuffix used base 2).isLeast, rfl⟩
  case isFalse new => exact (if_neg (by simpa using new)).mpr rfl

theorem givenAfter_entriesFrom (used : List String) (bs : List ClientBinding) :
    GivenAfter used (bs.map fun b => builderMethodName b.name)
      ((entriesFrom used bs).map (·.methodName)) := by
  induction bs generalizing used with
  | nil => exact .nil
  | cons b bs ih => exact .cons (isNext_methodName used b.name) (ih _)

end RegistrationHelper

namespace Naming

-- The search for names ends, and in one list alone: as many names as were asked for, all distinct, each as it
-- was asked for unless it was given before, and else with the least suffix that was not. The methods of the
-- builder, which are found without a count of what was tried, are the names that are given for them.
theorem uniqueNames_by_search (names : List String) :
    (∀ out, Namer.Run {} names out ↔ out = uniqueNames names) ∧
      (uniqueNames names).length = names.length ∧ (uniqueNames names).Nodup ∧
      (∀ (i : Nat) name, names[i]? = some name → ∃ given, (uniqueNames names)[i]? = some given ∧
        IsNext ((uniqueNames names).take i) name given) ∧
      ∀ (bs : List ClientBinding) (o : Options),
        (RegistrationHelper.synthesize bs o).entries.map (·.methodName) =
          uniqueNames (bs.map fun b => builderMethodName b.name) := by
  have row := givenAfter_uniqueNames names
  refine ⟨fun out => ⟨fun run => ?_, ?_⟩, length_uniqueNames names, nodup_uniqueNames names,
    fun i name asked => ?_, fun bs o => ?_⟩
  · exact (run.givenAfter Namer.isSpent_empty).unique row
  · rintro rfl
    exact Namer.run_giveAll {} names
  · simpa using row.isNext_of_getElem? asked
  · exact (RegistrationHelper.givenAfter_entriesFrom [] bs).unique (givenAfter_uniqueNames _)

-- A name with a suffix of its own stands in the way of the first one that is tried.
theorem uniqueNames_by_search_send :
    ["send", "send_2", "send"][2]? = some "send" ∧
      ∃ given, (uniqueNames ["send", "send_2", "send"])[2]? = some given ∧
        IsNext ["send", "send_2"] "send" given ∧ given = "send_3" := by
  have asked : ["send", "send_2", "send"][2]? = some "send" := rfl
  have all : uniqueNames ["send", "send_2", "send"] = ["send", "send_2", "send_3"] := by decide
  obtain ⟨given, here, next⟩ :=
    (uniqueNames_by_search ["send", "send_2", "send"]).2.2.2.1 2 "send" asked
  refine ⟨asked, given, here, ?_, ?_⟩
  · rwa [all] at next
  · rw [all] at here
    exact (Option.some.inj here).symm

end Naming

end HubContract
