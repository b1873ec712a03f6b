import HubContract.Proofs.Contract.Distinct
import HubContract.Proofs.Contract.Preorder
import HubContract.Proofs.Pipeline.Errors

namespace HubContract

namespace MethodSet

-- The role of a method by its marker.
def markedRole (m : Method) : Role := if m.invoke then .invoke else .push

-- What is found first in a walk is found first in one of the sets.
theorem exists_of_find?_walk {role : Option Role} {root : MethodSet} {p : WalkedMethod → Bool}
    {w : WalkedMethod} (found : (root.walk role).find? p = some w) :
    ∃ s ∈ root.preorder, w.provenance = s.name ∧ w.role = role.getD (markedRole w.method) ∧
      s.methods.find? (fun m => p ⟨m, role.getD (markedRole m), s.name⟩) = some w.method := by
  rw [walk, List.find?_flatMap] at found
  obtain ⟨s, inside, found⟩ := List.exists_of_findSome?_eq_some found
  rw [tagged, List.find?_map] at found
  obtain ⟨m, first, rfl⟩ := Option.map_eq_some_iff.mp found
  exact ⟨s, inside, rfl, rfl, first⟩

end MethodSet

namespace Contract

-- The side of a method: in a separated contract whatever side its set is on, else what its marker says.
def plays (k : Contract) (role : Role) (m : Method) : Bool :=
  k.isSeparated || MethodSet.markedRole m = role

theorem plays_congr {k k' : Contract} (separated : k.isSeparated = k'.isSeparated) :
    k.plays = k'.plays := by
  unfold plays
  rw [separated]

def methodsOf (k : Contract) : Role → List WalkedMethod
  | .push => k.pushMethods
  | .invoke => k.invokeMethods

-- The set in which a side begins.
def root? (k : Contract) (role : Role) : Option MethodSet :=
  if k.isSeparated then
    match role with
    | .push => k.pushSet
    | .invoke => k.invokeSet
  else some k.ownSet

-- A side before repeated signatures are dropped.
def walked (k : Contract) (role : Role) : List WalkedMethod :=
  match role with
  | .push => k.walkSides.1
  | .invoke => k.walkSides.2

variable {k : Contract} {role : Role} {w : WalkedMethod}

theorem methodsOf_eq (k : Contract) (role : Role) :
    k.methodsOf role = (Distinct.ofList (k.walked role)).kept := by
  cases role <;> rfl

theorem walked_of_separated (separated : k.isSeparated = true) :
    k.walked role = (k.root? role).toList.flatMap (·.walk (some role)) := by
  have side (s : Option MethodSet) : walkSide role s = s.toList.flatMap (·.walk (some role)) := by
    cases s with
    | none => rfl
    | some s => exact (List.flatMap_singleton ..).symm
  cases role <;> simp only [walked, walkSides, separated, if_true, root?, side]

theorem walked_of_unified (unified : k.isSeparated = false) :
    k.walked role = (k.ownSet.walk none).filter (·.role = role) := by
  cases role <;> simp [walked, walkSides, unified]

-- A method of a side is the first one of its role with its signature in the set that declares it.
theorem exists_of_mem_methodsOf (mem : w ∈ k.methodsOf role) :
    w.role = role ∧ ∃ root ∈ k.root? role, ∃ s ∈ root.preorder, w.provenance = s.name ∧
      s.methods.find? (fun m => k.plays role m && m.signatureKey = w.signatureKey) = some w.method := by
  rw [methodsOf_eq] at mem
  have first := Distinct.find?_of_mem_kept mem
  cases sides : k.isSeparated with
  | true =>
    rw [walked_of_separated sides, List.find?_flatMap] at first
    obtain ⟨root, inside, found⟩ := List.exists_of_findSome?_eq_some first
    obtain ⟨s, visited, named, side, found⟩ := MethodSet.exists_of_find?_walk found
    refine ⟨side, root, Option.mem_toList.mp inside, s, visited, named, ?_⟩
    simp only [plays, sides, Bool.true_or, Bool.true_and]
    exact found
  | false =>
    rw [walked_of_unified sides, List.find?_filter] at first
    obtain ⟨s, visited, named, side, found⟩ := MethodSet.exists_of_find?_walk first
    have marked := List.find?_some first
    refine ⟨?_, k.ownSet, by simp [root?, sides], s, visited, named, ?_⟩
    · simpa using marked
    · simp only [Bool.decide_and, Bool.decide_eq_true] at found
      simp only [plays, sides, Bool.false_or]
      exact found

end Contract

end HubContract
