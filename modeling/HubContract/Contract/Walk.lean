import HubContract.Contract.Basic

namespace HubContract

-- A method that was reached, with its direction and the set that declared it.
structure WalkedMethod where
  method : Method
  role : Role
  provenance : String
  deriving DecidableEq, Repr, Inhabited

def WalkedMethod.signatureKey (w : WalkedMethod) : String := w.method.signatureKey

namespace MethodSet

mutual

-- How many sets there are in a set, each counted as often as it occurs.
def size : MethodSet → Nat
  | ⟨_, _, ancestors⟩ => sizeAll ancestors + 1

def sizeAll : List MethodSet → Nat
  | [] => 0
  | s :: rest => size s + sizeAll rest

end

theorem size_eq (s : MethodSet) : s.size = sizeAll s.ancestors + 1 := by
  cases s
  rfl

-- Put sets on a stack one after the other. The top of a stack is in front.
def pushAll (sets stack : List MethodSet) : List MethodSet :=
  sets.foldl (fun stack s => s :: stack) stack

theorem pushAll_reverse (sets stack : List MethodSet) : pushAll sets.reverse stack = sets ++ stack := by
  simp [pushAll]

theorem sizeAll_append (sets stack : List MethodSet) :
    sizeAll (sets ++ stack) = sizeAll sets + sizeAll stack := by
  induction sets with
  | nil => simp [sizeAll]
  | cons s sets ih => rw [List.cons_append, sizeAll, sizeAll, ih, Nat.add_assoc]

-- The sets that are met from a stack on. A set whose name was visited is passed by when it is taken
-- from the stack. The sets that another one extends are put on it from the last to the first, so that the
-- first is taken next. What is left to do shrinks with each set that is taken, since a set counts for itself
-- and all that it extends. It unfolds by computation, so that small cases can be decided.
@[semireducible]
def unstack (visited : List String) : List MethodSet → List MethodSet
  | [] => []
  | s :: stack =>
    if visited.contains s.name then unstack visited stack
    else s :: unstack (s.name :: visited) (pushAll s.ancestors.reverse stack)
termination_by stack => sizeAll stack
decreasing_by
  · rw [sizeAll, size_eq]
    omega
  · rw [List.unattach_reverse, List.unattach_attach, pushAll_reverse, sizeAll_append, sizeAll, size_eq]
    omega

-- The sets reached from a root in the order of their first visit.
def preorder (root : MethodSet) : List MethodSet := unstack [] [root]

-- The methods of one set. Without a given role, each method's marker decides.
def tagged (role : Option Role) (s : MethodSet) : List WalkedMethod :=
  s.methods.map fun m => ⟨m, role.getD (if m.invoke then .invoke else .push), s.name⟩

-- All methods reached from a root.
def walk (role : Option Role) (root : MethodSet) : List WalkedMethod :=
  root.preorder.flatMap (tagged role)

end MethodSet

namespace Contract

-- The methods of one side; an absent side has none.
def walkSide (role : Role) : Option MethodSet → List WalkedMethod
  | none => []
  | some s => s.walk (some role)

-- The push and the invoke methods of a contract. Those of a unified contract are told apart by
-- their marker.
def walkSides (c : Contract) : List WalkedMethod × List WalkedMethod :=
  if c.isSeparated then (walkSide .push c.pushSet, walkSide .invoke c.invokeSet)
  else
    let all := c.ownSet.walk none
    (all.filter (·.role = .push), all.filter (·.role = .invoke))

end Contract

structure Distinct where
  kept : List WalkedMethod := []
  -- A dropped method and the earlier one with its signature.
  dropped : List (WalkedMethod × WalkedMethod) := []
  deriving DecidableEq, Repr

namespace Distinct

def add (d : Distinct) (w : WalkedMethod) : Distinct :=
  match d.kept.find? (·.signatureKey = w.signatureKey) with
  | some first => { d with dropped := d.dropped ++ [(w, first)] }
  | none => { d with kept := d.kept ++ [w] }

def ofList (ws : List WalkedMethod) : Distinct := ws.foldl add {}

end HubContract.Distinct
