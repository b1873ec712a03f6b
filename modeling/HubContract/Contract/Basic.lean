import HubContract.Signature.Method
import HubContract.Text.Capital

namespace HubContract

-- A set holds the sets that it extends by value.
structure MethodSet where
  name : String
  methods : List Method := []
  ancestors : List MethodSet := []
  deriving Repr, Inhabited

namespace MethodSet

mutual

def decEq : (a b : MethodSet) → Decidable (a = b)
  | ⟨n, m, xs⟩, ⟨n', m', ys⟩ =>
    match decEqAll xs ys with
    | isTrue h =>
      if g : n = n' ∧ m = m' then isTrue (by rw [g.1, g.2, h])
      else isFalse (by intro e; injection e with e₁ e₂ _; exact g ⟨e₁, e₂⟩)
    | isFalse h => isFalse (by intro e; injection e with _ _ e₃; exact h e₃)

def decEqAll : (xs ys : List MethodSet) → Decidable (xs = ys)
  | [], [] => isTrue rfl
  | [], _ :: _ => isFalse (by simp)
  | _ :: _, [] => isFalse (by simp)
  | x :: xs, y :: ys =>
    match decEq x y, decEqAll xs ys with
    | isTrue h, isTrue t => isTrue (by rw [h, t])
    | isFalse h, _ => isFalse (by simp [h])
    | _, isFalse t => isFalse (by simp [t])

end

instance : DecidableEq MethodSet := decEq

end MethodSet

-- A bridge with up to two sides. Without sides a contract is unified, and its own methods are the
-- contract.
structure Contract where
  name : String
  uri : String := ""
  friendlyName : Option String := none
  pushSet : Option MethodSet := none
  invokeSet : Option MethodSet := none
  methods : List Method := []
  ancestors : List MethodSet := []
  deriving DecidableEq, Repr, Inhabited

namespace Contract

open HubContract.Text

-- A contract with at least one side.
def isSeparated (c : Contract) : Bool := c.pushSet.isSome || c.invokeSet.isSome

-- The binding name that a declaration's name gives by convention: a leading I before another
-- capital is dropped, and Client is put at the end.
def conventionalName (name : String) : String :=
  match name.toList with
  | 'I' :: c :: r => if isCapital c then String.ofList (c :: r) ++ "Client" else name ++ "Client"
  | _ => name ++ "Client"

-- The friendly name, or else the conventional one.
def bindingNameOf (name : String) (friendly : Option String) : String :=
  match friendly with
  | some f => if f = "" then conventionalName name else f
  | none => conventionalName name

def bindingName (c : Contract) : String := bindingNameOf c.name c.friendlyName

-- The bridge's own methods as a set.
def ownSet (c : Contract) : MethodSet :=
  ⟨c.name, c.methods.map (Method.claimedBy c.name), c.ancestors⟩

end HubContract.Contract
