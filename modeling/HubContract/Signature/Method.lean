import HubContract.Signature.ReturnType

namespace HubContract

-- The direction of a method: pushed by the server, or invoked by the client.
inductive Role where
  | push
  | invoke
  deriving DecidableEq, Repr, Inhabited

namespace Role

def name : Role → String
  | .push => "push"
  | .invoke => "invoke"

def title : Role → String
  | .push => "Push"
  | .invoke => "Invoke"

def all : List Role := [.push, .invoke]

end Role

structure Parameter where
  name : String
  type : String
  deriving DecidableEq, Repr, Inhabited

structure Method where
  name : String
  parameters : List Parameter := []
  returns : ReturnType := .unitAsync
  -- The declaration that the method belongs to.
  owner : String := ""
  -- Whether a contract without sides takes the method for an invoke method.
  invoke : Bool := false
  deriving DecidableEq, Repr, Inhabited

namespace Method

def parameterTypes (m : Method) : List String := m.parameters.map (·.type)

def signatureKey (m : Method) : String := m.name ++ "(" ++ ",".intercalate m.parameterTypes ++ ")"

-- A method without an owner is given to `owner`.
def claimedBy (owner : String) (m : Method) : Method :=
  if m.owner = "" then { m with owner := owner } else m

end Method

-- The parameters without the run of cancellation parameters at their end.
def withoutCancellation (cancellationType : String) (ps : List Parameter) : List Parameter :=
  (ps.reverse.dropWhile (·.type = cancellationType)).reverse

end HubContract
