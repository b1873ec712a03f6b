import HubContract.Contract.Walk

namespace HubContract

-- A contract whose methods passed every rule.
structure Validated where
  contract : Contract
  push : List WalkedMethod := []
  invoke : List WalkedMethod := []
  deriving DecidableEq, Repr, Inhabited

-- One member of a binding's surface. The attribute is a slot or a wrapper; only push members have
-- a handler, only invoke members a result.
structure MemberDescriptor where
  identifier : String
  wireName : String
  role : Role
  attributeName : String
  handler : Option String := none
  parameters : List Parameter := []
  resultType : Option String := none
  deriving DecidableEq, Repr, Inhabited

-- The version of manifests that are written and understood.
def manifestVersion : String := "1"

structure Manifest where
  version : String := manifestVersion
  bindingName : String
  bindingModule : String
  contractName : String
  hubUri : String
  cancellationType : String := "CancellationToken"
  push : List MemberDescriptor := []
  invoke : List MemberDescriptor := []
  deriving DecidableEq, Repr, Inhabited

namespace Manifest

-- The first member with a wire name.
def member? (m : Manifest) (wireName : String) : Option MemberDescriptor :=
  (m.push ++ m.invoke).find? (·.wireName = wireName)

-- Every attribute that the binding defines for its members.
def attributes (m : Manifest) : List String :=
  (m.push ++ m.invoke).map (·.attributeName) ++ m.push.filterMap (·.handler)

end Manifest

-- A callback slot with the thunk that events are dispatched through.
structure PushMember where
  identifier : String
  wireName : String
  slotName : String
  thunkName : String
  parameters : List Parameter := []
  deriving DecidableEq, Repr, Inhabited

-- A typed wrapper around an invoke call.
structure InvokeMember where
  identifier : String
  wireName : String
  methodName : String
  parameters : List Parameter := []
  resultType : Option String := none
  deriving DecidableEq, Repr, Inhabited

-- A thunk that handles the events of a wire name.
structure Registration where
  wireName : String
  thunkName : String
  deriving DecidableEq, Repr, Inhabited

structure ClientBinding where
  name : String
  contractName : String
  uri : String
  moduleName : String
  push : List PushMember := []
  invoke : List InvokeMember := []
  registrations : List Registration := []
  manifest : Manifest
  deriving DecidableEq, Repr, Inhabited

end HubContract
