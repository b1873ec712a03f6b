import HubContract.Binding.Basic
import HubContract.Naming
import HubContract.Options

namespace HubContract

structure RegistrationEntry where
  bindingName : String
  bindingModule : String
  hubUri : String
  methodName : String
  deriving DecidableEq, Repr, Inhabited

structure RegistrationHelper where
  functionName : String := "register_hub_clients"
  builderName : String := "HubClientRegistrations"
  entries : List RegistrationEntry := []
  reconnectPolicy : ReconnectPolicy := .standard
  defaultLifetime : Lifetime := .singleton
  deriving DecidableEq, Repr, Inhabited

namespace RegistrationHelper

-- A builder method whose name is not used yet; suffixes are tried from two on.
def methodName (used : List String) (binding : String) : String :=
  let base := Naming.builderMethodName binding
  if used.contains base then Naming.suffixed base (Naming.freeSuffix used base (used.length + 1) 2)
  else base

def entriesFrom (used : List String) : List ClientBinding → List RegistrationEntry
  | [] => []
  | b :: bs =>
    let name := methodName used b.name
    ⟨b.name, b.moduleName, b.uri, name⟩ :: entriesFrom (name :: used) bs

-- The helper for bindings in document order.
def synthesize (bindings : List ClientBinding) (o : Options) : RegistrationHelper :=
  ⟨o.registrationFunction, o.registrationBuilder, entriesFrom [] bindings, o.reconnectPolicy,
    o.defaultLifetime⟩

end HubContract.RegistrationHelper
