import HubContract.Binding.Interchange
import HubContract.Pipeline.Result

namespace HubContract

open HubContract.Data HubContract.Number

def Status.check : Data → Check Status := checkWord (namesOf Status.all Status.name)

namespace Validated

def toJson (v : Validated) : Json :=
  .object [
    ("contract", v.contract.toJson),
    ("push", .ofList WalkedMethod.toJson v.push),
    ("invoke", .ofList WalkedMethod.toJson v.invoke)]

def check : Data → Check Validated :=
  checkRecord fun d =>
    mk <$> d.field "contract" Contract.check
      <*> d.fieldOr "push" [] (checkList WalkedMethod.check)
      <*> d.fieldOr "invoke" [] (checkList WalkedMethod.check)

end Validated

namespace CompiledContract

def toJson (c : CompiledContract) : Json :=
  .object [
    ("contract_name", .str c.contractName),
    ("status", .str c.status.name),
    ("validated", .ofOption Validated.toJson c.validated),
    ("binding", .ofOption ClientBinding.toJson c.binding),
    ("source", .ofOption .str c.source),
    ("diagnostics", .ofList Diagnostic.toJson c.diagnostics),
    ("trace", .ofList TraceEntry.toJson c.trace)]

def check : Data → Check CompiledContract :=
  checkRecord fun d =>
    mk <$> d.field "contract_name" checkString <*> d.field "status" Status.check
      <*> d.fieldOr "validated" none (checkOptional Validated.check)
      <*> d.fieldOr "binding" none (checkOptional ClientBinding.check)
      <*> d.fieldOr "source" none (checkOptional checkString)
      <*> d.fieldOr "diagnostics" [] (checkList Diagnostic.check)
      <*> d.fieldOr "trace" [] (checkList TraceEntry.check)

end CompiledContract

namespace CompiledFake

def toJson (f : CompiledFake) : Json :=
  .object [
    ("target", .str f.target),
    ("fake", .ofOption FakeBinding.toJson f.fake),
    ("source", .ofOption .str f.source),
    ("diagnostics", .ofList Diagnostic.toJson f.diagnostics)]

def check : Data → Check CompiledFake :=
  checkRecord fun d =>
    mk <$> d.field "target" checkString
      <*> d.fieldOr "fake" none (checkOptional FakeBinding.check)
      <*> d.fieldOr "source" none (checkOptional checkString)
      <*> d.fieldOr "diagnostics" [] (checkList Diagnostic.check)

end CompiledFake

namespace Compilation

def toJson (c : Compilation) : Json :=
  .object [
    ("version", .str c.version),
    ("status", .str c.status.name),
    ("contracts", .ofList CompiledContract.toJson c.contracts),
    ("registration", .ofOption RegistrationHelper.toJson c.registration),
    ("registration_source", .ofOption .str c.registrationSource),
    ("fakes", .ofList CompiledFake.toJson c.fakes),
    ("diagnostics", .ofList Diagnostic.toJson c.diagnostics)]

-- A result whose delays are read by `number`.
def checkWith (number : Data → Check Binary64) : Data → Check Compilation :=
  checkRecord fun d =>
    mk <$> d.fieldOr "version" Source.generatorVersion checkString
      <*> d.fieldOr "status" .success Status.check
      <*> d.fieldOr "contracts" [] (checkList CompiledContract.check)
      <*> d.fieldOr "registration" none (checkOptional (RegistrationHelper.checkWith number))
      <*> d.fieldOr "registration_source" none (checkOptional checkString)
      <*> d.fieldOr "fakes" [] (checkList CompiledFake.check)
      <*> d.fieldOr "diagnostics" [] (checkList Diagnostic.check)

-- The text of a result.
def toText (c : Compilation) (indent : Option Nat) : String := c.toJson.render indent

-- The text of a result that is not nested too deep.
def write (c : Compilation) (indent : Option Nat) : Except Fault String :=
  if c.contracts.all (·.validated.all (·.contract.isWritable)) then .ok (c.toText indent)
  else .error .unwritable

-- A result from its text.
def ofText (text : String) : Check Compilation :=
  match Json.parse? text Json.maxNesting with
  | some j => checkWith checkExtendedFloat (ofJson j)
  | none => .fail .malformedJson

-- Equality of results, numbers being compared by their value.
def same (c d : Compilation) : Bool :=
  let samePolicy := match c.registration, d.registration with
    | some h, some g => h.reconnectPolicy.same g.reconnectPolicy
    | none, none => true
    | _, _ => false
  let plain (c : Compilation) : Compilation :=
    { c with registration := c.registration.map fun h => { h with reconnectPolicy := .standard } }
  samePolicy && plain c = plain d

end HubContract.Compilation
