import HubContract.Binding.Fake
import HubContract.Binding.Registration
import HubContract.Contract.Interchange
import HubContract.Json.Reader
import HubContract.Json.Writer

namespace HubContract

open HubContract.Data HubContract.Number

namespace MemberDescriptor

def toJson (d : MemberDescriptor) : Json :=
  .object [
    ("identifier", .str d.identifier),
    ("wire_name", .str d.wireName),
    ("role", .str d.role.name),
    ("attribute", .str d.attributeName),
    ("handler", .ofOption .str d.handler),
    ("parameters", .ofList Parameter.toJson d.parameters),
    ("result_type", .ofOption .str d.resultType)]

def check : Data → Check MemberDescriptor :=
  checkRecord fun d =>
    mk <$> d.field "identifier" checkString <*> d.field "wire_name" checkString
      <*> d.field "role" Role.check <*> d.field "attribute" checkString
      <*> d.fieldOr "handler" none (checkOptional checkString)
      <*> d.fieldOr "parameters" [] (checkList Parameter.check)
      <*> d.fieldOr "result_type" none (checkOptional checkString)

end MemberDescriptor

namespace Manifest

def toJson (m : Manifest) : Json :=
  .object [
    ("version", .str m.version),
    ("binding_name", .str m.bindingName),
    ("binding_module", .str m.bindingModule),
    ("contract_name", .str m.contractName),
    ("hub_uri", .str m.hubUri),
    ("cancellation_type", .str m.cancellationType),
    ("push", .ofList MemberDescriptor.toJson m.push),
    ("invoke", .ofList MemberDescriptor.toJson m.invoke)]

def check : Data → Check Manifest :=
  checkRecord fun d =>
    mk <$> d.fieldOr "version" manifestVersion checkString
      <*> d.field "binding_name" checkString <*> d.field "binding_module" checkString
      <*> d.field "contract_name" checkString <*> d.field "hub_uri" checkString
      <*> d.fieldOr "cancellation_type" "CancellationToken" checkString
      <*> d.fieldOr "push" [] (checkList MemberDescriptor.check)
      <*> d.fieldOr "invoke" [] (checkList MemberDescriptor.check)

-- A manifest from JSON text.
def checkText (text : String) : Check Manifest :=
  match Json.parse? text Json.maxNesting with
  | some j => check (ofJson j)
  | none => .fail .malformedJson

end Manifest

namespace PushMember

def toJson (m : PushMember) : Json :=
  .object [
    ("identifier", .str m.identifier),
    ("wire_name", .str m.wireName),
    ("slot_name", .str m.slotName),
    ("thunk_name", .str m.thunkName),
    ("parameters", .ofList Parameter.toJson m.parameters)]

def check : Data → Check PushMember :=
  checkRecord fun d =>
    mk <$> d.field "identifier" checkString <*> d.field "wire_name" checkString
      <*> d.field "slot_name" checkString <*> d.field "thunk_name" checkString
      <*> d.fieldOr "parameters" [] (checkList Parameter.check)

end PushMember

namespace InvokeMember

def toJson (m : InvokeMember) : Json :=
  .object [
    ("identifier", .str m.identifier),
    ("wire_name", .str m.wireName),
    ("method_name", .str m.methodName),
    ("parameters", .ofList Parameter.toJson m.parameters),
    ("result_type", .ofOption .str m.resultType)]

def check : Data → Check InvokeMember :=
  checkRecord fun d =>
    mk <$> d.field "identifier" checkString <*> d.field "wire_name" checkString
      <*> d.field "method_name" checkString
      <*> d.fieldOr "parameters" [] (checkList Parameter.check)
      <*> d.fieldOr "result_type" none (checkOptional checkString)

end InvokeMember

namespace Registration

def toJson (r : Registration) : Json :=
  .object [("wire_name", .str r.wireName), ("thunk_name", .str r.thunkName)]

def check : Data → Check Registration :=
  checkRecord fun d =>
    mk <$> d.field "wire_name" checkString <*> d.field "thunk_name" checkString

end Registration

namespace ClientBinding

def toJson (b : ClientBinding) : Json :=
  .object [
    ("name", .str b.name),
    ("contract_name", .str b.contractName),
    ("uri", .str b.uri),
    ("module_name", .str b.moduleName),
    ("push", .ofList PushMember.toJson b.push),
    ("invoke", .ofList InvokeMember.toJson b.invoke),
    ("registrations", .ofList Registration.toJson b.registrations),
    ("manifest", b.manifest.toJson)]

def check : Data → Check ClientBinding :=
  checkRecord fun d =>
    mk <$> d.field "name" checkString <*> d.field "contract_name" checkString
      <*> d.field "uri" checkString <*> d.field "module_name" checkString
      <*> d.fieldOr "push" [] (checkList PushMember.check)
      <*> d.fieldOr "invoke" [] (checkList InvokeMember.check)
      <*> d.fieldOr "registrations" [] (checkList Registration.check)
      <*> d.field "manifest" Manifest.check

end ClientBinding

namespace RegistrationEntry

def toJson (e : RegistrationEntry) : Json :=
  .object [
    ("binding_name", .str e.bindingName),
    ("binding_module", .str e.bindingModule),
    ("hub_uri", .str e.hubUri),
    ("method_name", .str e.methodName)]

def check : Data → Check RegistrationEntry :=
  checkRecord fun d =>
    mk <$> d.field "binding_name" checkString <*> d.field "binding_module" checkString
      <*> d.field "hub_uri" checkString <*> d.field "method_name" checkString

end RegistrationEntry

namespace RegistrationHelper

def toJson (h : RegistrationHelper) : Json :=
  .object [
    ("function_name", .str h.functionName),
    ("builder_name", .str h.builderName),
    ("entries", .ofList RegistrationEntry.toJson h.entries),
    ("reconnect_policy", h.reconnectPolicy.toJson),
    ("default_lifetime", .str h.defaultLifetime.name)]

-- A helper whose delays are read by `number`.
def checkWith (number : Data → Check Binary64) : Data → Check RegistrationHelper :=
  checkRecord fun d =>
    let absent : RegistrationHelper := {}
    mk <$> d.fieldOr "function_name" absent.functionName checkString
      <*> d.fieldOr "builder_name" absent.builderName checkString
      <*> d.fieldOr "entries" [] (checkList RegistrationEntry.check)
      <*> d.fieldOr "reconnect_policy" absent.reconnectPolicy (ReconnectPolicy.checkWith number)
      <*> d.fieldOr "default_lifetime" absent.defaultLifetime Lifetime.check

def check : Data → Check RegistrationHelper := checkWith checkFloat

end RegistrationHelper

namespace FakeInvokeMember

def toJson (m : FakeInvokeMember) : Json :=
  .object [
    ("identifier", .str m.identifier),
    ("wire_name", .str m.wireName),
    ("method_name", .str m.methodName),
    ("calls_attribute", .str m.callsAttribute),
    ("behavior_attribute", .str m.behaviorAttribute),
    ("parameters", .ofList Parameter.toJson m.parameters),
    ("default_result", .str m.defaultResult)]

def check : Data → Check FakeInvokeMember :=
  checkRecord fun d =>
    mk <$> d.field "identifier" checkString <*> d.field "wire_name" checkString
      <*> d.field "method_name" checkString <*> d.field "calls_attribute" checkString
      <*> d.field "behavior_attribute" checkString
      <*> d.fieldOr "parameters" [] (checkList Parameter.check)
      <*> d.fieldOr "default_result" "None" checkString

end FakeInvokeMember

namespace FakePushMember

def toJson (m : FakePushMember) : Json :=
  .object [
    ("identifier", .str m.identifier),
    ("wire_name", .str m.wireName),
    ("slot_name", .str m.slotName),
    ("events_attribute", .str m.eventsAttribute),
    ("simulate_name", .str m.simulateName),
    ("wait_name", .str m.waitName),
    ("parameters", .ofList Parameter.toJson m.parameters)]

def check : Data → Check FakePushMember :=
  checkRecord fun d =>
    mk <$> d.field "identifier" checkString <*> d.field "wire_name" checkString
      <*> d.field "slot_name" checkString <*> d.field "events_attribute" checkString
      <*> d.field "simulate_name" checkString <*> d.field "wait_name" checkString
      <*> d.fieldOr "parameters" [] (checkList Parameter.check)

end FakePushMember

namespace FakeBinding

def toJson (f : FakeBinding) : Json :=
  .object [
    ("name", .str f.name),
    ("binding_name", .str f.bindingName),
    ("binding_module", .str f.bindingModule),
    ("invoke", .ofList FakeInvokeMember.toJson f.invoke),
    ("push", .ofList FakePushMember.toJson f.push)]

def check : Data → Check FakeBinding :=
  checkRecord fun d =>
    mk <$> d.field "name" checkString <*> d.field "binding_name" checkString
      <*> d.field "binding_module" checkString
      <*> d.fieldOr "invoke" [] (checkList FakeInvokeMember.check)
      <*> d.fieldOr "push" [] (checkList FakePushMember.check)

end HubContract.FakeBinding
