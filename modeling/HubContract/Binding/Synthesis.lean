import HubContract.Binding.Basic
import HubContract.Naming
import HubContract.Options

namespace HubContract

-- The parameters that carry payload, under the names that generated code uses.
def payloadParameters (ps : List Parameter) (cancellationType : String) : List Parameter :=
  let payload := withoutCancellation cancellationType ps
  List.zipWith (fun name p => ⟨name, p.type⟩)
    (Naming.uniqueNames (payload.map fun p => Naming.safeIdentifier p.name)) payload

namespace ClientBinding

-- The methods of one side, each with the base of its names.
def based (ws : List WalkedMethod) : List (Method × String) :=
  List.zip (ws.map (·.method)) (Naming.uniqueBases (ws.map (·.method.name)))

def pushMember (cancellationType : String) (m : Method) (base : String) : PushMember :=
  ⟨m.name, m.name, Naming.slotName base, Naming.thunkName base,
    payloadParameters m.parameters cancellationType⟩

def invokeMember (cancellationType : String) (m : Method) (base : String) : InvokeMember :=
  ⟨m.name, m.name, Naming.invokeName base, payloadParameters m.parameters cancellationType,
    if m.returns.kind = .valueAsync then m.returns.typeName else none⟩

def pushDescriptor (m : PushMember) : MemberDescriptor :=
  { identifier := m.identifier, wireName := m.wireName, role := .push, attributeName := m.slotName,
    handler := some m.thunkName, parameters := m.parameters }

def invokeDescriptor (cancellationType : String) (m : InvokeMember) : MemberDescriptor :=
  { identifier := m.identifier, wireName := m.wireName, role := .invoke, attributeName := m.methodName,
    parameters := m.parameters ++ [⟨"cancellation", cancellationType⟩], resultType := m.resultType }

def synthesize (v : Validated) (o : Options) : ClientBinding :=
  let name := v.contract.bindingName
  let module := Naming.moduleName name
  let push := (based v.push).map fun (m, base) => pushMember o.cancellationType m base
  let invoke := (based v.invoke).map fun (m, base) => invokeMember o.cancellationType m base
  { name
    contractName := v.contract.name
    uri := v.contract.uri
    moduleName := module
    push
    invoke
    registrations := push.map fun m => ⟨m.wireName, m.thunkName⟩
    manifest := {
      bindingName := name
      bindingModule := module
      contractName := v.contract.name
      hubUri := v.contract.uri
      cancellationType := o.cancellationType
      push := push.map pushDescriptor
      invoke := invoke.map (invokeDescriptor o.cancellationType) } }

-- Events of one wire name that several thunks handle: each further thunk with the first one.
def sharedWireNames (seen : List (String × String)) : List Registration → List (String × Registration)
  | [] => []
  | r :: rs =>
    match seen.lookup r.wireName with
    | some first => (first, r) :: sharedWireNames seen rs
    | none => sharedWireNames ((r.wireName, r.thunkName) :: seen) rs

end HubContract.ClientBinding
