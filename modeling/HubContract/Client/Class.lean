import HubContract.Binding.Origin
import HubContract.Endpoint.Blueprint

namespace HubContract

namespace MemberDescriptor

-- The number of parameters in front of the cancellation parameters at the end.
def payloadArity (d : MemberDescriptor) (cancellationType : String) : Nat :=
  (withoutCancellation cancellationType d.parameters).length

end MemberDescriptor

-- A binding as it is built from its manifest. Of members with one name the last one counts.
structure ClientClass where
  name : String
  -- What the class defines besides what all clients have.
  members : Table Attribute := []
  deriving Repr, Inhabited

namespace ClientClass

-- A client without members.
def bare : ClientClass := { name := "HubClientBase" }

-- A client without members that has an address, unless that is null.
def plain (name hubUri : Json) : Except Fault ClientClass :=
  let members : Table Attribute :=
    if hubUri = .null then [] else [("hub_uri", .value (.data hubUri))]
  match name with
  | .str name =>
    match Blueprint.classFault? name members with
    | some f => .error f
    | none => .ok { name, members }
  | _ => .error .kind

-- A push member has a slot and a thunk.
def pushEntries (d : MemberDescriptor) (handler : String) : List (String × Attribute) :=
  [(d.attributeName, .value .null), (handler, .routine (.thunk handler d.attributeName))]

def invokeEntry (cancellationType : String) (d : MemberDescriptor) : String × Attribute :=
  (d.attributeName,
    .routine (.wrapper d.attributeName d.wireName (d.payloadArity cancellationType)))

-- The push members with their handlers, if all of them have one.
def handled? (ds : List MemberDescriptor) : Option (List (MemberDescriptor × String)) :=
  ds.mapM fun d => d.handler.map fun h => (d, h)

-- What a class says about itself.
def headEntries (m : Manifest) : List (String × Attribute) :=
  [("__module__", .value (.ofText m.bindingModule)),
    ("__doc__",
      .value (.ofText ("Hub client for " ++ m.contractName ++ " at " ++ m.hubUri ++ "."))),
    ("hub_uri", .value (.ofText m.hubUri)), ("__manifest__", .manifest m)]

-- The class of a manifest. There is none if a push member has no handler.
def ofManifest (m : Manifest) : Except Fault ClientClass :=
  match handled? m.push with
  | none => .error .kind
  | some push =>
    let members := Table.setAll [] (headEntries m ++
      push.flatMap (fun (d, h) => pushEntries d h) ++ m.invoke.map (invokeEntry m.cancellationType))
    match Blueprint.classFault? m.bindingName members with
    | some f => .error f
    | none => .ok { name := m.bindingName, members }

def blueprint (c : ClientClass) : Blueprint :=
  ⟨c.name, [c.members, Blueprint.clientLayer, Blueprint.objectLayer]⟩

-- What the class says under a name, if that is a value.
def valueOf (c : ClientClass) (name : String) : Value :=
  match c.blueprint.find? name with
  | some (.value v) => v
  | _ => .other

-- Where the manifest of the class is found.
def origin (c : ClientClass) : ManifestOrigin :=
  .carrier c.name (match c.blueprint.find? "__manifest__" with
    | some (.manifest m) => some (.manifest m)
    | some (.value _) | none => none
    | some _ => some (.other "function"))

end HubContract.ClientClass
