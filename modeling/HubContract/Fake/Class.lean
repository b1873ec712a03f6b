import HubContract.Client.Class

namespace HubContract

structure FakeClass where
  fake : FakeBinding
  binding : ClientClass
  -- What the fake defines for the members of its binding.
  members : Table Attribute
  deriving Repr

namespace FakeClass

def name (c : FakeClass) : String := c.fake.name

def doc (c : FakeClass) : String := "Test double for " ++ c.fake.bindingName ++ "."

-- The base that all fakes have in common.
def baseName : String := "FakeHubClientBase"

def bases (c : FakeClass) : List String := [baseName, c.binding.name]

def invokeEntry (m : FakeInvokeMember) : String × Attribute := (m.methodName, .routine (.answer m))

def pushEntries (m : FakePushMember) : List (String × Attribute) :=
  [(m.simulateName, .routine (.simulator m)), (m.waitName, .routine (.waiter m))]

def headEntries (f : FakeBinding) : List (String × Attribute) :=
  [("__module__", .value .other), ("__doc__", .value .other), ("__fake__", .model f)]

-- A class in front of another one is announced to it, which a member may prevent.
def announceFault? (binding : ClientClass) : Option Fault :=
  match binding.blueprint.find? "__init_subclass__" with
  | some (.value _) => some .kind
  | _ => none

-- The class of a fake.
def ofFake (binding : ClientClass) (f : FakeBinding) : Except Fault FakeClass :=
  let members := Table.setAll [] (headEntries f ++ f.invoke.map invokeEntry ++
    f.push.flatMap pushEntries)
  match (Blueprint.classFault? f.name members).or (announceFault? binding) with
  | some e => .error e
  | none => .ok { fake := f, binding, members }

def blueprint (c : FakeClass) : Blueprint :=
  ⟨c.name, [c.members, Blueprint.fakeLayer, c.binding.members, Blueprint.clientLayer,
    Blueprint.objectLayer]⟩

-- Names that the common base defines or sets. Members come in front of what it defines and behind
-- what it sets.
def machinery : List String := [
  "strict", "start", "stop", "reset", "channel", "_connection", "_url", "_started", "_fake_lock",
  "_channels", "_fake_model", "_invoke_member", "_push_member", "_fake_invoke", "_simulate",
  "_wait_for", "__fake__", "__init__"]

end HubContract.FakeClass
