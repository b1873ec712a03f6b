import HubContract.Binding.Fake
import HubContract.Endpoint.Value

namespace HubContract

-- Operations that are awaited.
inductive Routine where
  -- hands the arguments of an event to what is in a slot
  | thunk (name slot : String)
  -- invokes a method of the server with so many arguments
  | wrapper (name wireName : String) (arity : Nat)
  -- what every client has
  | start
  | stop
  | invoke
  -- what every fake has
  | fakeStart
  | fakeStop
  | fakeInvoke
  | simulate
  | waitFor
  -- the members of a fake
  | answer (member : FakeInvokeMember)
  | simulator (member : FakePushMember)
  | waiter (member : FakePushMember)
  deriving DecidableEq, Repr

-- The name that a routine goes by itself.
def Routine.name : Routine → String
  | .thunk name _ | .wrapper name _ _ => name
  | .start | .fakeStart => "start"
  | .stop | .fakeStop => "stop"
  | .invoke => "_invoke"
  | .fakeInvoke => "_fake_invoke"
  | .simulate => "_simulate"
  | .waitFor => "_wait_for"
  | .answer m => m.methodName
  | .simulator m => m.simulateName
  | .waiter m => m.waitName

-- Routines under these names act on the class, which has slots that are empty and no state.
def Routine.isOfClass (r : Routine) : Bool :=
  ["__init_subclass__", "__class_getitem__"].contains r.name

-- Operations that answer when they are called.
inductive Prompt where
  | setUp
  | subscribe
  | register
  | setUpFake
  | model
  | channel
  | invokeMember
  | pushMember
  | reset
  | read
  | write
  | erase
  -- of no use to a caller who awaits the answer
  | inert
  deriving DecidableEq, Repr

-- What a name stands for.
inductive Attribute where
  | routine (routine : Routine)
  | prompt (prompt : Prompt)
  | value (value : Value)
  | manifest (manifest : Manifest)
  | model (model : FakeBinding)
  -- shows what another name holds, and cannot be set
  | property (field : String)
  -- the blueprint itself, which can be called to build another one
  | kind
  -- cannot be set, for the given reason
  | sealed (reason : Fault)
  deriving Repr

instance : Inhabited Attribute := ⟨.value .null⟩

-- What a client or a fake is built from. The first layer that has a name decides what the name
-- stands for. The members of a manifest are in layers of their own, in front of what all clients,
-- all fakes and all objects have, so a member may take a name away from them.
structure Blueprint where
  name : String
  layers : List (Table Attribute)
  deriving Repr, Inhabited

namespace Blueprint

-- What all objects have.
def objectLayer : Table Attribute :=
  [("__class__", .kind), ("__doc__", .value .null), ("__getattribute__", .prompt .read),
    ("__setattr__", .prompt .write), ("__delattr__", .prompt .erase)] ++
  ["__dir__", "__eq__", "__format__", "__ge__", "__getstate__", "__gt__", "__hash__", "__init__",
    "__init_subclass__", "__le__", "__lt__", "__ne__", "__new__", "__reduce__", "__reduce_ex__",
    "__repr__", "__sizeof__", "__str__", "__subclasshook__"].map fun name => (name, .prompt .inert)

-- What the common classes of clients and of fakes have besides their operations.
def classEntries : Table Attribute :=
  [("__module__", .value .other), ("__doc__", .value .other), ("__annotations__", .value .other),
    ("__dict__", .sealed .kind), ("__weakref__", .sealed .attribute)]

-- What all clients have.
def clientLayer : Table Attribute :=
  [("hub_uri", .value (.ofText "")), ("__manifest__", .value .null),
    ("__init__", .prompt .setUp), ("connection", .property "_connection"),
    ("url", .property "_url"), ("started", .property "_started"), ("start", .routine .start),
    ("stop", .routine .stop), ("_on", .prompt .subscribe), ("_invoke", .routine .invoke),
    ("_register_hub_methods", .prompt .register)] ++ classEntries

-- What all fakes have.
def fakeLayer : Table Attribute :=
  [("__fake__", .value .null), ("__init__", .prompt .setUpFake), ("_fake_model", .prompt .model),
    ("start", .routine .fakeStart), ("stop", .routine .fakeStop), ("channel", .prompt .channel),
    ("_invoke_member", .prompt .invokeMember), ("_push_member", .prompt .pushMember),
    ("_fake_invoke", .routine .fakeInvoke), ("_simulate", .routine .simulate),
    ("_wait_for", .routine .waitFor), ("reset", .prompt .reset)] ++ classEntries

-- What a name stands for.
def find? (b : Blueprint) (name : String) : Option Attribute := b.layers.findSome? (·.get? name)

-- The number of names in all layers.
def size (b : Blueprint) : Nat := b.layers.foldr (fun t n => t.length + n) 0

-- A class cannot have every name, and some names only hold things of their own kind.
def isNameable (name : String) : Bool := !name.toList.contains '\x00'

def claimed : List String := ["__qualname__", "__slots__", "__classcell__"]

-- Why the members of a layer keep a class from being made.
def classFault? (name : String) (members : Table Attribute) : Option Fault :=
  if !isNameable name then some .value
  else if claimed.any fun n => (members.get? n).isSome then some .kind
  else none

-- Why nothing can be built from a blueprint. Members that take the place of how an object is made,
-- read or written do not do what those do.
def buildFault? (b : Blueprint) : Option Fault :=
  match b.find? "__new__", b.find? "__getattribute__", b.find? "__setattr__" with
  | some (.prompt .inert), some (.prompt .read), some (.prompt .write) => none
  | some (.prompt .inert), some (.prompt .read), some (.routine _) => some .attribute
  | _, _, _ => some .kind

end HubContract.Blueprint
