import HubContract.Binding.Interchange
import HubContract.Source.Text

namespace HubContract.Source

open HubContract.Text

-- A callback slot, empty at first.
structure Slot where
  name : String
  parameters : List Parameter
  deriving DecidableEq, Repr

-- A thunk hands the arguments of an event to what is in its slot, if anything is.
structure Thunk where
  name : String
  parameters : List Parameter
  slot : String
  -- The variable that holds the callback while the thunk runs.
  callbackVariable : String := "callback"
  deriving DecidableEq, Repr

-- A wrapper calls the connection with its arguments; it hands back the answer only if `answers`.
structure Wrapper where
  name : String
  parameters : List Parameter
  cancellationType : String
  wireName : String
  returns : String
  answers : Bool
  deriving DecidableEq, Repr

structure ClientModule where
  className : String
  contractName : String
  uri : String
  manifest : Manifest
  slots : List Slot
  -- The thunks that are registered, each with its wire name, in this order.
  registrations : List Registration
  thunks : List Thunk
  wrappers : List Wrapper
  deriving DecidableEq, Repr

namespace ClientModule

def wrapperOf (cancellationType : String) (m : InvokeMember) : Wrapper :=
  let answers := match m.resultType with
    | some t => t ≠ ""
    | none => false
  ⟨m.methodName, m.parameters, cancellationType, m.wireName,
    if answers then m.resultType.getD "None" else "None", answers⟩

def ofBinding (b : ClientBinding) : ClientModule where
  className := b.name
  contractName := b.contractName
  uri := b.uri
  manifest := b.manifest
  slots := b.push.map fun m => ⟨m.slotName, m.parameters⟩
  registrations := b.registrations
  thunks := b.push.map fun m => { name := m.thunkName, parameters := m.parameters, slot := m.slotName }
  wrappers := b.invoke.map (wrapperOf b.manifest.cancellationType)

end ClientModule

def Slot.line (s : Slot) : String := s.name ++ ": " ++ callableType s.parameters ++ " = None"

def Thunk.lines (t : Thunk) : List String := [
  "async def " ++ t.name ++ "(" ++ signature t.parameters none ++ ") -> None:",
  "    " ++ t.callbackVariable ++ " = self." ++ t.slot,
  "    if " ++ t.callbackVariable ++ " is None:",
  "        return",
  "    await " ++ t.callbackVariable ++ "(" ++ callArguments t.parameters ++ ")",
  ""]

def Wrapper.lines (w : Wrapper) : List String := [
  "async def " ++ w.name ++ "(" ++ signature w.parameters (some w.cancellationType) ++ ") -> " ++
    w.returns ++ ":",
  (if w.answers then "    return await " else "    await ") ++ "self._invoke(" ++
    quoted w.wireName ++ ", " ++ argumentTuple w.parameters ++ ", cancellation)",
  ""]

namespace ClientModule

-- The method that registers the thunks, which is left out where there are none.
def registrationLines (m : ClientModule) : List String :=
  if m.slots.isEmpty then []
  else
    ["", "def _register_hub_methods(self) -> None:"] ++
      (m.registrations.map fun r =>
        "    self._on(" ++ quoted r.wireName ++ ", self." ++ r.thunkName ++ ")") ++ [""]

-- The literal that the manifest is read from.
def manifestLiteral (m : Manifest) : String := quoted (m.toJson.render none)

def lines (m : ClientModule) : List String :=
  header ("Hub client for " ++ m.contractName) ++ [
    "from typing import Awaitable, Callable, Optional",
    "",
    "from hubgen.ir.bindings import BindingManifest",
    "from hubgen.runtime import CancellationToken, HubClientBase",
    "",
    "_MANIFEST_JSON = " ++ manifestLiteral m.manifest,
    "",
    "",
    "class " ++ m.className ++ "(HubClientBase):",
    "    \"\"\"Hub client for " ++ docText m.contractName ++ " at " ++ docText m.uri ++ ".\"\"\"",
    "",
    "    hub_uri = " ++ quoted m.uri,
    "    __manifest__ = BindingManifest.model_validate_json(_MANIFEST_JSON)",
    ""] ++
  indented 1 (m.slots.map Slot.line ++ m.registrationLines ++ m.thunks.flatMap Thunk.lines ++
    m.wrappers.flatMap Wrapper.lines)

def text (m : ClientModule) : String := joined m.lines

end ClientModule

-- The source of a binding.
def client (b : ClientBinding) : String := (ClientModule.ofBinding b).text

end HubContract.Source
