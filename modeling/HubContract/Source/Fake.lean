import HubContract.Binding.Interchange
import HubContract.Source.Text

namespace HubContract.Source

open HubContract.Text

def fakeInvokeLines (cancellationType : String) (m : FakeInvokeMember) : List String := [
  "async def " ++ m.methodName ++ "(" ++ signature m.parameters (some cancellationType) ++ "):",
  "    return await self._fake_invoke(" ++ quoted m.wireName ++ ", " ++
    argumentTuple m.parameters ++ ", " ++ m.defaultResult ++ ")",
  ""]

def fakePushLines (cancellationType : String) (m : FakePushMember) : List String := [
  "async def " ++ m.simulateName ++ "(" ++ signature m.parameters none ++ ") -> None:",
  "    await self._simulate(" ++ quoted m.wireName ++ ", " ++ argumentTuple m.parameters ++ ")",
  "",
  "async def " ++ m.waitName ++ "(self, " ++ cancellationArgument cancellationType ++ ") -> " ++
    recordedType m.parameters ++ ":",
  "    return await self._wait_for(" ++ quoted m.wireName ++ ", cancellation)",
  ""]

-- The line that imports the binding, relatively unless a package is named.
def bindingImport (package : Option String) (module name : String) : String :=
  let place := match package with
    | some p => if p = "" then "" else p
    | none => ""
  "from " ++ place ++ "." ++ module ++ " import " ++ name

-- The literal that the model of a fake is read from.
def fakeLiteral (f : FakeBinding) : String := quoted (f.toJson.render none)

def fakeLines (f : FakeBinding) (cancellationType : String) (package : Option String) :
    List String :=
  header ("Test double for " ++ f.bindingName) ++ [
    "from typing import Optional",
    "",
    "from hubgen.ir.bindings import FakeBinding",
    "from hubgen.runtime import CancellationToken",
    "from hubgen.testing import FakeHubClientBase",
    "",
    bindingImport package f.bindingModule f.bindingName,
    "",
    "_FAKE_JSON = " ++ fakeLiteral f,
    "",
    "",
    "class " ++ f.name ++ "(FakeHubClientBase, " ++ f.bindingName ++ "):",
    "    \"\"\"Test double for " ++ f.bindingName ++ ".\"\"\"",
    "",
    "    __fake__ = FakeBinding.model_validate_json(_FAKE_JSON)",
    ""] ++
  indented 1 (f.invoke.flatMap (fakeInvokeLines cancellationType) ++
    f.push.flatMap (fakePushLines cancellationType))

-- The source of a fake.
def fake (f : FakeBinding) (cancellationType : String) (package : Option String) : String :=
  joined (fakeLines f cancellationType package)

end HubContract.Source
