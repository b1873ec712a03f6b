import HubContract.Binding.Basic
import HubContract.Data.Check
import HubContract.Naming
import HubContract.Text.Order
import HubContract.Text.Quoted

namespace HubContract

open HubContract.Text

-- Why no fake can be made.
inductive ManifestError where
  -- a class without a manifest
  | absent (className : String)
  | invalid (issues : List Issue)
  -- something that is neither a manifest nor the text of one
  | unknownSource (kind : String)
  | unsupportedVersion (binding version : String)
  | wrongRole (binding wireName : String) (listed described : Role)
  | missingHandler (binding wireName : String)
  | duplicateAttributes (binding : String) (names : List String)
  | duplicateWireNames (binding : String)
  | collision (binding : String) (names : List String)
  deriving Repr

namespace ManifestError

-- The message, without the list of issues.
def message : ManifestError → String
  | .absent c => c ++ " carries no __manifest__"
  | .invalid _ => "Unrecognized manifest: "
  | .unknownSource k => "Unrecognized manifest source: " ++ k
  | .unsupportedVersion b v =>
    b ++ ": manifest version " ++ quoted v ++ " is not supported (expected " ++
      quoted manifestVersion ++ ")"
  | .wrongRole b w listed described =>
    b ++ ": '" ++ w ++ "' is listed as " ++ listed.name ++ " but describes a " ++ described.name ++
      " member"
  | .missingHandler b w => b ++ ": push member '" ++ w ++ "' has no handler"
  | .duplicateAttributes b names => b ++ ": duplicate attribute(s): " ++ ", ".intercalate names
  | .duplicateWireNames b => b ++ ": duplicate wire names"
  | .collision b names => b ++ ": fake members collide: " ++ ", ".intercalate names

def issues : ManifestError → List Issue
  | .invalid is => is
  | _ => []

end ManifestError

structure FakeInvokeMember where
  identifier : String
  wireName : String
  methodName : String
  callsAttribute : String
  behaviorAttribute : String
  parameters : List Parameter := []
  -- The literal that a lenient fake answers with.
  defaultResult : String := "None"
  deriving DecidableEq, Repr, Inhabited

structure FakePushMember where
  identifier : String
  wireName : String
  slotName : String
  eventsAttribute : String
  simulateName : String
  waitName : String
  parameters : List Parameter := []
  deriving DecidableEq, Repr, Inhabited

structure FakeBinding where
  name : String
  bindingName : String
  bindingModule : String
  invoke : List FakeInvokeMember := []
  push : List FakePushMember := []
  deriving DecidableEq, Repr, Inhabited

namespace FakeBinding

def invokeMember? (f : FakeBinding) (wireName : String) : Option FakeInvokeMember :=
  f.invoke.find? (·.wireName = wireName)

def pushMember? (f : FakeBinding) (wireName : String) : Option FakePushMember :=
  f.push.find? (·.wireName = wireName)

-- Every attribute that the fake adds to those of the binding.
def attributeNames (f : FakeBinding) : List String :=
  f.invoke.flatMap (fun m => [m.callsAttribute, m.behaviorAttribute]) ++
    f.push.flatMap (fun m => [m.eventsAttribute, m.simulateName, m.waitName])

end FakeBinding

-- Values that a lenient fake answers with.
inductive EmptyValue where
  | nothing
  | integer
  | float
  | complex
  | text
  | bytes
  | falsehood
  | list
  | mapping
  | tuple
  deriving DecidableEq, Repr, Inhabited

namespace EmptyValue

def literal : EmptyValue → String
  | .nothing => "None"
  | .integer => "0"
  | .float => "0.0"
  | .complex => "0j"
  | .text => "''"
  | .bytes => "b''"
  | .falsehood => "False"
  | .list => "[]"
  | .mapping => "\x7b\x7d"
  | .tuple => "()"

def all : List EmptyValue :=
  [.nothing, .integer, .float, .complex, .text, .bytes, .falsehood, .list, .mapping, .tuple]

-- The value of a literal; one that is not known counts as nothing.
def ofLiteral (s : String) : EmptyValue := (all.find? (·.literal = s)).getD .nothing

-- Empty values by the head of a result type.
def byType : List (String × EmptyValue) := [
  ("int", .integer), ("float", .float), ("complex", .complex), ("str", .text), ("bytes", .bytes),
  ("bool", .falsehood), ("list", .list), ("List", .list), ("Sequence", .list), ("dict", .mapping),
  ("Dict", .mapping), ("Mapping", .mapping), ("tuple", .tuple), ("Tuple", .tuple)]

end EmptyValue

-- The name at the front of a type, a leading module name being passed over.
def headOfType (cs : List Char) : List Char :=
  let lead := "typing.".toList
  let cs := match cs.drop lead.length with
    | c :: r => if lead.isPrefixOf cs && (isAsciiLetter c || c = '_') then c :: r else cs
    | [] => cs
  match cs with
  | c :: r => if isAsciiLetter c || c = '_' then c :: r.takeWhile Naming.isPlain else []
  | [] => []

-- What a lenient fake answers with for a declared result type.
def defaultResult (resultType : Option String) : EmptyValue :=
  match resultType with
  | none => .nothing
  | some t =>
    (EmptyValue.byType.lookup (String.ofList (headOfType (trimChars t.toList)))).getD .nothing

namespace Manifest

def checkMember (m : Manifest) (side : Role) (d : MemberDescriptor) : Except ManifestError Unit :=
  if d.role ≠ side then .error (.wrongRole m.bindingName d.wireName side d.role)
  else if side = .push ∧ (d.handler = none ∨ d.handler = some "") then
    .error (.missingHandler m.bindingName d.wireName)
  else .ok ()

-- Refuse what a fake cannot stand in for.
def verify (m : Manifest) : Except ManifestError Unit := do
  if m.version ≠ manifestVersion then .error (.unsupportedVersion m.bindingName m.version)
  m.push.forM (m.checkMember .push)
  m.invoke.forM (m.checkMember .invoke)
  let duplicates := repeated m.attributes
  if !duplicates.isEmpty then .error (.duplicateAttributes m.bindingName duplicates)
  if !(repeated (m.push.map (·.wireName))).isEmpty ∨ !(repeated (m.invoke.map (·.wireName))).isEmpty
  then .error (.duplicateWireNames m.bindingName)

-- The parameters of a member whose values are recorded.
def recordedParameters (m : Manifest) (d : MemberDescriptor) : List Parameter :=
  withoutCancellation m.cancellationType d.parameters

def fakeInvokeMember (m : Manifest) (d : MemberDescriptor) : FakeInvokeMember :=
  let base := Naming.dropLead d.attributeName "invoke_"
  ⟨d.identifier, d.wireName, d.attributeName, base ++ "_calls", base ++ "_behavior",
    m.recordedParameters d, (defaultResult d.resultType).literal⟩

def fakePushMember (m : Manifest) (d : MemberDescriptor) : FakePushMember :=
  let base := Naming.dropLead d.attributeName "on_"
  ⟨d.identifier, d.wireName, d.attributeName, base ++ "_events", "simulate_" ++ base,
    "wait_for_" ++ base, m.recordedParameters d⟩

-- The fake of a manifest, its class name being led in by `lead`.
def synthesizeFake (m : Manifest) (lead : String) : Except ManifestError FakeBinding := do
  m.verify
  let fake : FakeBinding := ⟨lead ++ m.bindingName, m.bindingName, m.bindingModule,
    m.invoke.map m.fakeInvokeMember, m.push.map m.fakePushMember⟩
  let duplicates := repeated (fake.attributeNames ++ m.attributes)
  if duplicates.isEmpty then return fake else .error (.collision m.bindingName duplicates)

end HubContract.Manifest
