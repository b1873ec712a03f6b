import HubContract.Contract.Walk
import HubContract.Data.Check
import HubContract.Diagnostic

namespace HubContract

open HubContract.Text

-- A table of words for a type whose values have names.
def namesOf (all : List α) (name : α → String) : List (String × α) := all.map fun a => (name a, a)

namespace Parameter

def toJson (p : Parameter) : Json := .object [("name", .str p.name), ("type", .str p.type)]

def check : Data → Check Parameter :=
  Data.checkRecord fun d =>
    mk <$> d.field "name" Data.checkString <*> d.field "type" Data.checkString

end Parameter

namespace ReturnType

def toJson (r : ReturnType) : Json :=
  .object [("kind", .str r.kind.name), ("type_name", .ofOption .str r.typeName)]

def check : Data → Check ReturnType :=
  Data.checkRecord fun d =>
    mk <$> d.field "kind" (Data.checkWord (namesOf ReturnKind.all ReturnKind.name))
      <*> d.fieldOr "type_name" none (Data.checkOptional Data.checkString)

end ReturnType

namespace Method

def toJson (m : Method) : Json :=
  .object [
    ("name", .str m.name),
    ("parameters", .ofList Parameter.toJson m.parameters),
    ("returns", m.returns.toJson),
    ("owner", .str m.owner),
    ("invoke", .bool m.invoke)]

def check : Data → Check Method :=
  Data.checkRecord fun d =>
    mk <$> d.field "name" Data.checkString
      <*> d.fieldOr "parameters" [] (Data.checkList Parameter.check)
      <*> d.fieldOr "returns" .unitAsync ReturnType.check
      <*> d.fieldOr "owner" "" Data.checkString
      <*> d.fieldOr "invoke" false Data.checkBool

end Method

namespace MethodSet

mutual

def toJson : MethodSet → Json
  | ⟨name, methods, ancestors⟩ =>
    .object [
      ("name", .str name),
      ("methods", .ofList Method.toJson methods),
      ("ancestors", .array (allToJson ancestors))]

def allToJson : List MethodSet → List Json
  | [] => []
  | s :: rest => toJson s :: allToJson rest

end

-- A set whose methods without an owner become its own.
def owned (name : String) (methods : List Method) (ancestors : List MethodSet) : MethodSet :=
  ⟨name, methods.map (Method.claimedBy name), ancestors⟩

-- The fields of a set whose ancestors are read by `ancestor`.
def checkFields (ancestor : Data → Check MethodSet) : Data → Check MethodSet :=
  Data.checkRecord fun d =>
    owned <$> d.field "name" Data.checkString
      <*> d.fieldOr "methods" [] (Data.checkList Method.check)
      <*> d.fieldOr "ancestors" [] (Data.checkList ancestor)

-- A set inside another record, with room for that many sets down every path.
def checkWithin : Nat → Data → Check MethodSet
  | 0, _ => .fail .tooDeep
  | room + 1, d => checkFields (checkWithin room) d

-- How many sets inside each other are read and written.
def maxNesting : Nat := 254

mutual

-- How many sets stand inside each other, at most.
def nesting : MethodSet → Nat
  | ⟨_, _, ancestors⟩ => nestingAll ancestors + 1

def nestingAll : List MethodSet → Nat
  | [] => 0
  | s :: rest => max (nesting s) (nestingAll rest)

end

def checkNested : Data → Check MethodSet := checkWithin maxNesting

-- A set on its own.
def check : Data → Check MethodSet := checkFields checkNested

end MethodSet

namespace Contract

def toJson (c : Contract) : Json :=
  .object [
    ("name", .str c.name),
    ("uri", .str c.uri),
    ("friendly_name", .ofOption .str c.friendlyName),
    ("push_set", .ofOption MethodSet.toJson c.pushSet),
    ("invoke_set", .ofOption MethodSet.toJson c.invokeSet),
    ("methods", .ofList Method.toJson c.methods),
    ("ancestors", .ofList MethodSet.toJson c.ancestors)]

-- Whether no set is nested too deep for writing.
def isWritable (c : Contract) : Bool :=
  (c.pushSet.toList ++ c.invokeSet.toList ++ c.ancestors).all (·.nesting ≤ MethodSet.maxNesting)

def owned (name uri : String) (friendlyName : Option String) (pushSet invokeSet : Option MethodSet)
    (methods : List Method) (ancestors : List MethodSet) : Contract :=
  ⟨name, uri, friendlyName, pushSet, invokeSet, methods.map (Method.claimedBy name), ancestors⟩

def check : Data → Check Contract :=
  Data.checkRecord fun d =>
    owned <$> d.field "name" Data.checkString
      <*> d.fieldOr "uri" "" Data.checkString
      <*> d.fieldOr "friendly_name" none (Data.checkOptional Data.checkString)
      <*> d.fieldOr "push_set" none (Data.checkOptional MethodSet.checkNested)
      <*> d.fieldOr "invoke_set" none (Data.checkOptional MethodSet.checkNested)
      <*> d.fieldOr "methods" [] (Data.checkList Method.check)
      <*> d.fieldOr "ancestors" [] (Data.checkList MethodSet.checkNested)

end Contract

def Role.check : Data → Check Role := Data.checkWord (namesOf Role.all Role.name)

namespace WalkedMethod

def toJson (w : WalkedMethod) : Json :=
  .object [("method", w.method.toJson), ("role", .str w.role.name), ("provenance", .str w.provenance)]

def check : Data → Check WalkedMethod :=
  Data.checkRecord fun d =>
    mk <$> d.field "method" Method.check <*> d.field "role" Role.check
      <*> d.field "provenance" Data.checkString

end WalkedMethod

namespace Location

def toJson (l : Location) : Json :=
  .object [("declaration", .str l.declaration), ("method", .ofOption .str l.method)]

def check : Data → Check Location :=
  Data.checkRecord fun d =>
    mk <$> d.field "declaration" Data.checkString
      <*> d.fieldOr "method" none (Data.checkOptional Data.checkString)

end Location

namespace Fix

def toJson (f : Fix) : Json :=
  .object [
    ("key", .str f.key),
    ("kind", .str f.kind.name),
    ("title", .str f.title),
    ("declaration", .str f.declaration),
    ("method", .str f.method),
    ("target", .str f.target)]

def check : Data → Check Fix :=
  Data.checkRecord fun d =>
    mk <$> d.field "key" Data.checkString
      <*> d.field "kind" (Data.checkWord (namesOf FixKind.all FixKind.name))
      <*> d.field "title" Data.checkString
      <*> d.field "declaration" Data.checkString
      <*> d.field "method" Data.checkString
      <*> d.field "target" Data.checkString

end Fix

namespace Diagnostic

def toJson (d : Diagnostic) : Json :=
  .object [
    ("id", .str d.id),
    ("code", .str d.code.name),
    ("level", .str d.level.name),
    ("message", .str d.message),
    ("source", .str d.source),
    ("location", .ofOption Location.toJson d.location),
    ("fixes", .ofList Fix.toJson d.fixes)]

def check : Data → Check Diagnostic :=
  Data.checkRecord fun d =>
    mk <$> d.field "id" Data.checkString
      <*> d.field "code" (Data.checkWord (namesOf Code.all Code.name))
      <*> d.field "level" (Data.checkWord (namesOf Level.all Level.name))
      <*> d.field "message" Data.checkString
      <*> d.field "source" Data.checkString
      <*> d.fieldOr "location" none (Data.checkOptional Location.check)
      <*> d.fieldOr "fixes" [] (Data.checkList Fix.check)

end Diagnostic

namespace TraceEntry

def toJson (t : TraceEntry) : Json :=
  .object [
    ("id", .str t.id),
    ("pass_name", .str t.passName),
    ("action", .str t.action),
    ("before", .ofOption .str t.before),
    ("after", .ofOption .str t.after),
    ("affected_ids", .strings t.affectedIds)]

def check : Data → Check TraceEntry :=
  Data.checkRecord fun d =>
    mk <$> d.field "id" Data.checkString
      <*> d.field "pass_name" Data.checkString
      <*> d.field "action" Data.checkString
      <*> d.fieldOr "before" none (Data.checkOptional Data.checkString)
      <*> d.fieldOr "after" none (Data.checkOptional Data.checkString)
      <*> d.fieldOr "affected_ids" [] (Data.checkList Data.checkString)

end HubContract.TraceEntry
