import HubContract.Signature.Method
import HubContract.Text.Numeral

namespace HubContract

open HubContract.Text

inductive Level where
  | info
  | warning
  | error
  deriving DecidableEq, Repr, Inhabited

namespace Level

def name : Level → String
  | .info => "info"
  | .warning => "warning"
  | .error => "error"

def all : List Level := [.info, .warning, .error]

end Level

inductive Code where
  | methodOnBridge
  | pushReturnShape
  | invokeReturnShape
  | missingUri
  | duplicateSignature
  | unrecognizedManifest
  | unknownFakeTarget
  | unresolvedReference
  | inheritanceCycle
  | passError
  | duplicateBindingName
  | invalidBindingName
  | sharedWireName
  deriving DecidableEq, Repr, Inhabited

namespace Code

-- The stable identifier of a code.
def name : Code → String
  | .methodOnBridge => "HG0001"
  | .pushReturnShape => "HG0002"
  | .invokeReturnShape => "HG0003"
  | .missingUri => "HG0004"
  | .duplicateSignature => "HG0005"
  | .unrecognizedManifest => "HG0006"
  | .unknownFakeTarget => "HG0007"
  | .unresolvedReference => "HG0008"
  | .inheritanceCycle => "HG0009"
  | .passError => "HG0010"
  | .duplicateBindingName => "HG0011"
  | .invalidBindingName => "HG0012"
  | .sharedWireName => "HG0013"

def all : List Code := [.methodOnBridge, .pushReturnShape, .invokeReturnShape, .missingUri,
  .duplicateSignature, .unrecognizedManifest, .unknownFakeTarget, .unresolvedReference,
  .inheritanceCycle, .passError, .duplicateBindingName, .invalidBindingName, .sharedWireName]

end Code

inductive FixKind where
  | moveToPush
  | moveToInvoke
  | dropPayload
  | wrapUnitAsync
  | wrapValueAsync
  deriving DecidableEq, Repr, Inhabited

namespace FixKind

def name : FixKind → String
  | .moveToPush => "move_to_push"
  | .moveToInvoke => "move_to_invoke"
  | .dropPayload => "drop_payload"
  | .wrapUnitAsync => "wrap_unit_async"
  | .wrapValueAsync => "wrap_value_async"

def all : List FixKind := [.moveToPush, .moveToInvoke, .dropPayload, .wrapUnitAsync, .wrapValueAsync]

-- Fixes that move a method to another declaration; the others change its return type.
def isMove : FixKind → Bool
  | .moveToPush | .moveToInvoke => true
  | .dropPayload | .wrapUnitAsync | .wrapValueAsync => false

end FixKind

-- A declaration and possibly one of its methods.
structure Location where
  declaration : String
  method : Option String := none
  deriving DecidableEq, Repr, Inhabited

def Location.text (l : Location) : String :=
  match l.method with
  | none => l.declaration
  | some m => if m = "" then l.declaration else l.declaration ++ "." ++ m

-- A change of one method, which is found by its declaration and signature key. The target is the
-- declaration that it moves to, or its new return type.
structure Fix where
  key : String
  kind : FixKind
  title : String
  declaration : String
  method : String
  target : String
  deriving DecidableEq, Repr, Inhabited

-- A fix with the key under which it can be selected.
def Fix.of (kind : FixKind) (title owner : String) (m : Method) (target : String) : Fix :=
  ⟨kind.name ++ ":" ++ owner ++ "." ++ m.signatureKey, kind, title, owner, m.signatureKey, target⟩

structure Diagnostic where
  id : String
  code : Code
  level : Level
  message : String
  source : String
  location : Option Location := none
  fixes : List Fix := []
  deriving DecidableEq, Repr, Inhabited

namespace Diagnostic

def isError (d : Diagnostic) : Bool := d.level = .error

-- The identifier of the n-th diagnostic of a subject, counted from one.
def numbered (subject : String) (n : Nat) : String := subject ++ ":d" ++ padded 3 n

-- A line that says where and what, and a line for every fix.
def text (d : Diagnostic) : String :=
  let place := (d.location.map Location.text).getD d.source
  "\n".intercalate
    ((place ++ ": " ++ d.level.name ++ " " ++ d.code.name ++ ": " ++ d.message) ::
      d.fixes.map fun f => "    fix [" ++ f.key ++ "]: " ++ f.title)

end Diagnostic

structure TraceEntry where
  id : String
  passName : String
  action : String
  before : Option String := none
  after : Option String := none
  affectedIds : List String := []
  deriving DecidableEq, Repr, Inhabited

def TraceEntry.numbered (subject : String) (n : Nat) : String := subject ++ ":t" ++ padded 3 n

end HubContract
