import HubContract.Contract.Walk
import HubContract.Diagnostic

namespace HubContract

-- What rules look at.
structure Subject where
  contract : Contract
  push : List WalkedMethod
  invoke : List WalkedMethod

structure Violation where
  message : String
  location : Location
  fixes : List Fix := []
  deriving DecidableEq, Repr

-- A rule looks at a contract after walking and dropping duplicates, and reports every offending
-- method.
structure Rule where
  id : String
  code : Code
  description : String
  check : Subject → List Violation

namespace Rule

-- The sides that a method on the bridge can move to.
def moveTargets (c : Contract) : List (FixKind × String) :=
  c.pushSet.toList.map (fun s => (.moveToPush, s.name)) ++
    c.invokeSet.toList.map (fun s => (.moveToInvoke, s.name))

def bridgeViolation (c : Contract) (w : WalkedMethod) : Violation where
  message := "Method '" ++ w.method.name ++ "' is declared on hub client '" ++ w.provenance ++
    "'; move it to the push or invoke set"
  location := ⟨w.provenance, some w.method.name⟩
  fixes := (moveTargets c).map fun (kind, target) =>
    Fix.of kind ("Move '" ++ w.method.name ++ "' to " ++ target) w.provenance w.method target

-- The bridge of a separated contract has no methods of its own, nor has what it extends.
def noMethodsOnBridge : Rule where
  id := "NO_METHODS_ON_BRIDGE"
  code := .methodOnBridge
  description := "A separated hub client declares no methods of its own"
  check s :=
    if s.contract.isSeparated then (s.contract.ownSet.walk none).map (bridgeViolation s.contract)
    else []

def unitText : String := ReturnType.unitAsync.text

-- The fix that changes a return type.
def retype (kind : FixKind) (w : WalkedMethod) (target : String) : Fix :=
  Fix.of kind ("Change the return type of '" ++ w.method.name ++ "' to " ++ target)
    w.provenance w.method target

def pushFix (w : WalkedMethod) : Fix :=
  if w.method.returns.kind = .valueAsync then
    Fix.of .dropPayload ("Drop the payload of '" ++ w.method.name ++ "' and return " ++ unitText)
      w.provenance w.method unitText
  else retype .wrapUnitAsync w unitText

def pushViolation (w : WalkedMethod) : Violation where
  message := "Push method '" ++ w.method.name ++ "' on '" ++ w.provenance ++ "' must return " ++
    unitText ++ ", not " ++ w.method.returns.text
  location := ⟨w.provenance, some w.method.name⟩
  fixes := [pushFix w]

-- A push method carries no result and is asynchronous.
def pushReturnsUnit : Rule where
  id := "PUSH_RETURNS_UNIT"
  code := .pushReturnShape
  description := "Push methods return Awaitable[None]"
  check s := (s.push.filter (·.method.returns.kind ≠ .unitAsync)).map pushViolation

-- A plain payload is kept when its type becomes asynchronous.
def invokeFix (w : WalkedMethod) : Fix :=
  if w.method.returns.kind = .value then
    retype .wrapValueAsync w (ReturnType.text ⟨.valueAsync, w.method.returns.typeName⟩)
  else retype .wrapUnitAsync w unitText

def invokeViolation (w : WalkedMethod) : Violation where
  message := "Invoke method '" ++ w.method.name ++ "' on '" ++ w.provenance ++
    "' must return an awaitable, not " ++ w.method.returns.text
  location := ⟨w.provenance, some w.method.name⟩
  fixes := [invokeFix w]

-- An invoke method is asynchronous.
def invokeIsAsync : Rule where
  id := "INVOKE_IS_ASYNC"
  code := .invokeReturnShape
  description := "Invoke methods return an awaitable"
  check s := (s.invoke.filter (!·.method.returns.isAsync)).map invokeViolation

-- A rule of its own name against the methods with a certain name on one side.
def forbidden (id : String) (code : Code) (role : Role) (method : String) : Rule where
  id
  code
  description := id
  check s :=
    let side := match role with
      | .push => s.push
      | .invoke => s.invoke
    (side.filter (·.method.name = method)).map fun w =>
      { message := "No " ++ w.method.name, location := ⟨w.provenance, some w.method.name⟩ }

end Rule

-- Rules in the order of their registration.
abbrev RuleSet := List Rule

namespace RuleSet

def builtIn : RuleSet := [.noMethodsOnBridge, .pushReturnsUnit, .invokeIsAsync]

-- Add a rule. One with the same identifier is replaced and keeps its place.
def register (rules : RuleSet) (r : Rule) : RuleSet :=
  if rules.any (·.id = r.id) then rules.map fun s => if s.id = r.id then r else s
  else rules ++ [r]

def unregister (rules : RuleSet) (id : String) : RuleSet := rules.filter (·.id ≠ id)

def get? (rules : RuleSet) (id : String) : Option Rule := rules.find? (·.id = id)

def ids (rules : RuleSet) : List String := rules.map (·.id)

-- What all rules report, each violation with its rule.
def checkAll (rules : RuleSet) (s : Subject) : List (Rule × Violation) :=
  rules.flatMap fun r => (r.check s).map fun v => (r, v)

end HubContract.RuleSet
