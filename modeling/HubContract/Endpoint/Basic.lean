import HubContract.Channel.Loop
import HubContract.Endpoint.Blueprint
import HubContract.Text.Numeral

namespace HubContract

open HubContract.Text

-- What a connection is asked for.
inductive ConnectionCall where
  | start
  | stop
  | invoke (wireName : Value) (arguments : List Value) (token : Value)
  deriving Repr

-- Why a call ends without an answer.
inductive CallError where
  | notStarted (className wireName : String)
  -- the token of the call has fired
  | canceled
  | wrongArity (member : String) (expected given : Nat)
  | noInvokeMember (className wireName : String)
  | noPushMember (className wireName : String)
  | noBehavior (className member : String)
  | noModel (className : String)
  | wait (failure : WaitFailure)
  | fault (fault : Fault)
  -- what a connection or a callback fails with
  | failed
  deriving DecidableEq, Repr

-- The message, where the error has one of its own.
def CallError.message? : CallError → Option String
  | .notStarted c w => some (c ++ ".start() must be awaited before invoking '" ++ w ++ "'")
  | .canceled => some "The operation was canceled"
  | .wrongArity m n k =>
    some (m ++ "() takes " ++ natural n ++ " argument(s), got " ++ natural k)
  | .noInvokeMember c w => some ("No invoke method '" ++ w ++ "' on " ++ c)
  | .noPushMember c w => some ("No push method '" ++ w ++ "' on " ++ c)
  | .noBehavior c m => some (c ++ "." ++ m ++ " has no behavior configured")
  | .noModel c => some (c ++ " has no __fake__ model")
  | .wait f => some f.message
  | .fault _ | .failed => none

-- How a connection answers.
abbrev Connection := ConnectionCall → Except CallError Value

-- Something that is put into a slot or taken as a behavior.
structure Callback where
  -- The name under which its runs are noted, if they are.
  label : Option String := none
  -- Whether its answer has to be awaited.
  isAwaited : Bool := true
  -- The only number of arguments that it takes; if there is none, it takes any.
  arity : Option Nat := none
  answer : List Value → Except CallError Value

-- One run of a callback. The arguments are left out if it takes none.
structure Note where
  label : String
  arguments : Option (List Value)
  deriving Repr

-- A call that does something only when it is awaited.
inductive Pending where
  | routine (routine : Routine) (arguments : List Value) (token : Value)
  | callback (callback : Callback) (arguments : List Value)

-- What a name can hold and a call can give.
inductive Held where
  | value (value : Value)
  | callback (callback : Callback)
  | routine (routine : Routine)
  | prompt (prompt : Prompt)
  | pending (pending : Pending)
  | kind
  | connection
  | lock
  -- the channels of a fake by wire name
  | channels (numbers : Table Nat)
  | channel (number : Nat)
  | model (model : FakeBinding)
  | invokeMember (member : FakeInvokeMember)
  | pushMember (member : FakePushMember)

namespace Held

def null : Held := .value .null

def isNull : Held → Bool
  | .value v => v.isNull
  | _ => false

def isTruthy : Held → Bool
  | .value v => v.isTruthy
  | .channels t => !t.isEmpty
  | _ => true

-- What is held as a value.
def toValue : Held → Value
  | .value v => v
  | _ => .other

end Held

-- What an attribute gives when it is read.
def Attribute.held : Attribute → Held
  | .routine r => .routine r
  | .prompt p => .prompt p
  | .value v => .value v
  | .model m => .model m
  | .kind => .kind
  | .manifest _ | .property _ | .sealed _ => .value .other

-- A task that awaits a call.
inductive Task where
  -- it has not begun, and may have been cancelled meanwhile
  | fresh (pending : Pending) (isDoomed : Bool)
  -- it waits for a value, which it answers with or else forgets
  | waiting (wait : WaitId) (keeps : Bool)
  | ended (result : Except CallError Value)
  | dropped

-- A client or a fake. A name holds what was assigned to it, or else what the blueprint says.
structure Endpoint where
  blueprint : Blueprint
  connection : Connection := fun _ => .error .failed
  -- What names were assigned, also by the endpoint itself.
  fields : Table Held := []
  -- The handlers that the connection was given, each with its wire name.
  routes : List (Value × Held) := []
  -- The tokens and channels, and what is ready to go on.
  loop : Loop Value := {}
  channelCount : Nat := 0
  tasks : List Task := []
  -- What was asked of the connection, and the noted runs of callbacks.
  asked : List ConnectionCall := []
  notes : List Note := []

-- What ends a step early: an error, or a wait that cannot end yet.
inductive Halt where
  | error (error : CallError)
  | waiting (wait : WaitId) (keeps : Bool)

abbrev Act := ExceptT Halt (StateM Endpoint)

namespace Act

def refuse {α : Type} (e : CallError) : Act α := throw (.error e)

def fault {α : Type} (f : Fault) : Act α := refuse (.fault f)

def orFault {α : Type} : Except Fault α → Act α
  | .ok a => pure a
  | .error f => fault f

-- Forget the answer, also that of a wait.
def muted (x : Act Value) : Act Value :=
  ExceptT.mk do
    match ← x.run with
    | .ok _ => pure (.ok .null)
    | .error (.waiting w _) => pure (.error (.waiting w false))
    | .error (.error e) => pure (.error (.error e))

end Act

namespace Endpoint

-- What a name holds, be it a field or in the blueprint. Names that are not there may be left to a
-- member to find, which gives nothing of use.
def lookField (e : Endpoint) (name : String) : Except Fault Held :=
  match e.fields.get? name, e.blueprint.find? name with
  | some h, _ => .ok h
  | none, some a => .ok a.held
  | none, none =>
    match e.blueprint.find? "__getattr__" with
    | none => .error .attribute
    | some (.value _) => .error .kind
    | some _ => .ok (.value .other)

-- What a name shows. A property shows what its field holds, whatever was assigned to the name.
def look (e : Endpoint) (name : String) : Except Fault Held :=
  match e.blueprint.find? name with
  | some (.property field) => e.lookField field
  | some (.sealed reason) => .ok (Attribute.held (.sealed reason))
  | some .kind => .ok .kind
  | _ => e.lookField name

-- Why a name cannot be assigned.
def sealFault? (e : Endpoint) (name : String) : Option Fault :=
  match e.blueprint.find? name with
  | some (.property _) => some .attribute
  | some .kind => some .kind
  | some (.sealed reason) => some reason
  | _ => none

def assign (e : Endpoint) (name : String) (h : Held) : Except Fault Endpoint :=
  match e.sealFault? name with
  | some f => .error f
  | none => .ok { e with fields := e.fields.set name h }

def erase (e : Endpoint) (name : String) : Except Fault Endpoint :=
  match e.sealFault? name with
  | some f => .error f
  | none =>
    if (e.fields.get? name).isSome then
      .ok { e with fields := e.fields.filter fun (n, _) => n ≠ name }
    else .error .attribute

end Endpoint

namespace Act

def read (name : String) : Act Held := do orFault ((← get).look name)

def assign (name : String) (h : Held) : Act Unit := do set (← orFault ((← get).assign name h))

def erase (name : String) : Act Unit := do set (← orFault ((← get).erase name))

def className : Act String := do return (← get).blueprint.name

-- Ask the connection for something.
def ask (call : ConnectionCall) : Act Value := do
  let e ← get
  set { e with asked := e.asked ++ [call] }
  match e.connection call with
  | .ok v => pure v
  | .error e => refuse e

-- Run a callback, and note that if its runs are noted.
def runCallback (c : Callback) (arguments : List Value) : Act Value := do
  let arguments? := if c.arity = some 0 then none else some arguments
  modify fun e => { e with notes := e.notes ++ c.label.toList.map fun label => ⟨label, arguments?⟩ }
  match c.answer arguments with
  | .error e => refuse e
  | .ok v => pure v

end HubContract.Act
