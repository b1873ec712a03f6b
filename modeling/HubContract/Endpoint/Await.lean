import HubContract.Endpoint.Call

namespace HubContract.Act

-- A token that has fired ends a call.
def refuseIfFired (token : Value) : Act Unit := do
  match token with
  | .token t => if (← get).loop.hasFired t then refuse .canceled
  | v => if !v.isNull then fault .attribute

def hasConnection : Act Unit := do
  match ← read "_connection" with
  | .connection => pure ()
  | _ => fault .attribute

def itemsOf (v : Value) : Act (List Value) := do
  match v.items? with
  | some vs => pure vs
  | none => fault .kind

def recorded (arguments : Value) : Act Value := orFault arguments.recorded

-- Add to the list that a name holds.
def append (name : String) (value : Act Value) : Act Unit := do
  match ← read name with
  | .value log =>
    match log.list? with
    | some vs => assign name (.value (.list (vs ++ [← value])))
    | none => fault .attribute
  | _ => fault .attribute

def asInvokeMember : Held → Act FakeInvokeMember
  | .invokeMember m => pure m
  | _ => fault .attribute

def asPushMember : Held → Act FakePushMember
  | .pushMember m => pure m
  | _ => fault .attribute

-- Wait for the next value of a channel.
def waitOn (channel : Nat) (token : Value) : Act Value := do
  let token ← match token with
    | .token t => pure (some t)
    | v => if v.isNull then pure none else fault .attribute
  let e ← get
  let (wait, loop) := e.loop.waitNow channel token
  set { e with loop }
  match loop.ending? wait with
  | some (.value v) => pure v
  | some (.failed f) => refuse (.wait f)
  | some .abandoned | none => throw (.waiting wait true)

section

-- What awaiting does to the outcome of another call.
variable (await : Held → Act Value)

-- Call what a name holds and await that.
def awaitName (name : String) (arguments : List Value) : Act Value := do
  await (← callName name arguments none)

-- Run what is in a slot, if there is anything.
def runSlot (slot : String) (arguments : Value) : Act Value := do
  let h ← read slot
  if h.isNull then pure .null
  else muted do await (← call h (← itemsOf arguments) none)

def checkArity (name : String) (expected given : Nat) : Act Unit :=
  if given = expected then pure () else refuse (.wrongArity name expected given)

def startClient : Act Value := do
  hasConnection
  let _ ← ask .start
  assign "_started" (.value (.ofBool true))
  pure .null

-- A client that is not started has nothing to stop.
def stopClient : Act Value := do
  if (← read "_started").isTruthy then
    hasConnection
    let _ ← ask .stop
    assign "_started" (.value (.ofBool false))
  pure .null

-- Invoke a method of the server.
def invoke (wireName arguments token : Value) : Act Value := do
  if !(← read "_started").isTruthy then refuse (.notStarted (← className) wireName.text)
  refuseIfFired token
  hasConnection
  ask (.invoke wireName (← itemsOf arguments) token)

-- Answer from a behavior. Its answer may have to be awaited, but need not.
def behave (h : Held) (arguments : Value) : Act Value := do
  match ← call h (← itemsOf arguments) none with
  | .pending p => await (.pending p)
  | h => pure h.toValue

-- Log the call, and answer from the behavior or, without one, with the default unless the fake is
-- strict.
def fakeInvoke (wireName arguments default : Value) : Act Value := do
  let member ← callName "_invoke_member" [wireName] none
  hasLock
  let m ← asInvokeMember member
  append m.callsAttribute (recorded arguments)
  let behavior ← read m.behaviorAttribute
  if !behavior.isNull then behave await behavior arguments
  else if (← read "strict").isTruthy then refuse (.noBehavior (← className) m.methodName)
  else pure default

-- Log the event and publish it, and then run what is in the slot.
def simulate (wireName arguments : Value) : Act Value := do
  let member ← callName "_push_member" [wireName] none
  let value ← recorded arguments
  hasLock
  let m ← asPushMember member
  append m.eventsAttribute (pure value)
  let channel ← channelOf wireName
  modify fun e => { e with loop := e.loop.publish channel value }
  runSlot await m.slotName arguments

-- Only objects can be asked to go on.
def ofObject (r : Routine) : Act Unit := if r.isOfClass then fault .attribute else pure ()

def runRoutine (r : Routine) (arguments : List Value) (token : Value) : Act Value := do
  match r, arguments with
  | .thunk name slot, vs =>
    if (Routine.thunk name slot).isOfClass then pure .null else runSlot await slot (.tuple vs)
  | .wrapper name wireName arity, vs =>
    checkArity name arity vs.length
    ofObject (.wrapper name wireName arity)
    awaitName await "_invoke" [.ofText wireName, .tuple vs, token]
  | .start, _ => startClient
  | .stop, _ => stopClient
  | .invoke, [wireName, vs] => invoke wireName vs token
  | .fakeStart, _ => do
    assign "_started" (.value (.ofBool true))
    pure .null
  | .fakeStop, _ => do
    assign "_started" (.value (.ofBool false))
    pure .null
  | .fakeInvoke, [wireName, vs, default] => fakeInvoke await wireName vs default
  | .simulate, [wireName, vs] => simulate await wireName vs
  | .waitFor, [wireName] => do waitOn (← channelOf wireName) token
  | .answer m, vs =>
    checkArity m.methodName m.parameters.length vs.length
    ofObject (.answer m)
    awaitName await "_fake_invoke"
      [.ofText m.wireName, .tuple vs, .empty (.ofLiteral m.defaultResult)]
  | .simulator m, vs =>
    checkArity m.simulateName m.parameters.length vs.length
    muted (awaitName await "_simulate" [.ofText m.wireName, .tuple vs])
  | .waiter m, _ => awaitName await "_wait_for" [.ofText m.wireName, token]
  | _, _ => fault .kind

end

-- Run a pending call; `fuel` bounds how deep calls are awaited within calls.
def runPending : Nat → Pending → Act Value
  | _, .callback c arguments => runCallback c arguments
  | 0, .routine .. => fault .recursion
  | fuel + 1, .routine r arguments token =>
    runRoutine (fun h => match h with
      | .pending p => runPending fuel p
      | _ => fault .kind) r arguments token

-- A call that is met again within itself goes on without end, but for one that refuses its
-- arguments the second time.
def fuel (b : Blueprint) : Nat := 2 * b.size

-- Await what a call gave.
def await (h : Held) : Act Value := do
  match h with
  | .pending p => runPending (fuel (← get).blueprint) p
  | _ => fault .kind

end HubContract.Act
