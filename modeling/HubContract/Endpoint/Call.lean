import HubContract.Endpoint.Basic

namespace HubContract

-- The token of a call, if the call names one; it may be named and absent.
abbrev Keyword := Option Value

-- How the arguments of a call fall on those of a routine, with its token. There is no way if they
-- do not fit.
def Routine.bind (r : Routine) (arguments : List Value) (keyword : Keyword) :
    Option (List Value × Value) :=
  match r, arguments, keyword with
  | .thunk .., vs, none | .simulator _, vs, none => some (vs, .null)
  | .wrapper .., vs, k | .answer _, vs, k => some (vs, k.getD .null)
  | .start, [], none | .stop, [], none | .fakeStart, [], none | .fakeStop, [], none => some ([], .null)
  | .invoke, [wire, vs], k => some ([wire, vs], k.getD .null)
  | .invoke, [wire, vs, token], none => some ([wire, vs], token)
  | .fakeInvoke, [wire, vs], none => some ([wire, vs, .null], .null)
  | .fakeInvoke, [wire, vs, default], none => some ([wire, vs, default], .null)
  | .simulate, [wire, vs], none => some ([wire, vs], .null)
  | .waitFor, [wire], k => some ([wire], k.getD .null)
  | .waitFor, [wire, token], none => some ([wire], token)
  | .waiter _, [], k => some ([], k.getD .null)
  | .waiter _, [token], none => some ([], token)
  | _, _, _ => none

def Callback.takes (c : Callback) (count : Nat) : Bool := c.arity.all (· = count)

namespace Act

-- Call something that is not a prompt.
def launch (h : Held) (arguments : List Value) (keyword : Keyword) : Act Held := do
  match h with
  | .callback c =>
    if keyword.isSome ∨ !c.takes arguments.length then fault .kind
    else if c.isAwaited then pure (.pending (.callback c arguments))
    else return .value (← runCallback c arguments)
  | .routine r =>
    match r.bind arguments keyword with
    | some (arguments, token) => pure (.pending (.routine r arguments token))
    | none => fault .kind
  | _ => fault .kind

-- Clients

-- Give the connection a handler.
def subscribe (wireName : Value) (handler : Held) : Act Unit := do
  match ← read "_connection" with
  | .connection => modify fun e => { e with routes := e.routes ++ [(wireName, handler)] }
  | _ => fault .attribute

-- Have the handlers of a manifest subscribed one after the other.
def registerAll : List MemberDescriptor → Act Unit
  | [] => pure ()
  | d :: ds => do
    let target ← read "_on"
    let handler ← read (d.handler.getD "")
    match target with
    | .prompt .subscribe => subscribe (.ofText d.wireName) handler
    | h => discard (launch h [.ofText d.wireName, handler.toValue] none)
    registerAll ds

def register : Act Unit := do
  match (← get).blueprint.find? "__manifest__" with
  | some (.manifest m) => registerAll m.push
  | some (.value v) => if v.isNull then pure () else fault .attribute
  | _ => fault .attribute

def setUp (server url : Held) : Act Unit := do
  assign "_connection" server
  assign "_url" url
  assign "_started" (.value (.ofBool false))
  match ← read "_register_hub_methods" with
  | .prompt .register => register
  | h => discard (launch h [] none)

-- Fakes

-- The model is that of the blueprint, whatever its name was assigned.
def ownModel : Act Held := do
  match (← get).blueprint.find? "__fake__" with
  | some (.value v) => if v.isNull then refuse (.noModel (← className)) else pure (.value v)
  | some a => pure a.held
  | none => fault .attribute

def readModel : Act Held := do
  match ← read "_fake_model" with
  | .prompt .model => ownModel
  | h => launch h [] none

def asModel : Held → Act FakeBinding
  | .model f => pure f
  | _ => fault .attribute

def ownInvokeMember (wireName : Value) : Act Held := do
  let f ← asModel (← readModel)
  match wireName.text?.bind f.invokeMember? with
  | some m => pure (.invokeMember m)
  | none => refuse (.noInvokeMember (← className) wireName.text)

def ownPushMember (wireName : Value) : Act Held := do
  let f ← asModel (← readModel)
  match wireName.text?.bind f.pushMember? with
  | some m => pure (.pushMember m)
  | none => refuse (.noPushMember (← className) wireName.text)

-- The number of the channel of a wire name.
def channelOf (wireName : Value) : Act Nat := do
  match ← read "_channels" with
  | .channels numbers =>
    if !wireName.isKey then fault .kind
    else
      match wireName.text?.bind numbers.get? with
      | some n => pure n
      | none => fault .key
  | _ => fault .kind

def hasLock : Act Unit := do
  match ← read "_fake_lock" with
  | .lock => pure ()
  | _ => fault .kind

-- Empty the list that a name holds.
def clear (name : String) : Act Unit := do
  match ← read name with
  | .value (.data (.object _)) => assign name (.value (.data (.object [])))
  | .value v => if v.list?.isSome then assign name (.value (.list [])) else fault .attribute
  | _ => fault .attribute

def clearAll : List String → Act Unit
  | [] => pure ()
  | name :: names => do
    clear name
    clearAll names

def resetChannels : Act Unit := do
  match ← read "_channels" with
  | .channels numbers => modify fun e =>
      { e with loop := numbers.foldl (fun l (_, n) => l.reset n) e.loop }
  | _ => fault .attribute

-- Clear every log and reset every channel.
def reset : Act Unit := do
  let model ← readModel
  hasLock
  let f ← asModel model
  clearAll (f.invoke.map (·.callsAttribute))
  clearAll (f.push.map (·.eventsAttribute))
  resetChannels

def assignAll : List (String × Held) → Act Unit
  | [] => pure ()
  | (name, h) :: entries => do
    assign name h
    assignAll entries

-- Give each of some wire names a channel that was never used.
def openChannels (wireNames : List String) : Act Unit := do
  match ← read "_channels" with
  | .channels numbers =>
    let n := (← get).channelCount
    let fresh := wireNames.mapIdx fun i name => (name, n + i)
    assign "_channels" (.channels (numbers.setAll fresh))
    modify fun e => { e with channelCount := n + wireNames.length }
  | _ => fault .kind

def setUpFake (strict : Held) : Act Unit := do
  assignAll [("strict", strict), ("_connection", .null), ("_url", .null),
    ("_started", .value (.ofBool false)), ("_fake_lock", .lock), ("_channels", .channels [])]
  let f ← asModel (← readModel)
  assignAll (f.invoke.flatMap fun m =>
    [(m.callsAttribute, .value (.list [])), (m.behaviorAttribute, .null)])
  assignAll (f.push.map fun m => (m.eventsAttribute, .value (.list [])))
  openChannels (f.push.map (·.wireName))

-- Names are read, assigned and erased as texts.
def nameOf (v : Value) : Act String := do
  match v.text? with
  | some name => pure name
  | none => fault .kind

def silently (x : Act Unit) : Act Held := do
  x
  pure .null

def callPrompt (p : Prompt) (arguments : List Value) : Act Held := do
  match p, arguments with
  | .setUp, [server] => silently (setUp (.value server) .null)
  | .setUp, [server, url] => silently (setUp (.value server) (.value url))
  | .subscribe, [wireName, handler] => silently (subscribe wireName (.value handler))
  | .register, [] => silently register
  | .setUpFake, [] => silently (setUpFake (.value (.ofBool false)))
  | .setUpFake, [strict] => silently (setUpFake (.value strict))
  | .model, [] => ownModel
  | .channel, [wireName] => return .channel (← channelOf wireName)
  | .invokeMember, [wireName] => ownInvokeMember wireName
  | .pushMember, [wireName] => ownPushMember wireName
  | .reset, [] => silently reset
  | .read, [name] => do read (← nameOf name)
  | .write, [name, v] => silently do assign (← nameOf name) (.value v)
  | .erase, [name] => silently do erase (← nameOf name)
  | _, _ => fault .kind

-- Build another endpoint, of which nothing is kept but whether that went well.
def construct (arguments : List Value) : Act Held := do
  let e ← get
  match e.blueprint.find? "__init__" with
  | some (.prompt p) =>
    match (callPrompt p arguments).run { e with fields := [], connection := fun _ => .error .failed } with
    | (.ok _, _) => pure (.value .other)
    | (.error h, _) => throw h
  | _ => fault .kind

def call (h : Held) (arguments : List Value) (keyword : Keyword) : Act Held :=
  match h with
  | .prompt p => if keyword.isSome then fault .kind else callPrompt p arguments
  | .kind => if keyword.isSome then fault .kind else construct arguments
  | h => launch h arguments keyword

-- Call what a name holds.
def callName (name : String) (arguments : List Value) (keyword : Keyword) : Act Held := do
  call (← read name) arguments keyword

end HubContract.Act
