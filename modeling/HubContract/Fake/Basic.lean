import HubContract.Client.Basic
import HubContract.Endpoint.Interchange
import HubContract.Fake.Class

namespace HubContract.Fake

-- A fake of a class with empty logs and channels.
def build (c : FakeClass) (strict : Value) : Except CallError Endpoint :=
  let e : Endpoint := { blueprint := c.blueprint }
  match c.blueprint.buildFault?, c.blueprint.find? "__init__" with
  | none, some (.prompt .setUpFake) =>
    match (Act.setUpFake (.value strict)).run e with
    | (.ok (), e) => .ok e
    | (.error (.error c), _) => .error c
    | (.error (.waiting ..), e) => .ok e
  | some f, _ => .error (.fault f)
  | none, _ => .error (.fault .kind)

-- Log a call by its wire name and answer it.
def invoke (wireName : Value) (arguments default : Value) : Act Value :=
  Act.awaitName Act.await "_fake_invoke" [wireName, arguments, default]

-- Simulate an event by its wire name.
def simulate (wireName arguments : Value) : Act Value :=
  Act.awaitName Act.await "_simulate" [wireName, arguments]

-- Wait for an event by its wire name.
def waitFor (wireName token : Value) : Act Value :=
  Act.awaitName Act.await "_wait_for" [wireName, token]

-- Clear every log and reset every channel.
def reset : Act Value := do
  let _ ← Act.callName "reset" [] none
  return .null

-- Start a task that awaits a member.
def startTask (name : Value) (arguments : List Value) (token : Keyword) : Act Nat := do
  match ← Act.callName (← Act.nameOf name) arguments token with
  | .pending p =>
    let (n, e) := (← get).startTask p
    set e
    return n
  | _ => Act.fault .kind

-- How many values the channel of a wire name holds.
def pending (wireName : Value) : Act Nat := do
  match ← Act.callName "channel" [wireName] none with
  | .channel n => return ((← get).loop.channel n).items.length
  | _ => Act.fault .attribute

-- What a fake has recorded: calls and events by the attributes that hold them, and by wire name how
-- many values its channels hold.
def records (f : FakeBinding) : Act (List (String × Json)) := do
  let calls ← f.invoke.mapM fun m => do return (m.callsAttribute, ← Act.readJson m.callsAttribute)
  let events ← f.push.mapM fun m => do return (m.eventsAttribute, ← Act.readJson m.eventsAttribute)
  let held ← f.push.mapM fun m => do
    return (m.wireName, Json.int (← pending (.ofText m.wireName)))
  return [("calls", .object calls), ("events", .object events), ("pending", .object held)]

end HubContract.Fake
