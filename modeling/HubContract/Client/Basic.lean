import HubContract.Client.Class
import HubContract.Endpoint.Await

namespace HubContract

namespace Client

-- A client of a class over a connection.
def build (c : ClientClass) (connection : Connection) (url : Value) : Except CallError Endpoint :=
  let e : Endpoint := { blueprint := c.blueprint, connection }
  match c.blueprint.buildFault?, c.blueprint.find? "__init__" with
  | none, some (.prompt .setUp) =>
    match (Act.setUp .connection (.value url)).run e with
    | (.ok (), e) => .ok e
    | (.error (.error c), _) => .error c
    | (.error (.waiting ..), e) => .ok e
  | some f, _ => .error (.fault f)
  | none, _ => .error (.fault .kind)

-- The handlers of a wire name, in the order of their registration.
def handlersFor (e : Endpoint) (wireName : Value) : List Held :=
  (e.routes.filter (·.1.same wireName)).map (·.2)

def runHandlers (arguments : List Value) : List Held → Act Unit
  | [] => pure ()
  | h :: hs => do
    let _ ← Act.await (← Act.call h arguments none)
    runHandlers arguments hs

-- An event runs the handlers of its wire name one after the other, until one of them fails. The
-- answer is how many there are.
def emit (wireName : Value) (arguments : List Value) : Act Value := do
  let handlers := handlersFor (← get) wireName
  runHandlers arguments handlers
  return .data (.int handlers.length)

-- Call an operation that gives no answer, such as the start of a client.
def operate (name : String) : Act Value := Act.muted do Act.awaitName Act.await name []

-- Call a member by its name.
def invoke (name : Value) (arguments : List Value) (token : Keyword) : Act Value := do
  Act.await (← Act.callName (← Act.nameOf name) arguments token)

-- Invoke a method of the server by its wire name.
def invokeByWire (wireName : Value) (arguments token : Value) : Act Value :=
  Act.awaitName Act.await "_invoke" [wireName, arguments, token]

-- Whether the client shows the connection that it was built with.
def hasConnection : Act Bool := do
  match ← Act.read "connection" with
  | .connection => return true
  | _ => return false

-- The name of a handler. Values have none.
def handlerName : Held → Except Fault String
  | .routine r => .ok r.name
  | _ => .error .attribute

-- The handlers that the connection was given, each with its wire name.
def handlers (e : Endpoint) : Except Fault (List (Value × String)) :=
  e.routes.mapM fun (wireName, h) => (handlerName h).map fun name => (wireName, name)

end Client

end HubContract
