import HubContract.Endpoint.Task

namespace HubContract

def Json.tuple (items : List Json) : Json := .object [("tuple", .array items)]

def Json.literal (text : String) : Json := .object [("repr", .str text)]

def EmptyValue.toJson : EmptyValue → Json
  | .nothing => .null
  | .integer => .int 0
  | .float => .float default
  | .complex => .literal EmptyValue.complex.literal
  | .text => .str ""
  | .bytes => .literal EmptyValue.bytes.literal
  | .falsehood => .bool false
  | .list => .array []
  | .mapping => .object []
  | .tuple => .tuple []

namespace Value

mutual

-- A value with tokens written as their text.
def toJson (tokenText : Nat → String) : Value → Json
  | .data j => j
  | .tuple vs => .tuple (itemsToJson tokenText vs)
  | .list vs => .array (itemsToJson tokenText vs)
  | .token t => .object [("token", .str (tokenText t))]
  | .empty e => e.toJson
  | .other => .null

def itemsToJson (tokenText : Nat → String) : List Value → List Json
  | [] => []
  | v :: vs => v.toJson tokenText :: itemsToJson tokenText vs

end

end Value

namespace Endpoint

-- A value as it reads now.
def valueJson (e : Endpoint) (v : Value) : Json :=
  v.toJson fun t => ((e.loop.token? t).map (·.text)).getD ""

def heldJson (e : Endpoint) (h : Held) : Json := e.valueJson h.toValue

def callJson (e : Endpoint) : ConnectionCall → Json
  | .start => .strings ["start"]
  | .stop => .strings ["stop"]
  | .invoke wireName vs token =>
    .array [.str "invoke", e.valueJson wireName, e.valueJson (.tuple vs), e.valueJson token]

def noteJson (e : Endpoint) (n : Note) : Json :=
  .array [.str n.label, match n.arguments with
    | some vs => e.valueJson (.tuple vs)
    | none => .str "nullary"]

end Endpoint

-- What an endpoint has under a name.
def Act.readJson (name : String) : Act Json := do
  let h ← Act.read name
  return (← get).heldJson h

end HubContract
