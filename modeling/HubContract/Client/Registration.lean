import HubContract.Client.Basic
import HubContract.Options

namespace HubContract

-- A base address and the segment of a hub, with exactly one slash where they meet.
def joinAddress (base segment : String) : String :=
  let isSlash (c : Char) : Bool := c = '/'
  String.ofList ((base.toList.reverse.dropWhile isSlash).reverse ++
    '/' :: segment.toList.dropWhile isSlash)

-- Values under keys that need not be texts.
abbrev Headers := List (Data × Json)

namespace Headers

def set (hs : Headers) (key : Data) (value : Json) : Headers :=
  match hs with
  | [] => [(key, value)]
  | (k, v) :: rest =>
    if Data.sameKey k key then (k, value) :: rest else (k, v) :: set rest key value

-- A pair of a key and its value, be it a list or a text of two characters.
def pairOf (v : Value) : Except Fault (Data × Json) :=
  match v.items? with
  | some [.data key, .data value] =>
    if (Value.data key).isKey then .ok (.ofJson key, value) else .error .kind
  | some _ => .error .value
  | none => .error .kind

-- Headers are given as an object, as pairs, or not at all.
def ofJson (j : Json) : Except Fault Headers :=
  if !(Value.data j).isTruthy then .ok []
  else
    match j, (Value.data j).items? with
    | .object ms, _ => .ok (ms.foldl (fun hs (name, v) => hs.set (.str name) v) [])
    | _, some vs => do
      return (← vs.mapM pairOf).foldl (fun hs (key, v) => hs.set key v) []
    | _, none => .error .kind

-- Keys of objects are texts; the others are written as in JSON.
def keyText : Data → String
  | .null => "null"
  | .bool b => if b then "true" else "false"
  | d => d.text

def toJson (hs : Headers) : Json := .object (hs.map fun (key, v) => (keyText key, v))

end Headers

-- Everything that is needed to open the connection of a client.
structure ConnectionSpec where
  url : String
  reconnectPolicy : ReconnectPolicy
  headers : Headers := []
  query : Headers := []
  deriving Repr

-- What a caller asks for; what is left out comes from the defaults.
structure ClientRequest where
  baseUrl : Json
  reconnectPolicy : Option ReconnectPolicy := none
  lifetime : Option Lifetime := none
  headers : Json := .null
  defaultPolicy : ReconnectPolicy := .standard
  defaultLifetime : Lifetime := .singleton
  deriving Repr

def ConnectionSpec.toJson (s : ConnectionSpec) : Json :=
  .object [
    ("url", .str s.url),
    ("policy", s.reconnectPolicy.toJson),
    ("headers", s.headers.toJson),
    ("query", s.query.toJson),
    ("total", .int s.reconnectPolicy.totalAttempts)]

structure ClientRegistration where
  cls : ClientClass
  lifetime : Lifetime
  spec : ConnectionSpec
  deriving Repr

-- Why a class cannot be registered.
inductive RegistrationError where
  -- a class without an address
  | missingAddress (className : String)
  | fault (fault : Fault)
  deriving DecidableEq, Repr

def RegistrationError.message? : RegistrationError → Option String
  | .missingAddress c => some (c ++ " has no hub_uri")
  | .fault _ => none

-- Register a class at its address, which must be a text like the base address.
def ClientRegistration.of (c : ClientClass) (r : ClientRequest) :
    Except RegistrationError ClientRegistration := do
  let hubUri := c.valueOf "hub_uri"
  if !hubUri.isTruthy then .error (.missingAddress c.name)
  match r.baseUrl, hubUri with
  | .str base, .data (.str segment) =>
    match Headers.ofJson r.headers with
    | .error f => .error (.fault f)
    | .ok headers => .ok {
        cls := c
        lifetime := r.lifetime.getD r.defaultLifetime
        spec := {
          url := joinAddress base segment
          reconnectPolicy := r.reconnectPolicy.getD r.defaultPolicy
          headers } }
  | _, _ => .error (.fault .attribute)

-- A container with the number of connections that were opened for its clients.
structure Container where
  registrations : List ClientRegistration := []
  opened : Nat := 0
  deriving Repr

namespace Container

-- The registration at a position. Positions below zero count from the end.
def at? (c : Container) (index : Json) : Except Fault ClientRegistration :=
  (Data.ofJson index).whole.bind fun n =>
    let n := if n < 0 then n + c.registrations.length else n
    match if n < 0 then none else c.registrations[n.toNat]? with
    | some r => .ok r
    | none => .error .index

-- Build the client of a registration. Its connection is opened in any case.
def resolve (c : Container) (r : ClientRegistration) (connection : Connection) :
    Except CallError Endpoint × Container :=
  (Client.build r.cls connection (.ofText r.spec.url), { c with opened := c.opened + 1 })

end Container

end HubContract
