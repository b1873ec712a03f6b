import HubContract.Contract.Interchange
import HubContract.Document.Discovery

namespace HubContract

def HubMarker.toJson (h : HubMarker) : Json :=
  .object [
    ("uri", .str h.uri),
    ("name", .ofOption .str h.name),
    ("push", .ofOption .str h.push),
    ("invoke", .ofOption .str h.invoke)]

def Declaration.toJson (d : Declaration) : Json :=
  .object [
    ("name", .str d.name),
    ("methods", .ofList Method.toJson d.methods),
    ("extends", .strings d.parents),
    ("hub_client", .ofOption HubMarker.toJson d.hubClient)]

def Document.toJson (d : Document) : Json :=
  .object [
    ("declarations", .ofList Declaration.toJson d.declarations),
    ("fakes", .strings d.fakes)]

namespace Markers

-- Something for each kind of marker.
def byKind (f : List String → Json) (m : Markers) : Json :=
  .object [
    ("hub_client", f m.hubClients),
    ("invoke_method", f m.invokeMethods),
    ("generate_fake", f m.fakes)]

def toJson (m : Markers) : Json := m.byKind .strings

-- How many names carry each marker.
def counts (m : Markers) : Json := m.byKind fun names => .int names.length

end Markers

namespace Discovery

-- The hub clients that have a contract.
def contracts (d : Discovery) : List (String × Contract) :=
  d.clients.filterMap fun
    | (n, .ok c) => some (n, c)
    | _ => none

-- The contracts as JSON, unless one is nested too deep.
def contractsJson (d : Discovery) : Except Fault Json :=
  if d.contracts.all (·.2.isWritable) then
    .ok (.ofList (fun (n, c) => .array [.str n, c.toJson]) d.contracts)
  else .error .unwritable

-- The hub clients that have none, each with what is wrong.
def failures (d : Discovery) : List (String × List Diagnostic) :=
  d.clients.filterMap fun
    | (n, .error ds) => some (n, ds)
    | _ => none

end HubContract.Discovery
