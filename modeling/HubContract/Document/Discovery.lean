import HubContract.Data.Basic
import HubContract.Document.Resolution
import HubContract.Naming
import HubContract.Table

namespace HubContract

open HubContract.Text

-- The names that carry a marker, in document order.
structure Markers where
  hubClients : List String := []
  -- Each as the declaration and its method.
  invokeMethods : List String := []
  fakes : List String := []
  deriving DecidableEq, Repr

structure Discovery where
  document : Document
  markers : Markers
  -- Every hub client with its contract, or with at least one diagnostic.
  clients : List (String × Except (List Diagnostic) Contract)

def Discovery.source : String := "discovery"

def Problem.toDiagnostic (subject : String) (n : Nat) (p : Problem) : Diagnostic :=
  { id := Diagnostic.numbered subject n, code := p.code, level := .error, message := p.message,
    source := Discovery.source, location := some ⟨p.referrer, none⟩ }

namespace Document

def markers (d : Document) : Markers where
  hubClients := (d.declarations.filter (·.hubClient.isSome)).map (·.name)
  invokeMethods := d.declarations.flatMap fun e =>
    (e.methods.filter (·.invoke)).map fun m => e.name ++ "." ++ m.name
  fakes := d.fakes

-- Diagnostics for problems, numbered from `n` on.
def diagnosticsFrom (subject : String) : Nat → List Problem → List Diagnostic
  | _, [] => []
  | n, p :: ps => p.toDiagnostic subject n :: diagnosticsFrom subject (n + 1) ps

-- The contract of a hub client, or a diagnostic for every problem.
def resolveClient (d : Document) (decl : Declaration) (marker : HubMarker) :
    Except (List Diagnostic) Contract :=
  (d.resolveContract decl marker).mapError (diagnosticsFrom decl.name 1)

-- Module names that generated packages use themselves.
def reservedModules : List String := ["registration"]

def isUsableBinding (binding : String) : Bool :=
  isIdentifier binding && !reservedModules.contains (Naming.moduleName binding)

-- Modules that are taken, each with the declaration that took it.
abbrev Claims := List (String × String)

def nameProblem (name : String) (code : Code) (message : String) : Diagnostic :=
  { id := Diagnostic.numbered name 1, code, level := .error, message, source := Discovery.source,
    location := some ⟨name, none⟩ }

-- Claim the module of a hub client's binding, or say why that cannot be.
def claimModule (claims : Claims) (name : String) (friendly : Option String) :
    Except Diagnostic Claims :=
  let binding := Contract.bindingNameOf name friendly
  let module := Naming.moduleName binding
  let subject := "Hub client '" ++ name ++ "' would produce binding '" ++ binding ++ "'"
  if isUsableBinding binding then
    match claims.lookup module with
    | none => .ok ((module, name) :: claims)
    | some owner => .error (nameProblem name .duplicateBindingName
        (subject ++ " (module " ++ module ++ "), which clashes with '" ++ owner ++ "'"))
  else .error (nameProblem name .invalidBindingName
    (subject ++ ", which is not a usable class name"))

-- The outcome for each declaration that is a hub client. A module stays claimed by a client whose
-- names cannot be resolved. Each declaration is judged where it stands, which is what `discoverByName` does
-- where no name is declared twice (`Distinct.discoverByName_eq`); of the documents that are read, none
-- declares one twice (`distinct_of_ofData`).
def outcomes (d : Document) (claims : Claims) :
    List Declaration → List (String × Except (List Diagnostic) Contract)
  | [] => []
  | decl :: rest =>
    match decl.hubClient with
    | none => outcomes d claims rest
    | some marker =>
      match claimModule claims decl.name marker.name with
      | .error diagnostic => (decl.name, .error [diagnostic]) :: outcomes d claims rest
      | .ok claims =>
        (decl.name, d.resolveClient decl marker) :: outcomes d claims rest

def discover (d : Document) : Discovery := ⟨d, d.markers, d.outcomes [] d.declarations⟩

end Document

-- What is kept of hub clients under their names, with the modules that they claimed.
structure Findings where
  order : List String := []
  contracts : Table Contract := []
  failures : Table (List Diagnostic) := []
  claims : Document.Claims := []

namespace Findings

def keep (f : Findings) (name : String) : Except (List Diagnostic) Contract → Findings
  | .ok k => { f with order := f.order ++ [name], contracts := f.contracts.set name k }
  | .error ds => { f with order := f.order ++ [name], failures := f.failures.set name ds }

-- What is kept under a name. A failure is asked for first.
def outcome? (f : Findings) (name : String) : Option (Except (List Diagnostic) Contract) :=
  match f.failures.get? name with
  | some ds => some (.error ds)
  | none => (f.contracts.get? name).map .ok

end Findings

namespace Document

-- Judge what is declared under a name, which has to be a hub client.
def register (d : Document) (f : Findings) (name : String) : Except Fault Findings :=
  match d.get? name with
  | none => .error .attribute
  | some decl =>
    match decl.hubClient with
    | none => .error .attribute
    | some marker =>
      match claimModule f.claims decl.name marker.name with
      | .error diagnostic => .ok (f.keep name (.error [diagnostic]))
      | .ok claims => .ok ({ f with claims }.keep name (d.resolveClient decl marker))

-- Look up each name that carries the marker, in document order, and keep what is found under the name.
def discoverByName (d : Document) : Except Fault Findings := d.markers.hubClients.foldlM d.register {}

end Document

namespace Discovery

def order (d : Discovery) : List String := d.clients.map (·.1)

-- The contract of a hub client, if it has one.
def contract? (d : Discovery) (name : String) : Option Contract :=
  match d.clients.lookup name with
  | some (.ok c) => some c
  | _ => none

end HubContract.Discovery
