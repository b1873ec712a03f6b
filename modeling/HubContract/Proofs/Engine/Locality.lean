import HubContract.Proofs.Document.Client
import HubContract.Proofs.Document.Discovery
import HubContract.Proofs.Engine.History
import HubContract.Proofs.Pipeline.Errors

namespace HubContract

namespace Document

open Relation

-- Whatever a name leads to is declared alike in a second document, or in neither.
def AgreesFrom (d d' : Document) (name : String) : Prop :=
  ∀ n, ReflTransGen d.Extends name n → d.get? n = d'.get? n

variable {d d' : Document} {decl : Declaration} {marker : HubMarker}

theorem AgreesFrom.step (h : d.AgreesFrom d' name) (edge : d.Extends name parent) :
    d.AgreesFrom d' parent :=
  fun n path => h n (.head edge path)

theorem problemsFrom_congr (h : d.AgreesFrom d' name) :
    d.problemsFrom trail referrer name = d'.problemsFrom trail referrer name := by
  have same := h name .refl
  induction trail, name using trail_induction d generalizing referrer with
  | met trail name hm => rw [problemsFrom_of_mem hm, problemsFrom_of_mem hm]
  | absent trail name fresh absent =>
    rw [problemsFrom_of_none fresh absent, problemsFrom_of_none fresh (same ▸ absent)]
  | declared trail name e fresh found ih =>
    rw [problemsFrom_of_some fresh found, problemsFrom_of_some fresh (same ▸ found)]
    refine List.flatMap_congr fun parent hp => ?_
    have agrees := h.step ⟨e, found, hp⟩
    exact ih parent hp agrees (agrees parent .refl)

theorem Unfolds.congr (h : d.Unfolds name s) (agrees : d.AgreesFrom d' name) : d'.Unfolds name s := by
  induction h with
  | @intro name e ancestors found count each ih =>
    refine .intro (agrees name .refl ▸ found) count fun parent s mem => ?_
    exact ih parent s mem (agrees.step ⟨e, found, (List.of_mem_zip mem).1⟩)

-- The documents agree on everything that a hub client leads to.
def AgreesForClient (d d' : Document) (decl : Declaration) (marker : HubMarker) : Prop :=
  ∀ n, d.ClientReaches decl marker n → d.get? n = d'.get? n

-- Names that hold the roots of a client, and with each name what that extends, hold all that the
-- client leads to.
theorem ClientReaches.mem_of_closed {names : List String}
    (roots : ∀ root ∈ marker.sides ++ [decl.name], root ∈ names)
    (closed : ∀ n ∈ names, ∀ e ∈ d.get? n, ∀ parent ∈ e.parents, parent ∈ names)
    (h : d.ClientReaches decl marker n) : n ∈ names := by
  obtain ⟨root, hr, path⟩ := h
  induction path with
  | refl => exact roots root hr
  | tail _ edge ih =>
    obtain ⟨e, found, hp⟩ := edge
    exact closed _ ih e found _ hp

theorem AgreesForClient.agreesFrom (h : d.AgreesForClient d' decl marker)
    (hr : root ∈ marker.sides ++ [decl.name]) : d.AgreesFrom d' root :=
  fun n path => h n ⟨root, hr, path⟩

theorem clientProblems_congr (h : d.AgreesForClient d' decl marker) :
    d.clientProblems decl marker = d'.clientProblems decl marker :=
  List.flatMap_congr fun _ hr => problemsFrom_congr (h.agreesFrom hr)

theorem IsContract.congr (contract : d.IsContract decl marker k) (found : d.get? decl.name = some decl)
    (h : d.AgreesForClient d' decl marker) : d'.IsContract decl marker k := by
  have side {x : Option String} {y : Option MethodSet} (named : x.toList ⊆ marker.sides)
      (rel : Option.Rel d.Unfolds x y) : Option.Rel d'.Unfolds x y := by
    cases rel with
    | none => exact .none
    | some unfolds =>
      have root := List.mem_append_left [decl.name] (named (List.mem_singleton_self _))
      exact .some (unfolds.congr (h.agreesFrom root))
  refine ⟨contract.name, contract.uri, contract.friendlyName, contract.methods,
    side (List.subset_append_left _ _) contract.push,
    side (List.subset_append_right _ _) contract.invoke, ?_⟩
  obtain ⟨count, each⟩ := List.forall₂_iff_zip.mp contract.ancestors
  have bridge : d.AgreesFrom d' decl.name := h.agreesFrom (by simp)
  refine List.forall₂_iff_zip.mpr ⟨count, fun mem => ?_⟩
  exact (each mem).congr (bridge.step ⟨decl, found, (List.of_mem_zip mem).1⟩)

-- Neither the contract nor the problems of a hub client depend on anything that it does not lead to.
theorem resolveClient_congr (found : d.get? decl.name = some decl)
    (h : d.AgreesForClient d' decl marker) :
    d.resolveClient decl marker = d'.resolveClient decl marker := by
  have found' : d'.get? decl.name = some decl := h decl.name ⟨decl.name, by simp, .refl⟩ ▸ found
  have same : d.resolveContract decl marker = d'.resolveContract decl marker := by
    rcases resolveContract_spec found marker with ⟨k, ok, -, contract⟩ | ⟨error, some⟩
    · rw [ok, (resolveContract_eq_ok_iff found').mpr (contract.congr found h)]
    · rw [clientProblems_congr h] at error some
      rw [error, (resolveContract_eq_error_iff found').mpr ⟨rfl, some⟩]
  rw [resolveClient, same, ← resolveClient]

end Document

namespace Engine

open HubContract.Document

variable {rules : RuleSet} {e e' : Engine}

-- An engine as operations leave it.
def Reachable (rules : RuleSet) (e : Engine) : Prop :=
  ∃ ops, (∀ op ∈ ops, op.IsFunctional rules) ∧ e = run rules {} ops

theorem Reachable.sound (h : e.Reachable rules) : e.Sound rules := by
  obtain ⟨ops, functional, rfl⟩ := h
  exact sound_empty.run functional

theorem reachable_standard : standard.Reachable .builtIn :=
  ⟨[.setupDefault], List.forall_mem_singleton.mpr trivial, rfl⟩

theorem contractName_clientResult (standard : e.pipelines.lookup "default" = some Pass.standard)
    (o : Options) {client : String × Except (List Diagnostic) Contract}
    (named : ∀ k, client.2 = .ok k → k.name = client.1) :
    (clientResult e.pipelines rules o none client).contractName = client.1 := by
  obtain ⟨name, outcome⟩ := client
  cases outcome with
  | error ds => rfl
  | ok k =>
    simp only [clientResult, nameOr, contractResult, standard]
    rw [Pipeline.contractName_compile]
    exact named k rfl

-- An accepted hub client has one result, and that comes from its own contract or problems.
theorem compile_filter {d : Document} (sound : e.Sound rules)
    (standard : e.pipelines.lookup "default" = some Pass.standard) (distinct : d.Distinct)
    {decl : Declaration} {marker : HubMarker} (found : d.get? decl.name = some decl)
    (client : decl.hubClient = some marker) (accepted : d.AcceptsBinding decl marker) (o : Options) :
    (e.compile rules d o none).1.compilation.contracts.filter (·.contractName = decl.name) =
      [clientResult e.pipelines rules o none (decl.name, d.resolveClient decl marker)] := by
  rw [sound.compile_contracts, List.filter_map]
  have names : d.discover.clients.filter
      ((fun c => decide (c.contractName = decl.name)) ∘ clientResult e.pipelines rules o none) =
      d.discover.clients.filter (·.1 = decl.name) := by
    refine List.filter_congr fun c mem => ?_
    simp only [Function.comp, contractName_clientResult standard o (clients_name mem)]
  rw [names, clients_filter distinct found client accepted]
  rfl

-- Documents that agree on all that a hub client leads to give it the same result, wherever it stands,
-- whatever else they declare and whatever their engines have compiled before.
theorem compile_client_congr {x x' : Data} {d d' : Document} (read : ofData x = .ok d)
    (read' : ofData x' = .ok d') {decl : Declaration} {marker : HubMarker}
    (found : d.get? decl.name = some decl) (client : decl.hubClient = some marker)
    (same : ∀ n, d.ClientReaches decl marker n → d.get? n = d'.get? n)
    (accepted : d.AcceptsBinding decl marker) (accepted' : d'.AcceptsBinding decl marker)
    (reachable : e.Reachable rules) (reachable' : e'.Reachable rules)
    (standard : e.pipelines.lookup "default" = some Pass.standard)
    (standard' : e'.pipelines.lookup "default" = some Pass.standard) (o : Options) :
    ∃ c : CompiledContract,
      (e.compile rules d o none).1.compilation.contracts.filter (·.contractName = decl.name) = [c] ∧
      (e'.compile rules d' o none).1.compilation.contracts.filter (·.contractName = decl.name) =
        [c] := by
  have found' : d'.get? decl.name = some decl := same decl.name ⟨decl.name, by simp, .refl⟩ ▸ found
  have table : e'.pipelines.lookup (nameOr "default" none) =
      e.pipelines.lookup (nameOr "default" none) := standard'.trans standard.symm
  refine ⟨_,
    compile_filter reachable.sound standard (distinct_of_ofData read) found client accepted o, ?_⟩
  rw [compile_filter reachable'.sound standard' (distinct_of_ofData read') found' client accepted' o,
    ← resolveClient_congr found same, clientResult_congr table]

def lobbyMarker : HubMarker := { uri := "lobby", push := some "ILobbyEvents" }

def lobbyBridge : Declaration := { name := "ILobby", hubClient := some lobbyMarker }

def lobbyEvents : Declaration where
  name := "ILobbyEvents"
  methods := [{ name := "Joined", returns := .unitAsync, owner := "ILobbyEvents" }]
  parents := ["IEvents"]

def lobbyAlone : Document := ⟨[lobbyBridge, lobbyEvents, { name := "IEvents" }], []⟩

-- The same client behind one that cannot be resolved, with its declarations in another order.
def lobbyBehind : Document := ⟨[{ name := "IBroken", hubClient := some { push := some "INowhere" } },
  { name := "IEvents" }, lobbyEvents, lobbyBridge], []⟩

-- A declaration as it is written.
def written (name : String) (fields : List (Data × Data)) : Data :=
  .mapping ((.str "name", .str name) :: fields)

def writtenClient (name : String) (marker : List (Data × Data)) : Data :=
  written name [(.str "markers", .mapping [(.str "hub_client", .mapping marker)])]

def writtenLobby : Data :=
  writtenClient "ILobby" [(.str "uri", .str "lobby"), (.str "push", .str "ILobbyEvents")]

def writtenEvents : Data := written "ILobbyEvents"
  [(.str "methods", .list [.mapping [(.str "name", .str "Joined")]]), (.str "extends", .str "IEvents")]

def writtenDocument (declarations : List Data) : Data :=
  .mapping [(.str "declarations", .list declarations)]

theorem compile_client_congr_lobby :
    let e := standard
    let e' := run .builtIn {} [.compile lobbyAlone {} none, .setupDefault]
    lobbyAlone.AcceptsBinding lobbyBridge lobbyMarker ∧
      lobbyBehind.AcceptsBinding lobbyBridge lobbyMarker ∧
      ∃ c : CompiledContract,
        (e.compile .builtIn lobbyAlone {} none).1.compilation.contracts.filter
            (·.contractName = "ILobby") = [c] ∧
          (e'.compile .builtIn lobbyBehind {} none).1.compilation.contracts.filter
            (·.contractName = "ILobby") = [c] := by
  intro e e'
  have read : ofData (writtenDocument [writtenLobby, writtenEvents, written "IEvents" []]) =
      .ok lobbyAlone := rfl
  have read' : ofData (writtenDocument [writtenClient "IBroken" [(.str "push", .str "INowhere")],
      written "IEvents" [], writtenEvents, writtenLobby]) = .ok lobbyBehind := rfl
  have same : ∀ n, lobbyAlone.ClientReaches lobbyBridge lobbyMarker n →
      lobbyAlone.get? n = lobbyBehind.get? n := by
    intro n reached
    have known : n ∈ ["ILobbyEvents", "ILobby", "IEvents"] :=
      reached.mem_of_closed (by decide) (by decide)
    have agree : ∀ n ∈ ["ILobbyEvents", "ILobby", "IEvents"],
        lobbyAlone.get? n = lobbyBehind.get? n := by decide
    exact agree n known
  have accepted : lobbyAlone.AcceptsBinding lobbyBridge lobbyMarker := ⟨_, rfl⟩
  have accepted' : lobbyBehind.AcceptsBinding lobbyBridge lobbyMarker := ⟨_, rfl⟩
  have reachable : e.Reachable .builtIn := reachable_standard
  have reachable' : e'.Reachable .builtIn :=
    ⟨[.compile lobbyAlone {} none, .setupDefault], by simp [Operation.IsFunctional], rfl⟩
  have standard' : e'.pipelines.lookup "default" = some Pass.standard :=
    (lookup_registerPipeline _ _ _ _).trans (if_pos rfl)
  exact ⟨accepted, accepted', compile_client_congr read read' rfl rfl same accepted accepted' reachable
    reachable' rfl standard' {}⟩

end Engine

end HubContract
