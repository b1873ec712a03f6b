import HubContract.Document.Writer
import HubContract.Proofs.Document.Provenance
import HubContract.Proofs.Document.Search

namespace HubContract

open Relation

-- The methods of a declaration. Without a given role, the marker of each decides.
def Declaration.tagged (role : Option Role) (e : Declaration) : List WalkedMethod :=
  e.methods.map fun m => ⟨m, role.getD (MethodSet.markedRole m), e.name⟩

namespace Document

-- The methods of all declarations that a name leads to, in the order of the search.
def methodsFrom (d : Document) (role : Option Role) (root : String) : List WalkedMethod :=
  (d.search root).flatMap fun name => (d.get? name).toList.flatMap (Declaration.tagged role)

variable {d : Document} {decl : Declaration} {marker : HubMarker} {k : Contract} {role : Option Role}
  {root : String} {w : WalkedMethod}

theorem walk_eq_methodsFrom {s : MethodSet} (unfolds : d.Unfolds root s) :
    s.walk role = d.methodsFrom role root := by
  have each : ∀ t ∈ s.preorder,
      t.tagged role = (d.get? t.name).toList.flatMap (Declaration.tagged role) := by
    intro t visited
    obtain ⟨e, found, named, methods, -⟩ := (unfolds_of_mem_preorder unfolds t visited).1.found
    rw [found, Option.toList_some, List.flatMap_singleton, MethodSet.tagged, Declaration.tagged, named,
      methods]
    rfl
  rw [MethodSet.walk, methodsFrom, ← preorder_eq_search unfolds, List.flatMap_map]
  exact List.flatMap_congr each

theorem walkSide_eq_methodsFrom {side : Option String} {s : Option MethodSet} {r : Role}
    (unfolds : Option.Rel d.Unfolds side s) :
    Contract.walkSide r s = side.toList.flatMap (d.methodsFrom (some r)) := by
  cases unfolds with
  | none => rfl
  | some unfolds =>
    rw [Option.toList_some, List.flatMap_singleton]
    exact walk_eq_methodsFrom unfolds

-- A method is tagged with the declaration that it stands in, and belongs to it.
theorem owner_of_mem_methodsFrom (canonical : d.IsCanonical) (mem : w ∈ d.methodsFrom role root) :
    w.method.owner = w.provenance ∧
      ∃ e, d.get? w.provenance = some e ∧ w.method ∈ e.methods := by
  obtain ⟨name, visited, inside⟩ := List.mem_flatMap.mp mem
  obtain ⟨e, found, inside⟩ := List.mem_flatMap.mp inside
  obtain ⟨m, declared, rfl⟩ := List.mem_map.mp inside
  have found : d.get? name = some e := Option.mem_toList.mp found
  obtain rfl := get?_name found
  exact ⟨(canonical.of_get? found).owned m declared, e, found, declared⟩

-- After the walk a side holds the methods of all declarations that its name leads to, and a unified
-- contract those that the bridge leads to: in the order of a depth-first search, which visits what is
-- reached once, each method under the name of the declaration that it stands in and belongs to.
theorem walk_by_search {x : Data} (read : ofData x = .ok d) {name : String}
    (found : (name, .ok k) ∈ d.discover.clients) {c : Context} (current : c.contract = k) :
    ∃ decl marker, d.get? name = some decl ∧ decl.hubClient = some marker ∧
      (k.isSeparated = true →
        c.walk.push = (HubMarker.named marker.push).toList.flatMap (d.methodsFrom (some .push)) ∧
        c.walk.invoke =
          (HubMarker.named marker.invoke).toList.flatMap (d.methodsFrom (some .invoke))) ∧
      (k.isSeparated = false →
        k.ownSet.walk none = d.methodsFrom none name ∧
        c.walk.push = (d.methodsFrom none name).filter (·.role = .push) ∧
        c.walk.invoke = (d.methodsFrom none name).filter (·.role = .invoke)) ∧
      ∀ root,
        (d.search root).Nodup ∧
        (∀ n, n ∈ d.search root ↔ ReflTransGen d.Extends root n ∧ ∃ e, d.get? n = some e) ∧
        ∀ role, ∀ w ∈ d.methodsFrom role root,
          w.method.owner = w.provenance ∧ ∃ e, d.get? w.provenance = some e ∧ w.method ∈ e.methods := by
  have canonical := isCanonical_of_ofData read
  obtain ⟨decl, marker, declared, rfl, client, contract⟩ := exists_client canonical.distinct found
  have own : k.ownSet.walk none = d.methodsFrom none decl.name :=
    walk_eq_methodsFrom (unfolds_ownSet contract declared (canonical.of_get? declared))
  have lists : c.walk.push = k.walkSides.1 ∧ c.walk.invoke = k.walkSides.2 := by
    subst current
    exact ⟨rfl, rfl⟩
  refine ⟨decl, marker, declared, client, fun separated => ?_, fun unified => ?_, fun root => ?_⟩
  · rw [lists.1, lists.2, Contract.walkSides, if_pos separated]
    exact ⟨walkSide_eq_methodsFrom contract.push, walkSide_eq_methodsFrom contract.invoke⟩
  · rw [lists.1, lists.2, Contract.walkSides, unified, own]
    exact ⟨rfl, rfl, rfl⟩
  · refine ⟨nodup_search d root, fun n => mem_search_iff, fun role w mem => ?_⟩
    exact owner_of_mem_methodsFrom canonical mem

-- A side that leads to one base on two ways, of which the first also repeats it.
def plazaMarker : HubMarker := { uri := "plaza", push := some "IPlazaEvents" }

def plazaBridge : Declaration := { name := "IPlaza", hubClient := some plazaMarker }

def plazaEvents : Declaration where
  name := "IPlazaEvents"
  methods := [{ name := "Opened", owner := "IPlazaEvents" }]
  parents := ["ILeft", "IBase", "IRight"]

def leftEvents : Declaration where
  name := "ILeft"
  methods := [{ name := "Left", owner := "ILeft" }]
  parents := ["IBase", "IBase"]

def rightEvents : Declaration where
  name := "IRight"
  methods := [{ name := "Right", owner := "IRight" }]
  parents := ["IBase"]

def baseEvents : Declaration where
  name := "IBase"
  methods := [{ name := "Based", owner := "IBase" }]

def plaza : Document := ⟨[baseEvents, rightEvents, plazaBridge, leftEvents, plazaEvents], []⟩

def baseSet : MethodSet := ⟨"IBase", baseEvents.methods, []⟩

def plazaSet : MethodSet :=
  ⟨"IPlazaEvents", plazaEvents.methods, [⟨"ILeft", leftEvents.methods, [baseSet, baseSet]⟩, baseSet,
    ⟨"IRight", rightEvents.methods, [baseSet]⟩]⟩

def plazaContract : Contract := { name := "IPlaza", uri := "plaza", pushSet := some plazaSet }

theorem ofData_plaza : ofData plaza.toData = .ok plaza := by rfl

theorem plaza_clients : ("IPlaza", .ok plazaContract) ∈ plaza.discover.clients := by
  have base : plaza.Unfolds "IBase" baseSet := .of_forall₂ (e := baseEvents) rfl .nil
  have left : plaza.Unfolds "ILeft" ⟨"ILeft", leftEvents.methods, [baseSet, baseSet]⟩ :=
    .of_forall₂ (e := leftEvents) rfl (.cons base (.cons base .nil))
  have right : plaza.Unfolds "IRight" ⟨"IRight", rightEvents.methods, [baseSet]⟩ :=
    .of_forall₂ (e := rightEvents) rfl (.cons base .nil)
  have events : plaza.Unfolds "IPlazaEvents" plazaSet :=
    .of_forall₂ (e := plazaEvents) rfl (.cons left (.cons base (.cons right .nil)))
  have contract : plaza.IsContract plazaBridge plazaMarker plazaContract :=
    ⟨rfl, rfl, rfl, rfl, .some events, .none, .nil⟩
  exact mem_clients_of_isContract (distinct_of_ofData ofData_plaza) rfl rfl ⟨_, rfl⟩ contract

-- The base comes behind the first declaration that extends it, and the others do not repeat it.
theorem walk_by_search_plaza :
    let c := Context.start plazaContract {}
    ofData plaza.toData = .ok plaza ∧ ("IPlaza", .ok plazaContract) ∈ plaza.discover.clients ∧
      c.walk.push = plaza.methodsFrom (some .push) "IPlazaEvents" ∧ c.walk.invoke = [] ∧
      (plaza.methodsFrom (some .push) "IPlazaEvents").map (fun w => (w.method.name, w.provenance)) =
        [("Opened", "IPlazaEvents"), ("Left", "ILeft"), ("Based", "IBase"), ("Right", "IRight")] := by
  intro c
  obtain ⟨decl, marker, declared, client, separated, -⟩ :=
    walk_by_search ofData_plaza plaza_clients (c := c) rfl
  obtain rfl : plazaBridge = decl := Option.some.inj declared
  obtain rfl : plazaMarker = marker := Option.some.inj client
  obtain ⟨push, invoke⟩ := separated rfl
  have push : c.walk.push = plaza.methodsFrom (some .push) "IPlazaEvents" :=
    push.trans (List.flatMap_singleton ..)
  refine ⟨ofData_plaza, plaza_clients, push, invoke, ?_⟩
  rw [← push]
  decide

end Document

end HubContract
