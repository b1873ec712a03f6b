import HubContract.Proofs.Document.ByName
import HubContract.Proofs.Document.Claiming
import HubContract.Proofs.Engine.Exports

namespace HubContract

namespace Naming

-- A method of the builder tells the module of its binding.
theorem moduleName_eq_of_builderMethodName_eq {a b : String}
    (same : builderMethodName a = builderMethodName b) : moduleName a = moduleName b := by
  have tails : "with_".toList ++ (moduleName a).toList = "with_".toList ++ (moduleName b).toList := by
    rw [← String.toList_append, ← String.toList_append]
    exact congrArg String.toList same
  exact String.toList_inj.mp (List.append_cancel_left tails)

end Naming

namespace RegistrationHelper

-- The entry of a binding whose method is not numbered.
def plainEntry (b : ClientBinding) : RegistrationEntry :=
  ⟨b.name, b.moduleName, b.uri, Naming.builderMethodName b.name⟩

-- Nothing is numbered where no method is wanted twice.
theorem entriesFrom_eq_map {used : List String} {bs : List ClientBinding}
    (new : ∀ b ∈ bs, Naming.builderMethodName b.name ∉ used)
    (apart : (bs.map fun b => Naming.builderMethodName b.name).Nodup) :
    entriesFrom used bs = bs.map plainEntry := by
  induction bs generalizing used with
  | nil => rfl
  | cons b bs ih =>
    obtain ⟨first, new⟩ := List.forall_mem_cons.mp new
    obtain ⟨other, apart⟩ := List.nodup_cons.mp apart
    have name : methodName used b.name = Naming.builderMethodName b.name :=
      if_neg (by simpa using first)
    have later : ∀ b' ∈ bs, Naming.builderMethodName b'.name ∉ Naming.builderMethodName b.name :: used := by
      intro b' inside again
      obtain same | before := List.mem_cons.mp again
      · exact other (List.mem_map.mpr ⟨b', inside, same⟩)
      · exact new b' inside before
    rw [entriesFrom, name, ih later apart, List.map_cons, plainEntry]

end RegistrationHelper

namespace Compilation

variable {c : Compilation} {o : Options}

theorem IsPackage.nodup_builderMethodName (package : c.IsPackage o) :
    (c.bindings.map fun b => Naming.builderMethodName b.name).Nodup := by
  rw [List.Nodup, List.pairwise_map]
  refine (List.pairwise_map.mp package.distinct).imp_of_mem fun inside inside' other same => other ?_
  rw [package.moduleName_eq inside, package.moduleName_eq inside']
  exact Naming.moduleName_eq_of_builderMethodName_eq same

theorem IsPackage.entries_eq_map (package : c.IsPackage o) :
    (RegistrationHelper.synthesize c.bindings o).entries = c.bindings.map RegistrationHelper.plainEntry :=
  RegistrationHelper.entriesFrom_eq_map (fun _ _ => List.not_mem_nil) package.nodup_builderMethodName

end Compilation

namespace Engine

open HubContract.Document

variable {rules : RuleSet} {e : Engine}

-- A hub client is rejected for its name exactly if its binding cannot be used, or if its module is taken by
-- one in front of it that was not, and that is what is kept under its name; so every default compilation
-- registers bindings whose names, modules and methods are distinct, and none of the methods is numbered.
theorem names_claimed_once (reachable : e.Reachable rules)
    (standard : e.pipelines.lookup "default" = some Pass.standard) {d : Document} (distinct : d.Distinct)
    (o : Options) :
    let c := (e.compile rules d o none).1.compilation
    (∃ (found : List Found) (f : Findings),
      found.map (fun c => (c.declaration, c.marker)) = clientsOf d.declarations ∧
      d.discoverByName = .ok f ∧ f.order = found.map (·.declaration.name) ∧
      (∀ c ∈ found, f.outcome? c.declaration.name = some c.outcome) ∧
      found.map (fun c => (c.declaration.name, c.outcome)) = d.discover.clients ∧
      ∀ front c back, found = front ++ c :: back → IsJudged d (Found.Takes front) c) ∧
    ∃ h, c.registration = some h ∧ h.entries = c.bindings.map RegistrationHelper.plainEntry ∧
      (h.entries.map (·.bindingName)).Nodup ∧ (h.entries.map (·.bindingModule)).Nodup ∧
      (h.entries.map (·.methodName)).Nodup := by
  intro c
  have package : c.IsPackage o := isPackage_compile reachable.sound standard d o
  have entries := package.entries_eq_map
  obtain ⟨found, hubs, clients, judged⟩ := exists_judged d
  refine ⟨?_, _, package.registration, entries, ?_⟩
  · obtain ⟨f, run, order, kept⟩ := distinct.discoverByName_eq
    refine ⟨found, f, hubs, run, ?_, fun c inside => ?_, clients, judged⟩
    · rw [order, Discovery.order, ← clients, List.map_map]
      rfl
    · have unmet : (d.discover.clients.map (·.1)).Nodup := by
        rw [discover, map_fst_outcomes]
        exact distinct.sublist (List.filter_sublist.map _)
      rw [kept]
      refine Table.get?_of_mem unmet ?_
      rw [← clients]
      exact List.mem_map_of_mem inside
  rw [entries]
  simp only [List.map_map]
  exact ⟨package.nodup_names, package.distinct, package.nodup_builderMethodName⟩

-- Two hub clients for one module, and one for a module that packages keep.
def deskWithChats : Document :=
  ⟨[emptyHub "IChat" "chat", emptyHub "Chat" "talk", loneClient "IDesk" "desk" "Registration"], []⟩

theorem deskWithChats_clients : deskWithChats.discover.clients =
    [("IChat", .ok { name := "IChat", uri := "chat" }),
      ("Chat", .error [nameProblem "Chat" .duplicateBindingName
        ("Hub client 'Chat' would produce binding 'ChatClient' (module chat_client), " ++
          "which clashes with 'IChat'")]),
      ("IDesk", .error [nameProblem "IDesk" .invalidBindingName
        "Hub client 'IDesk' would produce binding 'Registration', which is not a usable class name"])] := by
  have resolved : deskWithChats.resolveClient (emptyHub "IChat" "chat") { uri := "chat" } =
      .ok { name := "IChat", uri := "chat" } :=
    resolveClient_eq_ok_iff.mpr
      ((resolveContract_eq_ok_iff rfl).mpr ⟨rfl, rfl, rfl, rfl, .none, .none, .nil⟩)
  rw [← resolved]
  rfl

-- One of the three is left.
theorem names_claimed_once_desk :
    deskWithChats.Distinct ∧
    let c := (standard.compile .builtIn deskWithChats {} none).1.compilation
    (∃ (found : List Found) (f : Findings), deskWithChats.discoverByName = .ok f ∧
      f.order = ["IChat", "Chat", "IDesk"] ∧
      found.map (fun c => (c.declaration.name, c.outcome)) = deskWithChats.discover.clients ∧
      ∀ front c back, found = front ++ c :: back → IsJudged deskWithChats (Found.Takes front) c) ∧
    ∃ h, c.registration = some h ∧
      h.entries = [⟨"ChatClient", "chat_client", "chat", "with_chat_client"⟩] := by
  have distinct : deskWithChats.Distinct := by
    rw [Document.Distinct]
    decide
  refine ⟨distinct, ?_⟩
  intro c
  obtain ⟨⟨found, f, -, run, order, -, clients, each⟩, h, registered, entries, -⟩ :=
    names_claimed_once reachable_standard rfl distinct {}
  have names : found.map (·.declaration.name) = ["IChat", "Chat", "IDesk"] := by
    have firsts := congrArg (List.map Prod.fst) clients
    rwa [List.map_map, deskWithChats_clients] at firsts
  refine ⟨⟨found, f, run, order.trans names, clients, each⟩, h, registered, ?_⟩
  have only : c.bindings.map RegistrationHelper.plainEntry =
      [⟨"ChatClient", "chat_client", "chat", "with_chat_client"⟩] := by
    simp only [c, Compilation.bindings, Engine.compile, deskWithChats_clients]
    decide
  rw [entries, only]

end Engine

end HubContract
