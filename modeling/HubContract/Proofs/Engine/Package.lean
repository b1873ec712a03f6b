import HubContract.Proofs.Binding.Fake
import HubContract.Proofs.Document.Module
import HubContract.Proofs.Engine.Report

namespace HubContract

open HubContract.Text

-- A contract has its binding and the source of that, or neither.
def CompiledContract.IsBuilt (o : Options) (k : CompiledContract) : Prop :=
  (∃ v, k.status = .success ∧ k.binding = some (.synthesize v o) ∧
    k.source = some (Source.client (.synthesize v o))) ∨
  k.status = .failed ∧ k.binding = none ∧ k.source = none

theorem CompiledContract.IsBuilt.of_binding {o : Options} {k : CompiledContract} {b : ClientBinding}
    (built : k.IsBuilt o) (bound : k.binding = some b) :
    (∃ v, b = .synthesize v o) ∧ k.source = some (Source.client b) := by
  obtain ⟨v, -, made, source⟩ | ⟨-, none, -⟩ := built
  · obtain rfl := Option.some.inj (bound.symm.trans made)
    exact ⟨⟨v, rfl⟩, source⟩
  · cases bound.symm.trans none

-- A fake is made of the manifest of a binding, or it is not made.
def CompiledFake.IsBuilt (o : Options) (bindings : List ClientBinding) (f : CompiledFake) : Prop :=
  (∃ b ∈ bindings, ∃ fake, b.manifest.synthesizeFake o.fakePrefix = .ok fake ∧ f.fake = some fake ∧
    f.source = some (Source.fake fake o.cancellationType none)) ∨
  f.fake = none ∧ f.source = none

-- What is known of the parts of a compilation.
structure Compilation.IsPackage (c : Compilation) (o : Options) : Prop where
  contracts : ∀ k ∈ c.contracts, k.IsBuilt o
  usable : ∀ b ∈ c.bindings, Document.isUsableBinding b.name
  distinct : (c.bindings.map (·.moduleName)).Nodup
  registration : c.registration = some (.synthesize c.bindings o)
  registrationSource : c.registrationSource = some (Source.registration (.synthesize c.bindings o))
  fakes : ∀ f ∈ c.fakes, f.IsBuilt o c.bindings

theorem Compilation.mem_bindings_iff {c : Compilation} {b : ClientBinding} :
    b ∈ c.bindings ↔ ∃ k ∈ c.contracts, k.status = .success ∧ k.binding = some b := by
  simp only [bindings, List.mem_filterMap, Option.ite_none_right_eq_some]

theorem Compilation.IsPackage.exists_validated {c : Compilation} {o : Options} (package : c.IsPackage o)
    {b : ClientBinding} (inside : b ∈ c.bindings) : ∃ v, b = .synthesize v o := by
  obtain ⟨k, there, -, bound⟩ := mem_bindings_iff.mp inside
  exact ((package.contracts k there).of_binding bound).1

namespace Pipeline

variable {rules : RuleSet} {k : Contract} {o : Options}

-- A contract is compiled to its own binding.
theorem isBuilt_compile (rules : RuleSet) (k : Contract) (o : Options) :
    let r := compile Pass.standard rules k o
    r.IsBuilt o ∧ ∀ b ∈ r.binding, b.name = k.bindingName ∧ b.moduleName = k.moduleName := by
  intro r
  obtain ⟨-, -, ⟨-, status, -, made, source⟩ | ⟨-, status, -, none, source⟩⟩ := compile_cases rules k o
  · refine ⟨.inl ⟨k.validated, status, made, source⟩, fun b bound => ?_⟩
    obtain rfl := Option.some.inj (made.symm.trans bound)
    exact ⟨rfl, rfl⟩
  · exact ⟨.inr ⟨status, none, source⟩, fun b bound => nomatch none.symm.trans bound⟩

end Pipeline

namespace Engine

open HubContract.Document

variable {rules : RuleSet} {e : Engine} {d : Document} {o : Options}
  {client : String × Except (List Diagnostic) Contract}

theorem isBuilt_clientResult (standard : e.pipelines.lookup "default" = some Pass.standard)
    (client : String × Except (List Diagnostic) Contract) (o : Options) :
    let r := clientResult e.pipelines rules o none client
    r.IsBuilt o ∧ ∀ b ∈ r.binding, ∃ k, client.2 = .ok k ∧ b.name = k.bindingName ∧
      b.moduleName = k.moduleName := by
  obtain ⟨name, outcome⟩ := client
  cases outcome with
  | error ds => exact ⟨.inr ⟨rfl, rfl, rfl⟩, fun b none => absurd none (Option.not_mem_none b)⟩
  | ok k =>
    simp only [clientResult, nameOr, contractResult, standard]
    obtain ⟨built, named⟩ := Pipeline.isBuilt_compile rules k o
    exact ⟨built, fun b bound => ⟨k, rfl, named b bound⟩⟩

theorem isBuilt_targetResult {bindings : List ClientBinding}
    (own : ∀ b ∈ bindings, b.manifest.cancellationType = o.cancellationType) (failed declared : List String)
    (target : String) : (targetResult bindings failed declared o target).IsBuilt o bindings := by
  unfold targetResult
  split
  case h_1 b found =>
    have inside : b ∈ bindings := List.mem_reverse.mp (List.mem_of_find?_eq_some found)
    unfold Pipeline.compileFake
    split
    case h_1 fake made => exact .inl ⟨b, inside, fake, made, rfl, by rw [own b inside]⟩
    case h_2 => exact .inr ⟨rfl, rfl⟩
  case h_2 => exact .inr ⟨rfl, rfl⟩

-- What is found in a list of results was in the list of what they are made of.
theorem map_filterMap_sublist {xs : List α} {f : α → Option β} {g : α → Option γ} {p : β → δ} {q : γ → δ}
    (each : ∀ x ∈ xs, ∀ y ∈ f x, ∃ z, g x = some z ∧ p y = q z) :
    ((xs.filterMap f).map p).Sublist ((xs.filterMap g).map q) := by
  induction xs with
  | nil => exact .slnil
  | cons x xs ih =>
    obtain ⟨first, others⟩ := List.forall_mem_cons.mp each
    cases made : f x with
    | none =>
      rw [List.filterMap_cons_none made]
      cases from' : g x with
      | none =>
        rw [List.filterMap_cons_none from']
        exact ih others
      | some z =>
        rw [List.filterMap_cons_some from']
        exact (ih others).cons _
    | some y =>
      obtain ⟨z, comes, same⟩ := first y made
      rw [List.filterMap_cons_some made, List.filterMap_cons_some comes, List.map_cons, List.map_cons, same]
      exact (ih others).cons_cons _

-- The bindings are those of contracts that were found.
theorem bindings_compile (sound : e.Sound rules)
    (standard : e.pipelines.lookup "default" = some Pass.standard) (d : Document) (o : Options) :
    let bindings := (e.compile rules d o none).1.compilation.bindings
    (bindings.map (·.name)).Sublist (d.discover.contracts.map (·.2.bindingName)) ∧
      (bindings.map (·.moduleName)).Sublist (d.discover.contracts.map (·.2.moduleName)) := by
  have each : ∀ client ∈ d.discover.clients,
      ∀ b ∈ (fun k : CompiledContract => if k.status = .success then k.binding else none)
        (clientResult e.pipelines rules o none client),
      ∃ k, client = (client.1, .ok k) ∧ b.name = k.bindingName ∧ b.moduleName = k.moduleName :=
    fun client _ b bound => by
      obtain ⟨k, found, named⟩ :=
        (isBuilt_clientResult standard client o).2 b (Option.ite_none_right_eq_some.mp bound).2
      exact ⟨k, Prod.ext rfl found, named⟩
  simp only [Compilation.bindings, sound.compile_contracts, List.filterMap_map]
  refine ⟨map_filterMap_sublist fun client inside b bound => ?_,
    map_filterMap_sublist fun client inside b bound => ?_⟩
  · obtain ⟨k, found, name, -⟩ := each client inside b bound
    exact ⟨(client.1, k), by rw [found], name⟩
  · obtain ⟨k, found, -, module⟩ := each client inside b bound
    exact ⟨(client.1, k), by rw [found], module⟩

theorem isPackage_compile (sound : e.Sound rules)
    (standard : e.pipelines.lookup "default" = some Pass.standard) (d : Document) (o : Options) :
    (e.compile rules d o none).1.compilation.IsPackage o := by
  obtain ⟨names, modules⟩ := bindings_compile sound standard d o
  obtain ⟨failed, declared, fakes⟩ := sound.compile_fakes d o none
  have contracts : ∀ k ∈ (e.compile rules d o none).1.compilation.contracts, k.IsBuilt o := by
    rw [sound.compile_contracts]
    exact List.forall_mem_map.mpr fun client _ => (isBuilt_clientResult standard client o).1
  have own : ∀ b ∈ (e.compile rules d o none).1.compilation.bindings,
      b.manifest.cancellationType = o.cancellationType := fun b inside => by
    obtain ⟨k, there, -, bound⟩ := Compilation.mem_bindings_iff.mp inside
    obtain ⟨⟨v, rfl⟩, -⟩ := (contracts k there).of_binding bound
    rfl
  refine ⟨contracts, fun b inside => ?_, (nodup_moduleName_contracts d).sublist modules, rfl, rfl, ?_⟩
  · obtain ⟨⟨name, k⟩, found, same⟩ := List.mem_map.mp (names.subset (List.mem_map_of_mem inside))
    exact same ▸ isUsableBinding_of_mem_contracts found
  · rw [fakes]
    exact List.forall_mem_map.mpr fun target _ => isBuilt_targetResult own failed declared target

end Engine

end HubContract
