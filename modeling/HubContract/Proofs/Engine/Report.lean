import HubContract.Proofs.Contract.Suggestion
import HubContract.Proofs.Document.Refusal
import HubContract.Proofs.Engine.Locality

namespace HubContract

-- The fixes for a hub client as it was found in a document.
def Discovery.fixes (client : String × Except (List Diagnostic) Contract) : List Fix :=
  match client.2 with
  | .ok k => k.fixes
  | .error _ => []

-- All fixes for a document. They do not depend on options.
def Document.suggestions (d : Document) : List Fix := d.discover.clients.flatMap Discovery.fixes

-- The bindings of the contracts that were compiled.
def Compilation.bindings (c : Compilation) : List ClientBinding :=
  c.contracts.filterMap fun k => if k.status = .success then k.binding else none

-- The codes under which fakes are refused.
def CompiledFake.refusals : List Code := [.unrecognizedManifest, .unknownFakeTarget]

theorem Document.mem_suggestions_iff {d : Document} {f : Fix} :
    f ∈ d.suggestions ↔ ∃ name k, (name, .ok k) ∈ d.discover.clients ∧ f ∈ k.fixes := by
  rw [suggestions, List.mem_flatMap]
  constructor
  · rintro ⟨⟨name, outcome⟩, found, mem⟩
    cases outcome with
    | error ds => cases mem
    | ok k => exact ⟨name, k, found, mem⟩
  · rintro ⟨name, k, found, mem⟩
    exact ⟨_, found, mem⟩

-- Fixes come with errors.
theorem Diagnostic.flatMap_fixes {ds : List Diagnostic} (each : ∀ δ ∈ ds, δ.isError ∨ δ.fixes = []) :
    ds.flatMap (·.fixes) = (errors ds).flatMap (·.fixes) := by
  induction ds with
  | nil => rfl
  | cons δ ds ih =>
    obtain ⟨first, others⟩ := List.forall_mem_cons.mp each
    rw [List.flatMap_cons, ih others, errors, errors, List.filter_cons]
    split
    · rfl
    · rename_i remark
      rw [first.resolve_left remark, List.nil_append]

namespace Engine

open HubContract.Document

section

variable {rules : RuleSet} {e : Engine}

-- Each fake is settled by itself.
theorem Sound.compile_fakes (h : e.Sound rules) (d : Document) (o : Options) (pipeline : Option String) :
    let c := (e.compile rules d o pipeline).1.compilation
    ∃ failed declared, c.fakes = d.fakes.map (targetResult c.bindings failed declared o) := by
  obtain ⟨-, sound, -⟩ := h.each_client o pipeline d.discover.clients
  exact ⟨_, _, (sound.each_target _ _ _ o d.fakes).1⟩

end

-- A fake is made without a word, or there is one reason why it is not.
theorem targetResult_cases (bindings : List ClientBinding) (failed declared : List String) (o : Options)
    (target : String) :
    let f := targetResult bindings failed declared o target
    (∃ b ∈ bindings, b.name = target) ∧ f.fake.isSome ∧ f.source.isSome ∧ f.diagnostics = [] ∨
      f.fake = none ∧ f.source = none ∧
        ∃ δ, f.diagnostics = [δ] ∧ δ.IsRefusal CompiledFake.refusals := by
  intro f
  unfold f targetResult
  split
  case h_1 b found =>
    have known : ∃ b ∈ bindings, b.name = target :=
      ⟨b, List.mem_reverse.mp (List.mem_of_find?_eq_some found), by simpa using List.find?_some found⟩
    unfold Pipeline.compileFake
    split
    · exact .inl ⟨known, rfl, rfl, rfl⟩
    · exact .inr ⟨rfl, rfl, _, rfl, rfl, rfl, by simp [CompiledFake.refusals]⟩
  case h_2 => exact .inr ⟨rfl, rfl, _, rfl, rfl, rfl, by simp [CompiledFake.refusals]⟩

section

variable {d : Document} {o : Options} {c : CompiledContract} {g : Diagnostic} {name : String}
  {k : Contract}

theorem sound_standard : standard.Sound .builtIn :=
  sound_empty.registerPipeline _ (Pass.standard_extensional _)

theorem contracts_compile (d : Document) (o : Options) : (d.compile o).contracts =
    d.discover.clients.map (clientResult standard.pipelines .builtIn o none) :=
  sound_standard.compile_contracts d o none

theorem mem_diagnostics_compile (compiled : c ∈ (d.compile o).contracts) (reported : g ∈ c.diagnostics) :
    g ∈ (d.compile o).diagnostics :=
  List.mem_append_left _ (List.mem_flatMap.mpr ⟨c, compiled, reported⟩)

-- All that the pipeline reports of a contract are its errors and remarks.
theorem diagnostics_clientResult (name : String) (k : Contract) (o : Options) :
    let r := clientResult standard.pipelines .builtIn o none (name, .ok k)
    Diagnostic.errors r.diagnostics = k.errors ∧ ∀ δ ∈ r.diagnostics, δ.isError ∨ δ.IsRemark := by
  obtain ⟨errors, kinds, -⟩ := Pipeline.compile_cases .builtIn k o
  exact ⟨errors.trans k.errorsUnder_builtIn, kinds⟩

-- Every error of a contract is reported.
theorem exists_reported_of_mem_errors {f : Finding} (o : Options)
    (found : (name, .ok k) ∈ d.discover.clients) (error : f ∈ k.errors) :
    ∃ c ∈ (d.compile o).contracts, c.contractName = name ∧ ∃ g ∈ c.diagnostics, g.finding = f := by
  rw [← (diagnostics_clientResult name k o).1] at error
  obtain ⟨g, inside, finding⟩ := List.mem_map.mp error
  refine ⟨clientResult standard.pipelines .builtIn o none (name, .ok k), ?_,
    contractName_clientResult rfl o (clients_name found), g, (List.mem_filter.mp inside).1, finding⟩
  rw [contracts_compile]
  exact List.mem_map_of_mem found

-- So is every fix, and moves under a code of their own.
theorem exists_reported_of_mem_fixes {f : Fix} (o : Options) (found : (name, .ok k) ∈ d.discover.clients)
    (suggested : f ∈ k.fixes) :
    ∃ g ∈ (d.compile o).diagnostics, f ∈ g.fixes ∧ (f.kind.isMove ↔ g.code = .methodOnBridge) := by
  obtain ⟨e, error, inside⟩ := List.mem_flatMap.mp suggested
  obtain ⟨c, compiled, -, g, reported, rfl⟩ := exists_reported_of_mem_errors o found error
  exact ⟨g, mem_diagnostics_compile compiled reported, inside,
    (Contract.suggests_of_mem_errors error inside).2⟩

-- What is reported of a hub client is an error or a remark of its contract, or discovery has refused it.
theorem of_mem_diagnostics (compiled : c ∈ (d.compile o).contracts) (reported : g ∈ c.diagnostics) :
    (∃ k, (c.contractName, .ok k) ∈ d.discover.clients ∧ (g.finding ∈ k.errors ∨ g.IsRemark)) ∨
      g.IsRefusal Discovery.refusals := by
  rw [contracts_compile] at compiled
  obtain ⟨⟨name, outcome⟩, found, rfl⟩ := List.mem_map.mp compiled
  cases outcome with
  | error ds => exact .inr (isRefusal_of_mem_outcomes found g reported)
  | ok k =>
    have named : (clientResult standard.pipelines .builtIn o none (name, .ok k)).contractName = name :=
      contractName_clientResult rfl o (clients_name found)
    obtain ⟨errors, kinds⟩ := diagnostics_clientResult name k o
    refine .inl ⟨k, named ▸ found, (kinds g reported).imp_left fun error => ?_⟩
    rw [← errors]
    exact List.mem_map_of_mem (List.mem_filter.mpr ⟨reported, error⟩)

theorem diagnostics_compile (d : Document) (o : Options) : (d.compile o).diagnostics =
    (d.compile o).contracts.flatMap (·.diagnostics) ++ (d.compile o).fakes.flatMap (·.diagnostics) := rfl

theorem isRefusal_of_mem_fakes {f : CompiledFake} (settled : f ∈ (d.compile o).fakes)
    (reported : g ∈ f.diagnostics) : g.IsRefusal CompiledFake.refusals := by
  obtain ⟨failed, declared, fakes⟩ := sound_standard.compile_fakes d o none
  have fakes : (d.compile o).fakes = _ := fakes
  rw [fakes] at settled
  obtain ⟨target, -, rfl⟩ := List.mem_map.mp settled
  obtain ⟨-, -, -, silent⟩ | ⟨-, -, δ, only, refusal⟩ := targetResult_cases _ failed declared o target
  · rw [silent] at reported
    cases reported
  · rw [only] at reported
    exact List.mem_singleton.mp reported ▸ refusal

-- A diagnostic belongs to a hub client, or it says why a fake is not made.
theorem exists_contract_of_reported (reported : g ∈ (d.compile o).diagnostics) :
    (∃ c ∈ (d.compile o).contracts, g ∈ c.diagnostics) ∨ g.IsRefusal CompiledFake.refusals := by
  rw [diagnostics_compile, List.mem_append, List.mem_flatMap, List.mem_flatMap] at reported
  obtain client | ⟨f, settled, inside⟩ := reported
  · exact .inl client
  · exact .inr (isRefusal_of_mem_fakes settled inside)

-- An error under a code that is neither a refusal's nor a remark's is one of a contract.
theorem exists_error_of_reported (compiled : c ∈ (d.compile o).contracts) (reported : g ∈ c.diagnostics)
    (code : g.code ∉ Discovery.refusals ++ [.duplicateSignature, .sharedWireName]) :
    ∃ k, (c.contractName, .ok k) ∈ d.discover.clients ∧ g.finding ∈ k.errors := by
  rw [List.mem_append, not_or] at code
  obtain ⟨k, found, error | ⟨-, -, remark⟩⟩ | refusal := of_mem_diagnostics compiled reported
  · exact ⟨k, found, error⟩
  · exact absurd (by simpa using remark) code.2
  · exact absurd refusal.code code.1

-- The fixes that diagnostics carry are those for the contracts.
theorem flatMap_fixes_compile (d : Document) (o : Options) :
    (d.compile o).diagnostics.flatMap (·.fixes) = d.suggestions := by
  have client : ∀ c ∈ d.discover.clients,
      (clientResult standard.pipelines .builtIn o none c).diagnostics.flatMap (·.fixes) =
        Discovery.fixes c := by
    rintro ⟨name, outcome⟩ found
    cases outcome with
    | error ds =>
      exact List.flatMap_eq_nil_iff.mpr fun δ inside => (isRefusal_of_mem_outcomes found δ inside).fixes
    | ok k =>
      obtain ⟨errors, kinds⟩ := diagnostics_clientResult name k o
      rw [Diagnostic.flatMap_fixes fun δ inside => (kinds δ inside).imp_right (·.2.1), errors]
      rfl
  have fakes : ((d.compile o).fakes.flatMap (·.diagnostics)).flatMap (·.fixes) = [] := by
    refine List.flatMap_eq_nil_iff.mpr fun δ inside => ?_
    obtain ⟨f, settled, reported⟩ := List.mem_flatMap.mp inside
    exact (isRefusal_of_mem_fakes settled reported).fixes
  rw [diagnostics_compile, List.flatMap_append, fakes, List.append_nil, contracts_compile,
    List.flatMap_map, List.flatMap_assoc]
  exact List.flatMap_congr client

end

end Engine

end HubContract
