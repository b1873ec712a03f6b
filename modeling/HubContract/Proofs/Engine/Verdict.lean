import HubContract.Proofs.Document.Provenance
import HubContract.Proofs.Document.RoundTrip
import HubContract.Proofs.Engine.Report

namespace HubContract

-- A contract has its binding and no error, or an error and no binding.
def CompiledContract.IsSettled (c : CompiledContract) : Prop :=
  c.status = .success ∧ c.binding.isSome ∧ (∀ δ ∈ c.diagnostics, ¬ δ.isError) ∨
    c.status = .failed ∧ c.binding = none ∧ ∃ δ ∈ c.diagnostics, δ.isError

-- A fake is there with its source and without a diagnostic, or one error says why it is not.
def CompiledFake.IsSettled (f : CompiledFake) : Prop :=
  f.fake.isSome ∧ f.source.isSome ∧ f.diagnostics = [] ∨
    f.fake = none ∧ f.source = none ∧ ∃ δ, f.diagnostics = [δ] ∧ δ.isError

-- Every contract was compiled and every fake was made.
def Compilation.IsComplete (c : Compilation) : Prop :=
  (∀ k ∈ c.contracts, k.status = .success) ∧ ∀ f ∈ c.fakes, f.fake.isSome

theorem CompiledContract.IsSettled.binding_iff {c : CompiledContract} (h : c.IsSettled) :
    c.binding.isSome ↔ c.status = .success := by
  obtain ⟨status, made, -⟩ | ⟨status, none, -⟩ := h
  · exact iff_of_true made status
  · exact iff_of_false (by simp [none]) (by simp [status])

theorem CompiledContract.IsSettled.error_iff {c : CompiledContract} (h : c.IsSettled) :
    (∃ δ ∈ c.diagnostics, δ.isError) ↔ c.status ≠ .success := by
  obtain ⟨status, -, silent⟩ | ⟨status, -, error⟩ := h
  · exact iff_of_false (fun ⟨δ, inside, error⟩ => silent δ inside error) (by simp [status])
  · exact iff_of_true error (by simp [status])

theorem CompiledFake.IsSettled.error_iff {f : CompiledFake} (h : f.IsSettled) :
    (∃ δ ∈ f.diagnostics, δ.isError) ↔ ¬ f.fake.isSome := by
  obtain ⟨made, -, silent⟩ | ⟨none, -, δ, only, error⟩ := h
  · exact iff_of_false (by simp [silent]) (not_not_intro made)
  · exact iff_of_true ⟨δ, by simp [only], error⟩ (by simp [none])

namespace Compilation

variable {c : Compilation} (contracts : ∀ k ∈ c.contracts, k.IsSettled)

include contracts

-- Nothing fails silently, and nothing that is reported as an error goes well.
theorem exists_error_iff (fakes : ∀ f ∈ c.fakes, f.IsSettled) :
    (∃ δ ∈ c.contracts.flatMap (·.diagnostics) ++ c.fakes.flatMap (·.diagnostics), δ.isError) ↔
      ¬ c.IsComplete := by
  constructor
  · rintro ⟨δ, inside, error⟩ ⟨compiled, made⟩
    obtain contract | fake := List.mem_append.mp inside
    · obtain ⟨k, there, reported⟩ := List.mem_flatMap.mp contract
      exact (contracts k there).error_iff.mp ⟨δ, reported, error⟩ (compiled k there)
    · obtain ⟨f, there, reported⟩ := List.mem_flatMap.mp fake
      exact (fakes f there).error_iff.mp ⟨δ, reported, error⟩ (made f there)
  · intro incomplete
    rw [IsComplete, not_and_or] at incomplete
    push Not at incomplete
    obtain ⟨k, there, failed⟩ | ⟨f, there, missing⟩ := incomplete
    · obtain ⟨δ, reported, error⟩ := (contracts k there).error_iff.mpr failed
      exact ⟨δ, List.mem_append_left _ (List.mem_flatMap.mpr ⟨k, there, reported⟩), error⟩
    · obtain ⟨δ, reported, error⟩ := (fakes f there).error_iff.mpr (by simp [missing])
      exact ⟨δ, List.mem_append_right _ (List.mem_flatMap.mpr ⟨f, there, reported⟩), error⟩

theorem bindings_ne_nil_iff : c.bindings ≠ [] ↔ ∃ k ∈ c.contracts, k.binding.isSome := by
  constructor
  · intro some
    obtain ⟨b, inside⟩ := List.exists_mem_of_ne_nil _ some
    obtain ⟨k, there, bound⟩ := List.mem_filterMap.mp inside
    split at bound
    · exact ⟨k, there, Option.isSome_of_eq_some bound⟩
    · cases bound
  · rintro ⟨k, there, bound⟩
    obtain ⟨b, made⟩ := Option.isSome_iff_exists.mp bound
    have inside : b ∈ c.bindings := List.mem_filterMap.mpr
      ⟨k, there, by rw [if_pos ((contracts k there).binding_iff.mp bound), made]⟩
    exact List.ne_nil_of_mem inside

end Compilation

namespace Pipeline

variable {rules : RuleSet} {k : Contract} {o : Options}

theorem isSettled_compile : (compile Pass.standard rules k o).IsSettled := by
  obtain ⟨errors, -, ⟨clean, status, -, made, -⟩ | ⟨failed, status, -, none, -⟩⟩ :=
    compile_cases rules k o
  · rw [clean, Diagnostic.errors, List.map_eq_nil_iff, List.filter_eq_nil_iff] at errors
    exact .inl ⟨status, Option.isSome_of_eq_some made, errors⟩
  · rw [← errors, Diagnostic.errors, ne_eq, List.map_eq_nil_iff, List.filter_eq_nil_iff] at failed
    push Not at failed
    exact .inr ⟨status, none, failed⟩

-- A manifest has the name of its binding.
theorem bindingName_of_compile {b : ClientBinding}
    (bound : (compile Pass.standard rules k o).binding = some b) : b.manifest.bindingName = b.name := by
  obtain ⟨-, -, ⟨-, -, -, made, -⟩ | ⟨-, -, -, none, -⟩⟩ := compile_cases rules k o
  · obtain rfl := Option.some.inj (made.symm.trans bound)
    rfl
  · cases none.symm.trans bound

end Pipeline

namespace Engine

open HubContract.Document

variable {rules : RuleSet} {e : Engine} {d : Document} {o : Options}

section

variable {client : String × Except (List Diagnostic) Contract}

theorem isSettled_clientResult (standard : e.pipelines.lookup "default" = some Pass.standard)
    (distinct : d.Distinct) (found : client ∈ d.discover.clients) (o : Options) :
    (clientResult e.pipelines rules o none client).IsSettled := by
  obtain ⟨name, outcome⟩ := client
  cases outcome with
  | error ds =>
    have declared : ∀ e ∈ d.declarations, d.get? e.name = some e := fun e => distinct.get?_of_mem
    obtain ⟨δ, inside⟩ := List.exists_mem_of_ne_nil _ (ne_nil_of_mem_outcomes declared found)
    exact .inr ⟨rfl, rfl, δ, inside, (isRefusal_of_mem_outcomes found δ inside).error⟩
  | ok k =>
    simp only [clientResult, nameOr, contractResult, standard]
    exact Pipeline.isSettled_compile

theorem bindingName_of_clientResult (standard : e.pipelines.lookup "default" = some Pass.standard)
    {b : ClientBinding} (made : (clientResult e.pipelines rules o none client).binding = some b) :
    b.manifest.bindingName = b.name := by
  obtain ⟨name, outcome⟩ := client
  cases outcome with
  | error ds => cases made
  | ok k =>
    simp only [clientResult, nameOr, contractResult, standard] at made
    exact Pipeline.bindingName_of_compile made

end

-- An entry carries the target that was asked for.
theorem target_targetResult {bindings : List ClientBinding}
    (named : ∀ b ∈ bindings, b.manifest.bindingName = b.name) (failed declared : List String)
    (o : Options) (target : String) : (targetResult bindings failed declared o target).target = target := by
  unfold targetResult
  split
  case h_1 b found =>
    have name : b.manifest.bindingName = target :=
      (named b (List.mem_reverse.mp (List.mem_of_find?_eq_some found))).trans
        (by simpa using List.find?_some found)
    have asked : nameOr b.manifest.bindingName (some target) = target := by
      rw [name, nameOr, ite_eq_right_iff]
      exact fun empty => rfl
    rw [asked, Pipeline.compileFake]
    split <;> rfl
  case h_2 => rfl

-- The status is decided by whether there was an error and whether anything was made.
theorem overallStatus_iff {bindings : List ClientBinding} {fakes : List CompiledFake}
    {ds : List Diagnostic} {bad produced : Prop} (reported : (∃ δ ∈ ds, δ.isError) ↔ bad)
    (made : (bindings ≠ [] ∨ ∃ f ∈ fakes, f.fake.isSome) ↔ produced) :
    let status := overallStatus bindings fakes ds
    (status = .success ↔ ¬ bad) ∧ (status = .incomplete ↔ bad ∧ produced) ∧
      (status = .failed ↔ bad ∧ ¬ produced) := by
  intro status
  have reported : ds.any Diagnostic.isError = true ↔ bad := List.any_eq_true.trans reported
  have made : (!bindings.isEmpty || fakes.any (·.fake.isSome)) = true ↔ produced := by
    simpa using made
  unfold status overallStatus
  by_cases error : bad
  · rw [reported.mpr error]
    by_cases some : produced
    · simp [made.mpr some, error, some]
    · simp [Bool.eq_false_iff.mpr (some ∘ made.mp), error, some]
  · simp [Bool.eq_false_iff.mpr (error ∘ reported.mp), error]

section

variable (sound : e.Sound rules) (standard : e.pipelines.lookup "default" = some Pass.standard)
  (distinct : d.Distinct)

include sound standard

theorem contractNames_compile (d : Document) (o : Options) :
    (e.compile rules d o none).1.compilation.contracts.map (·.contractName) =
      (d.declarations.filter (·.hubClient.isSome)).map (·.name) := by
  rw [sound.compile_contracts, List.map_map, ← map_fst_outcomes d []]
  exact List.map_congr_left fun client found => contractName_clientResult standard o (clients_name found)

theorem bindingName_of_mem_bindings :
    ∀ b ∈ (e.compile rules d o none).1.compilation.bindings, b.manifest.bindingName = b.name := by
  intro b inside
  obtain ⟨c, compiled, made⟩ := List.mem_filterMap.mp inside
  rw [sound.compile_contracts] at compiled
  obtain ⟨client, -, rfl⟩ := List.mem_map.mp compiled
  split at made
  · exact bindingName_of_clientResult standard made
  · cases made

theorem targets_compile (d : Document) (o : Options) :
    (e.compile rules d o none).1.compilation.fakes.map (·.target) = d.fakes := by
  obtain ⟨failed, declared, fakes⟩ := sound.compile_fakes d o none
  have each : (fun f : CompiledFake => f.target) ∘
      targetResult (e.compile rules d o none).1.compilation.bindings failed declared o = id :=
    funext fun target => target_targetResult (bindingName_of_mem_bindings sound standard) failed declared o target
  rw [fakes, List.map_map, each, List.map_id]

include distinct

theorem isSettled_of_mem_contracts :
    ∀ k ∈ (e.compile rules d o none).1.compilation.contracts, k.IsSettled := by
  rw [sound.compile_contracts]
  intro k inside
  obtain ⟨client, found, rfl⟩ := List.mem_map.mp inside
  exact isSettled_clientResult standard distinct found o

end

-- A fake that is made is one of a binding.
theorem isSettled_of_mem_fakes (sound : e.Sound rules) :
    let c := (e.compile rules d o none).1.compilation
    ∀ f ∈ c.fakes, f.IsSettled ∧ (f.fake.isSome → c.bindings ≠ []) := by
  intro c f inside
  obtain ⟨failed, declared, fakes⟩ := sound.compile_fakes d o none
  rw [fakes] at inside
  obtain ⟨target, -, rfl⟩ := List.mem_map.mp inside
  obtain ⟨⟨b, known, -⟩, made⟩ | ⟨none, nothing, δ, only, refusal⟩ :=
    targetResult_cases c.bindings failed declared o target
  · exact ⟨.inl made, fun _ => List.ne_nil_of_mem known⟩
  · refine ⟨.inr ⟨none, nothing, δ, only, refusal.error⟩, fun made => ?_⟩
    rw [none] at made
    cases made

-- A hub client that has a contract is compiled unless the contract has an error.
theorem status_clientResult_iff (name : String) (k : Contract) (o : Options) :
    (clientResult standard.pipelines .builtIn o none (name, .ok k)).status = .success ↔
      k.errors = [] := by
  obtain ⟨-, -, verdict⟩ := Pipeline.compile_cases .builtIn k o
  rw [k.errorsUnder_builtIn] at verdict
  obtain ⟨clean, compiled, -⟩ | ⟨error, failed, -⟩ := verdict
  · exact iff_of_true compiled clean
  · exact iff_of_false (fun compiled => nomatch failed.symm.trans compiled) error

-- Two hub clients, of which the first has no address.
def muteContract : Contract := { name := "IMute" }

def porchContract : Contract := { name := "IPorch", uri := "porch" }

def mute : Declaration := { name := "IMute", hubClient := some {} }

def porch : Declaration := { name := "IPorch", hubClient := some { uri := "porch" } }

def muteAndPorch : Document := ⟨[mute, porch], ["PorchClient", "MuteClient"]⟩

theorem ofData_muteAndPorch : ofData muteAndPorch.toData = .ok muteAndPorch := by rfl

theorem muteAndPorch_clients : ("IMute", .ok muteContract) ∈ muteAndPorch.discover.clients ∧
    ("IPorch", .ok porchContract) ∈ muteAndPorch.discover.clients := by
  have distinct := distinct_of_ofData ofData_muteAndPorch
  have contract : muteAndPorch.IsContract mute {} muteContract := ⟨rfl, rfl, rfl, rfl, .none, .none, .nil⟩
  have contract' : muteAndPorch.IsContract porch { uri := "porch" } porchContract :=
    ⟨rfl, rfl, rfl, rfl, .none, .none, .nil⟩
  exact ⟨mem_clients_of_isContract distinct rfl rfl ⟨_, rfl⟩ contract,
    mem_clients_of_isContract distinct rfl rfl ⟨_, rfl⟩ contract'⟩

end Engine

end HubContract
