import HubContract.Proofs.Engine.Verdict
import HubContract.Proofs.Pipeline.Numbering

namespace HubContract

open Diagnostic

-- The identifier of what is said of a fake that is not made.
def CompiledFake.refusalId (f : CompiledFake) : String := numbered ("fake:" ++ f.target) 1

theorem Diagnostic.IsNumbered.exists_of_mem {subject id : String} {first : Nat} {ds : List Diagnostic}
    (h : IsNumbered subject first ds) (mem : id ∈ ds.map (·.id)) : ∃ n, id = numbered subject n := by
  rw [h] at mem
  obtain ⟨n, -, rfl⟩ := List.mem_map.mp mem
  exact ⟨n, rfl⟩

theorem Diagnostic.IsNumbered.first_mem {subject : String} {ds : List Diagnostic}
    (h : IsNumbered subject 1 ds) (some : ds ≠ []) : numbered subject 1 ∈ ds.map (·.id) := by
  have length := List.length_pos_iff.mpr some
  rw [h]
  exact List.mem_map_of_mem (List.mem_range'_1.mpr ⟨Nat.le_refl 1, by omega⟩)

namespace Compilation

-- Subjects with different names have different identifiers.
theorem nodup_ids {ks : List CompiledContract} (names : (ks.map (·.contractName)).Nodup)
    (each : ∀ k ∈ ks, IsNumbered k.contractName 1 k.diagnostics) :
    ((ks.flatMap (·.diagnostics)).map (·.id)).Nodup := by
  induction ks with
  | nil => exact List.nodup_nil
  | cons k ks ih =>
    obtain ⟨first, others⟩ := List.forall_mem_cons.mp each
    obtain ⟨new, names⟩ := List.nodup_cons.mp names
    rw [List.flatMap_cons, List.map_append]
    refine List.nodup_append.mpr ⟨first.nodup, ih names others, ?_⟩
    rintro id mem _ mem' rfl
    obtain ⟨δ, inside, same⟩ := List.mem_map.mp mem'
    obtain ⟨k', there, inside⟩ := List.mem_flatMap.mp inside
    obtain ⟨n, numbered⟩ := first.exists_of_mem mem
    obtain ⟨n', numbered'⟩ := (others k' there).exists_of_mem (List.mem_map_of_mem inside)
    have subjects := (numbered_inj (numbered'.symm.trans (same.trans numbered))).1
    exact new (List.mem_map.mpr ⟨k', there, subjects⟩)

-- Fakes that are made are silent.
theorem map_id_fakes {fs : List CompiledFake}
    (each : ∀ f ∈ fs, f.fake.isSome ∧ f.diagnostics = [] ∨
      f.fake = none ∧ f.diagnostics.map (·.id) = [f.refusalId]) :
    (fs.flatMap (·.diagnostics)).map (·.id) = (fs.filter (·.fake.isNone)).map (·.refusalId) := by
  induction fs with
  | nil => rfl
  | cons f fs ih =>
    obtain ⟨first, others⟩ := List.forall_mem_cons.mp each
    rw [List.flatMap_cons, List.map_append, ih others]
    obtain ⟨made, silent⟩ | ⟨missing, refused⟩ := first
    · rw [List.filter_cons_of_neg (by simpa [Option.isSome_iff_ne_none] using made), silent]
      rfl
    · rw [List.filter_cons_of_pos (by simp [missing]), refused]
      rfl

end Compilation

namespace Document

variable {d : Document} {claims : Claims} {name : String} {ds : List Diagnostic}

theorem length_diagnosticsFrom (subject : String) (n : Nat) (ps : List Problem) :
    (diagnosticsFrom subject n ps).length = ps.length := by
  induction ps generalizing n with
  | nil => rfl
  | cons p ps ih => rw [diagnosticsFrom, List.length_cons, List.length_cons, ih]

theorem isNumbered_diagnosticsFrom (subject : String) (n : Nat) (ps : List Problem) :
    IsNumbered subject n (diagnosticsFrom subject n ps) := by
  unfold IsNumbered
  rw [length_diagnosticsFrom]
  induction ps generalizing n with
  | nil => rfl
  | cons p ps ih =>
    rw [diagnosticsFrom, List.map_cons, ih, List.length_cons, List.range'_succ, List.map_cons]
    rfl

theorem isNumbered_of_claimModule {friendly : Option String} {δ : Diagnostic}
    (refused : claimModule claims name friendly = .error δ) : IsNumbered name 1 [δ] := by
  unfold claimModule at refused
  dsimp only at refused
  split at refused
  · split at refused
    · cases refused
    · obtain rfl := Except.error.inj refused
      rfl
  · obtain rfl := Except.error.inj refused
    rfl

-- What discovery says of a hub client is numbered.
theorem isNumbered_of_mem_outcomes {es : List Declaration}
    (mem : (name, .error ds) ∈ d.outcomes claims es) : IsNumbered name 1 ds := by
  obtain ⟨e, -, marker, -, rfl, ⟨claims, δ, refused, same⟩ | unresolved⟩ := of_mem_outcomes mem
  · obtain rfl := Except.error.inj same
    exact isNumbered_of_claimModule refused
  · obtain ⟨ps, -, rfl⟩ := resolveClient_eq_error_iff.mp unresolved.symm
    exact isNumbered_diagnosticsFrom e.name 1 ps

end Document

namespace Engine

open HubContract.Document

variable {rules : RuleSet} {e : Engine} {d : Document} {o : Options}

theorem isNumbered_clientResult (standard : e.pipelines.lookup "default" = some Pass.standard)
    {client : String × Except (List Diagnostic) Contract} (found : client ∈ d.discover.clients)
    (o : Options) :
    IsNumbered client.1 1 (clientResult e.pipelines rules o none client).diagnostics := by
  obtain ⟨name, outcome⟩ := client
  cases outcome with
  | error ds => exact isNumbered_of_mem_outcomes found
  | ok k =>
    simp only [clientResult, nameOr, contractResult, standard]
    have named : k.name = name := clients_name found k rfl
    exact named ▸ Pipeline.isNumbered_compile rules k o

theorem ids_targetResult (bindings : List ClientBinding) (failed declared : List String) (o : Options)
    (target : String) :
    let f := targetResult bindings failed declared o target
    f.fake.isSome ∧ f.diagnostics = [] ∨ f.fake = none ∧ f.diagnostics.map (·.id) = [f.refusalId] := by
  intro f
  unfold f targetResult
  split
  · unfold Pipeline.compileFake
    split
    · exact .inl ⟨rfl, rfl⟩
    · exact .inr ⟨rfl, rfl⟩
  · exact .inr ⟨rfl, rfl⟩

section

variable (sound : e.Sound rules) (standard : e.pipelines.lookup "default" = some Pass.standard)

include sound

theorem ids_of_mem_fakes : ∀ f ∈ (e.compile rules d o none).1.compilation.fakes,
    f.fake.isSome ∧ f.diagnostics = [] ∨ f.fake = none ∧ f.diagnostics.map (·.id) = [f.refusalId] := by
  obtain ⟨failed, declared, fakes⟩ := sound.compile_fakes d o none
  rw [fakes]
  exact List.forall_mem_map.mpr fun target _ => ids_targetResult _ failed declared o target

include standard

theorem isNumbered_of_mem_contracts : ∀ k ∈ (e.compile rules d o none).1.compilation.contracts,
    IsNumbered k.contractName 1 k.diagnostics := by
  rw [sound.compile_contracts]
  refine List.forall_mem_map.mpr fun client found => ?_
  rw [contractName_clientResult standard o (clients_name found)]
  exact isNumbered_clientResult standard found o

theorem nodup_contractNames (distinct : d.Distinct) :
    ((e.compile rules d o none).1.compilation.contracts.map (·.contractName)).Nodup := by
  rw [contractNames_compile sound standard]
  exact distinct.sublist (List.filter_sublist.map _)

end

-- The diagnostics of hub clients always have different identifiers. With those of fakes they do exactly
-- if no target that gets no fake is asked for twice, and no hub client of which something is said is
-- called like one of these targets behind its mark.
theorem ids_distinct_iff {x : Data} (read : ofData x = .ok d) (reachable : e.Reachable rules)
    (standard : e.pipelines.lookup "default" = some Pass.standard) (o : Options) :
    let c := (e.compile rules d o none).1.compilation
    let unmade := c.fakes.filter (·.fake.isNone)
    c.diagnostics = c.contracts.flatMap (·.diagnostics) ++ c.fakes.flatMap (·.diagnostics) ∧
    (∀ k ∈ c.contracts, IsNumbered k.contractName 1 k.diagnostics) ∧
    ((c.contracts.flatMap (·.diagnostics)).map (·.id)).Nodup ∧
    c.fakes.map (·.target) = d.fakes ∧
    (c.fakes.flatMap (·.diagnostics)).map (·.id) =
      unmade.map (fun f => numbered ("fake:" ++ f.target) 1) ∧
    ((c.diagnostics.map (·.id)).Nodup ↔ (unmade.map (·.target)).Nodup ∧
      ∀ k ∈ c.contracts, k.diagnostics ≠ [] → ∀ f ∈ unmade, k.contractName ≠ "fake:" ++ f.target) := by
  intro c unmade
  have sound := reachable.sound
  have numbered : ∀ k ∈ c.contracts, IsNumbered k.contractName 1 k.diagnostics :=
    isNumbered_of_mem_contracts sound standard
  have clients : ((c.contracts.flatMap (·.diagnostics)).map (·.id)).Nodup :=
    Compilation.nodup_ids (nodup_contractNames sound standard (distinct_of_ofData read)) numbered
  have fakes : (c.fakes.flatMap (·.diagnostics)).map (·.id) = unmade.map (·.refusalId) :=
    Compilation.map_id_fakes (ids_of_mem_fakes sound)
  refine ⟨rfl, numbered, clients, targets_compile sound standard d o, fakes, ?_⟩
  have all : c.diagnostics.map (·.id) =
      (c.contracts.flatMap (·.diagnostics)).map (·.id) ++ unmade.map (·.refusalId) := by
    rw [← fakes, ← List.map_append]
    rfl
  have once : (unmade.map (·.refusalId)).Nodup ↔ (unmade.map (·.target)).Nodup := by
    have ids : unmade.map (·.refusalId) =
        (unmade.map (·.target)).map fun target => Diagnostic.numbered ("fake:" ++ target) 1 := by
      rw [List.map_map]
      rfl
    rw [ids, List.nodup_map_iff]
    intro target target' same
    simpa using (numbered_inj same).1
  rw [all, List.nodup_append, and_iff_right clients, once]
  refine and_congr_right fun _ => ⟨fun apart k there some f missing same => ?_, ?_⟩
  · have first := (numbered k there).first_mem some
    rw [same] at first
    obtain ⟨δ, inside, id⟩ := List.mem_map.mp first
    have reported := List.mem_map_of_mem (f := (·.id)) (List.mem_flatMap.mpr ⟨k, there, inside⟩)
    exact apart _ reported _ (List.mem_map_of_mem missing) id
  · rintro apart _ mem _ mem' rfl
    obtain ⟨f, missing, same⟩ := List.mem_map.mp mem'
    obtain ⟨δ, inside, id⟩ := List.mem_map.mp mem
    obtain ⟨k, there, reported⟩ := List.mem_flatMap.mp inside
    obtain ⟨n, own⟩ := (numbered k there).exists_of_mem (List.mem_map_of_mem reported)
    have subjects := (numbered_inj (own.symm.trans (id.trans same.symm))).1
    exact apart k there (List.ne_nil_of_mem reported) f missing subjects

-- One of two hub clients has no address, so its fake is not made either.
theorem ids_distinct_iff_muteAndPorch :
    let c := (standard.compile .builtIn muteAndPorch {} none).1.compilation
    ofData muteAndPorch.toData = .ok muteAndPorch ∧ c.fakes.map (·.target) = ["PorchClient", "MuteClient"] ∧
      (c.diagnostics.map (·.id)).Nodup := by
  intro c
  obtain ⟨-, -, -, targets, -, distinct⟩ := ids_distinct_iff ofData_muteAndPorch reachable_standard rfl {}
  refine ⟨ofData_muteAndPorch, targets, distinct.mpr ⟨?_, fun k there _ f _ same => ?_⟩⟩
  · have all : (c.fakes.map (·.target)).Nodup := by
      rw [targets]
      decide
    exact all.sublist (List.filter_sublist.map _)
  · have names : c.contracts.map (·.contractName) = ["IMute", "IPorch"] :=
      contractNames_compile reachable_standard.sound rfl muteAndPorch {}
    have named : k.contractName ∈ ["IMute", "IPorch"] := names ▸ List.mem_map_of_mem there
    have first : ∀ name ∈ ["IMute", "IPorch"], name.toList.head? = some 'I' := by decide
    have other := first _ named
    rw [same] at other
    simp at other

-- A target may be asked for twice, and a hub client may be called like the mark with a target.
theorem ids_distinct_iff_ghost :
    let twice : Document := ⟨[], ["GhostClient", "GhostClient"]⟩
    let marked : Document := ⟨[{ name := "fake:Ghost", hubClient := some {} }], ["Ghost"]⟩
    ofData twice.toData = .ok twice ∧ ofData marked.toData = .ok marked ∧
      (twice.compile {}).diagnostics.map (·.id) = ["fake:GhostClient:d001", "fake:GhostClient:d001"] ∧
      (marked.compile {}).diagnostics.map (·.id) = ["fake:Ghost:d001", "fake:Ghost:d001"] := by
  intro twice marked
  exact ⟨by rfl, by rfl, by decide +kernel, by decide +kernel⟩

end Engine

end HubContract
