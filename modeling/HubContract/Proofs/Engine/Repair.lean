import HubContract.Proofs.Document.Suggestion
import HubContract.Proofs.Engine.Report

namespace HubContract.Engine

open HubContract.Document

variable {d : Document} {f : Fix}

theorem admits_of_mem_suggestions (canonical : d.IsCanonical) (suggested : f ∈ d.suggestions) :
    d.Admits f := by
  obtain ⟨name, k, found, inside⟩ := mem_suggestions_iff.mp suggested
  obtain ⟨e, marker, declared, rfl, -, contract⟩ := exists_client canonical.distinct found
  exact admits_of_suggests contract declared (canonical.of_get? declared)
    (Contract.suggests_of_mem_fixes inside)

-- Fixes for a document can be applied in any order and number.
theorem exists_applyAll_suggestions (canonical : d.IsCanonical) {fs : List Fix}
    (suggested : ∀ f ∈ fs, f ∈ d.suggestions) : ∃ d', d.applyAll fs = .ok d' ∧ d.Alike d' :=
  exists_applyAll canonical.distinct fun f inside => admits_of_mem_suggestions canonical (suggested f inside)

theorem applyFixes_eq_of_select {ds : List Diagnostic} {keys : Option (List String)} {fs : List Fix}
    (picked : Fix.select ds keys = .ok fs) : d.applyFixes ds keys = d.applyAll fs := by
  rw [applyFixes, picked]
  rfl

-- What can be selected can be applied, and changes nothing but methods.
theorem exists_applyFixes_of_select (canonical : d.IsCanonical) {o : Options}
    {keys : Option (List String)} {fs : List Fix}
    (picked : Fix.select (d.compile o).diagnostics keys = .ok fs) :
    ∃ d', d.applyFixes (d.compile o).diagnostics keys = .ok d' ∧ d.Alike d' := by
  have suggested : ∀ f ∈ fs, f ∈ d.suggestions :=
    flatMap_fixes_compile d o ▸ Fix.mem_of_mem_select picked
  rw [applyFixes_eq_of_select picked]
  exact exists_applyAll_suggestions canonical suggested

-- The fixes that a document's own diagnostics carry can be applied to it: the first one of each, or any
-- that are selected by keys, as long as each key occurs. Any list of them can, in any order.
theorem applyFixes_own {x : Data} (read : ofData x = .ok d) (o : Options) :
    (∃ d', d.applyFixes (d.compile o).diagnostics none = .ok d' ∧ d.Alike d') ∧
    (∀ keys, (∃ d', d.applyFixes (d.compile o).diagnostics (some keys) = .ok d') ↔
      ∀ key ∈ keys, ∃ f ∈ (d.compile o).diagnostics.flatMap (·.fixes), f.key = key) ∧
    ∀ fs, (∀ f ∈ fs, f ∈ (d.compile o).diagnostics.flatMap (·.fixes)) →
      ∃ d', d.applyAll fs = .ok d' ∧ d.Alike d' := by
  have canonical := isCanonical_of_ofData read
  refine ⟨exists_applyFixes_of_select canonical rfl, fun keys => ?_, fun fs shown => ?_⟩
  · rw [← Fix.exists_select_iff]
    constructor
    · rintro ⟨d', applied⟩
      cases picked : Fix.select (d.compile o).diagnostics (some keys) with
      | error e =>
        rw [applyFixes, picked] at applied
        cases applied
      | ok fs => exact ⟨fs, rfl⟩
    · rintro ⟨fs, picked⟩
      obtain ⟨d', applied, -⟩ := exists_applyFixes_of_select canonical picked
      exact ⟨d', applied⟩
  · rw [flatMap_fixes_compile] at shown
    exact exists_applyAll_suggestions canonical shown

-- Both moves of one method: the second finds it gone.
theorem applyFixes_own_lounge :
    let keys := ["move_to_invoke:ILounge.Ping()", "move_to_push:ILounge.Ping()"]
    ofData lounge.toData = .ok lounge ∧
      ∃ d', lounge.applyFixes (lounge.compile {}).diagnostics (some keys) = .ok d' := by
  intro keys
  obtain ⟨-, selected, -⟩ := applyFixes_own ofData_lounge {}
  refine ⟨ofData_lounge, (selected keys).mpr fun key inside => ?_⟩
  have known : ∀ key ∈ keys, key ∈ loungeContract.fixes.map (·.key) := by decide +kernel
  obtain ⟨f, suggested, rfl⟩ := List.mem_map.mp (known key inside)
  rw [flatMap_fixes_compile]
  exact ⟨f, mem_suggestions_iff.mpr ⟨_, _, lounge_clients, suggested⟩, rfl⟩

end HubContract.Engine
