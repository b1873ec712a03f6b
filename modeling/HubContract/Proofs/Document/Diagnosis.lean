import HubContract.Proofs.Document.Client

namespace HubContract

-- A diagnostic that says what a problem is.
def Diagnostic.Reports (δ : Diagnostic) (p : Problem) : Prop :=
  δ.code = p.code ∧ δ.message = p.message ∧ δ.location = some ⟨p.referrer, none⟩

namespace Document

variable {d : Document} {decl : Declaration} {marker : HubMarker} {δ : Diagnostic} {p : Problem}

theorem toDiagnostic_reports (subject : String) (n : Nat) (p : Problem) :
    (p.toDiagnostic subject n).Reports p := ⟨rfl, rfl, rfl⟩

theorem exists_of_mem_diagnosticsFrom (h : δ ∈ diagnosticsFrom subject n ps) :
    ∃ p ∈ ps, δ.Reports p := by
  induction ps generalizing n with
  | nil => simp [diagnosticsFrom] at h
  | cons p ps ih =>
    rcases List.mem_cons.mp h with rfl | h
    · exact ⟨p, by simp, toDiagnostic_reports subject n p⟩
    · obtain ⟨q, hq, reports⟩ := ih h
      exact ⟨q, by simp [hq], reports⟩

theorem exists_mem_diagnosticsFrom (h : p ∈ ps) :
    ∃ δ ∈ diagnosticsFrom subject n ps, δ.Reports p := by
  induction ps generalizing n with
  | nil => simp at h
  | cons q ps ih =>
    rcases List.mem_cons.mp h with rfl | h
    · exact ⟨_, List.mem_cons_self, toDiagnostic_reports subject n p⟩
    · obtain ⟨δ, hδ, reports⟩ := ih (n := n + 1) h
      exact ⟨δ, List.mem_cons_of_mem _ hδ, reports⟩

theorem undeclared_message (a b : String) : (Problem.undeclared a b).message =
    "'" ++ a ++ "' references '" ++ b ++ "', which is not declared" := rfl

-- The message for an undeclared name tells the name, given where it stands.
theorem eq_undeclared_of_reports (h : δ.Reports p) (h' : δ.Reports (.undeclared a b)) :
    p = .undeclared a b := by
  obtain ⟨code, message, location⟩ := h
  obtain ⟨code', message', location'⟩ := h'
  cases p with
  | cycle r names => simp [code', Problem.code] at code
  | undeclared r n =>
    obtain rfl : a = r := by simpa [location', Problem.referrer] using location
    rw [message', undeclared_message, undeclared_message, String.append_left_inj,
      String.append_right_inj] at message
    rw [message]

theorem exists_undeclared_of_code (h : δ.Reports p) (code : δ.code = .unresolvedReference) :
    ∃ a b, p = .undeclared a b := by
  cases p with
  | undeclared a b => exact ⟨a, b, rfl⟩
  | cycle a names => simp [h.1, Problem.code] at code

theorem exists_cycle_of_code (h : δ.Reports p) (code : δ.code = .inheritanceCycle) :
    ∃ a names, p = .cycle a names := by
  cases p with
  | undeclared a b => simp [h.1, Problem.code] at code
  | cycle a names => exact ⟨a, names, rfl⟩

theorem resolveClient_eq_ok_iff :
    d.resolveClient decl marker = .ok k ↔ d.resolveContract decl marker = .ok k := by
  unfold resolveClient
  cases d.resolveContract decl marker with
  | error ps => exact ⟨nofun, nofun⟩
  | ok k' => exact ⟨fun h => congrArg _ (Except.ok.inj h), fun h => congrArg _ (Except.ok.inj h)⟩

theorem resolveClient_eq_error_iff :
    d.resolveClient decl marker = .error ds ↔
      ∃ ps, d.resolveContract decl marker = .error ps ∧ diagnosticsFrom decl.name 1 ps = ds := by
  unfold resolveClient
  cases d.resolveContract decl marker with
  | error ps =>
    constructor
    · intro h
      exact ⟨ps, rfl, Except.error.inj h⟩
    · rintro ⟨ps', h, rfl⟩
      rw [Except.error.inj h]
      rfl
  | ok k => exact ⟨nofun, nofun⟩

-- A hub client has a contract if every name that it leads to is declared and no cycle is reached, and
-- the contract is the unfolding of the document. Else the diagnostics for undeclared names are those
-- of the reachable uses of undeclared names, one for a cycle occurs if a cycle is reached, and each of
-- these writes down a cycle.
theorem resolveClient_by_graph (d : Document) (decl : Declaration) (marker : HubMarker)
    (found : d.get? decl.name = some decl) :
    ((∃ k, d.resolveClient decl marker = .ok k) ↔
      (∀ referrer name, d.Refers decl marker referrer name → d.get? name ≠ none) ∧
        ∀ name, d.ClientReaches decl marker name → ¬d.OnCycle name) ∧
    (∀ k, d.resolveClient decl marker = .ok k ↔ d.IsContract decl marker k) ∧
    ∀ ds, d.resolveClient decl marker = .error ds →
      (∀ referrer name, (∃ δ ∈ ds, δ.Reports (.undeclared referrer name)) ↔
        d.Refers decl marker referrer name ∧ d.get? name = none) ∧
      (∀ δ ∈ ds, δ.code = .unresolvedReference →
        ∃ referrer name, δ.Reports (.undeclared referrer name)) ∧
      ((∃ δ ∈ ds, δ.code = .inheritanceCycle) ↔
        ∃ name, d.ClientReaches decl marker name ∧ d.OnCycle name) ∧
      (∀ δ ∈ ds, δ.code = .inheritanceCycle →
        ∃ referrer first names, δ.Reports (.cycle referrer names) ∧
          d.ClientReaches decl marker first ∧ d.IsCycle first names) := by
  refine ⟨?_, fun k => resolveClient_eq_ok_iff.trans (resolveContract_eq_ok_iff found), ?_⟩
  · simp only [resolveClient_eq_ok_iff]
    rw [exists_contract_iff found, clientProblems_eq_nil_iff found]
  intro ds h
  obtain ⟨ps, hps, rfl⟩ := resolveClient_eq_error_iff.mp h
  obtain ⟨rfl, -⟩ := (resolveContract_eq_error_iff found).mp hps
  refine ⟨fun referrer name => ?_, fun δ hδ code => ?_, ?_, fun δ hδ code => ?_⟩
  · rw [← undeclared_mem_clientProblems found]
    constructor
    · rintro ⟨δ, hδ, reports⟩
      obtain ⟨p, hp, reports'⟩ := exists_of_mem_diagnosticsFrom hδ
      exact eq_undeclared_of_reports reports' reports ▸ hp
    · exact exists_mem_diagnosticsFrom
  · obtain ⟨p, -, reports⟩ := exists_of_mem_diagnosticsFrom hδ
    obtain ⟨referrer, name, rfl⟩ := exists_undeclared_of_code reports code
    exact ⟨referrer, name, reports⟩
  · rw [← exists_cycle_mem_clientProblems]
    constructor
    · rintro ⟨δ, hδ, code⟩
      obtain ⟨p, hp, reports⟩ := exists_of_mem_diagnosticsFrom hδ
      obtain ⟨referrer, names, rfl⟩ := exists_cycle_of_code reports code
      exact ⟨referrer, names, hp⟩
    · rintro ⟨referrer, names, hp⟩
      obtain ⟨δ, hδ, reports⟩ := exists_mem_diagnosticsFrom hp
      exact ⟨δ, hδ, reports.1⟩
  · obtain ⟨p, hp, reports⟩ := exists_of_mem_diagnosticsFrom hδ
    obtain ⟨referrer, names, rfl⟩ := exists_cycle_of_code reports code
    obtain ⟨first, reached, cycle⟩ := cycle_of_mem_clientProblems hp
    exact ⟨referrer, first, names, reports, reached, cycle⟩

-- A bridge with one side, which extends a cycle and a name that is not declared.
def tangledBridge : Declaration := { name := "IHub", hubClient := some { push := some "IEvents" } }

def tangled : Document := ⟨[tangledBridge, { name := "IEvents", parents := ["IBase", "IGone"] },
  { name := "IBase", parents := ["IEvents"] }], []⟩

theorem resolveClient_tangled :
    tangled.get? tangledBridge.name = some tangledBridge ∧
    ∃ ds, tangled.resolveClient tangledBridge { push := some "IEvents" } = .error ds ∧
      (∃ δ ∈ ds, δ.Reports (.undeclared "IEvents" "IGone")) ∧
      ∃ δ ∈ ds, δ.code = .inheritanceCycle := by
  have found : tangled.get? tangledBridge.name = some tangledBridge := by decide
  have down : tangled.Extends "IEvents" "IBase" := ⟨_, rfl, by decide⟩
  have up : tangled.Extends "IBase" "IEvents" := ⟨_, rfl, by decide⟩
  have reached : tangled.ClientReaches tangledBridge { push := some "IEvents" } "IEvents" :=
    ⟨"IEvents", by decide, .refl⟩
  have cycle : tangled.OnCycle "IEvents" := .tail (.single down) up
  obtain ⟨success, -, failure⟩ :=
    resolveClient_by_graph tangled tangledBridge { push := some "IEvents" } found
  refine ⟨found, ?_⟩
  cases h : tangled.resolveClient tangledBridge { push := some "IEvents" } with
  | ok k => exact absurd cycle ((success.mp ⟨k, h⟩).2 _ reached)
  | error ds =>
    obtain ⟨undeclared, -, cyclic, -⟩ := failure ds h
    exact ⟨ds, rfl, (undeclared _ _).mpr ⟨.inr ⟨reached, ⟨_, rfl, by decide⟩⟩, by decide⟩,
      cyclic.mpr ⟨_, reached, cycle⟩⟩

end Document

end HubContract
