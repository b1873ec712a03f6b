import HubContract.Proofs.Document.Diagnosis
import HubContract.Proofs.Document.Discovery

namespace HubContract

-- An error under one of the codes that nobody can fix.
structure Diagnostic.IsRefusal (codes : List Code) (δ : Diagnostic) : Prop where
  error : δ.isError
  fixes : δ.fixes = []
  code : δ.code ∈ codes

-- The codes under which discovery refuses hub clients.
def Discovery.refusals : List Code :=
  [.unresolvedReference, .inheritanceCycle, .duplicateBindingName, .invalidBindingName]

namespace Document

variable {d : Document} {decl e : Declaration} {es : List Declaration} {marker : HubMarker} {name : String}
  {claims : Claims} {δ : Diagnostic} {ds : List Diagnostic}

-- The hub clients in document order, whatever becomes of them.
theorem map_fst_outcomes (d : Document) (claims : Claims) (es : List Declaration) :
    (d.outcomes claims es).map (·.1) = (es.filter (·.hubClient.isSome)).map (·.name) := by
  induction es generalizing claims with
  | nil => rfl
  | cons e es ih =>
    cases client : e.hubClient with
    | none => simpa [outcomes, client] using ih claims
    | some marker =>
      cases claimed : claimModule claims e.name marker.name with
      | error δ => simpa [outcomes, client, claimed] using ih claims
      | ok claims => simpa [outcomes, client, claimed] using ih claims

theorem isRefusal_of_mem_diagnosticsFrom (mem : δ ∈ diagnosticsFrom subject n ps) :
    δ.IsRefusal Discovery.refusals := by
  induction ps generalizing n with
  | nil => cases mem
  | cons p ps ih =>
    obtain rfl | later := List.mem_cons.mp mem
    · refine ⟨rfl, rfl, ?_⟩
      cases p <;> simp [Problem.toDiagnostic, Problem.code, Discovery.refusals]
    · exact ih later

theorem isRefusal_of_claimModule (refused : claimModule claims name friendly = .error δ) :
    δ.IsRefusal Discovery.refusals := by
  unfold claimModule at refused
  dsimp only at refused
  split at refused
  · split at refused
    · cases refused
    · obtain rfl := Except.error.inj refused
      exact ⟨rfl, rfl, by simp [nameProblem, Discovery.refusals]⟩
  · obtain rfl := Except.error.inj refused
    exact ⟨rfl, rfl, by simp [nameProblem, Discovery.refusals]⟩

theorem isRefusal_of_mem_outcomes (mem : (name, .error ds) ∈ d.outcomes claims es) :
    ∀ δ ∈ ds, δ.IsRefusal Discovery.refusals := by
  obtain ⟨e, -, marker, -, -, ⟨claims, δ, refused, same⟩ | unresolved⟩ := of_mem_outcomes mem
  · obtain rfl := Except.error.inj same
    exact List.forall_mem_singleton.mpr (isRefusal_of_claimModule refused)
  · obtain ⟨ps, -, rfl⟩ := resolveClient_eq_error_iff.mp unresolved.symm
    exact fun δ => isRefusal_of_mem_diagnosticsFrom

-- Nothing is refused without a reason.
theorem ne_nil_of_mem_outcomes (found : ∀ e ∈ es, d.get? e.name = some e)
    (mem : (name, .error ds) ∈ d.outcomes claims es) : ds ≠ [] := by
  obtain ⟨e, inside, marker, -, -, ⟨claims, δ, -, same⟩ | unresolved⟩ := of_mem_outcomes mem
  · obtain rfl := Except.error.inj same
    exact List.cons_ne_nil _ _
  · obtain ⟨ps, problems, rfl⟩ := resolveClient_eq_error_iff.mp unresolved.symm
    obtain ⟨-, some⟩ := (resolveContract_eq_error_iff (found e inside)).mp problems
    cases ps with
    | nil => exact absurd rfl some
    | cons p ps => exact List.cons_ne_nil _ _

end Document

end HubContract
