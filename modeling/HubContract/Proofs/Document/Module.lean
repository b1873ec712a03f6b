import HubContract.Document.Interchange
import HubContract.Proofs.Document.Discovery
import Mathlib.Data.List.Basic

namespace HubContract

theorem Discovery.map_contracts (d : Discovery) :
    d.contracts.map (·.2) = d.clients.filterMap fun client => client.2.toOption := by
  rw [contracts, List.map_filterMap]
  refine List.filterMap_congr fun ⟨name, outcome⟩ _ => ?_
  cases outcome <;> rfl

-- The module of the binding of a contract.
def Contract.moduleName (k : Contract) : String := Naming.moduleName k.bindingName

namespace Document

open HubContract.Text

variable {d : Document} {decl : Declaration} {marker : HubMarker} {claims claims' : Claims}
  {k : Contract}

-- A module is claimed for a binding that can be used, and only once.
theorem of_claimModule {name : String} {friendly : Option String}
    (claimed : claimModule claims name friendly = .ok claims') :
    let binding := Contract.bindingNameOf name friendly
    isUsableBinding binding ∧ claims.lookup (Naming.moduleName binding) = none ∧
      claims' = (Naming.moduleName binding, name) :: claims := by
  unfold claimModule at claimed
  dsimp only at claimed
  split at claimed
  · rename_i usable
    split at claimed
    · rename_i free
      exact ⟨usable, free, (Except.ok.inj claimed).symm⟩
    · cases claimed
  · cases claimed

theorem resolveClient_bindingName (h : d.resolveClient decl marker = .ok k) :
    k.bindingName = Contract.bindingNameOf decl.name marker.name := by
  simp only [resolveClient, resolveContract] at h
  split at h
  · obtain rfl := Except.ok.inj h
    rfl
  · cases h

-- Contracts whose bindings can be used, with modules of their own that nothing has claimed before.
structure Contract.Apart (claims : Claims) (ks : List Contract) : Prop where
  usable : ∀ k ∈ ks, isUsableBinding k.bindingName
  free : ∀ k ∈ ks, claims.lookup k.moduleName = none
  distinct : (ks.map (·.moduleName)).Nodup

theorem lookup_cons_eq_none {m m' name : String} (free : List.lookup m ((m', name) :: claims) = none) :
    m ≠ m' ∧ claims.lookup m = none := by
  rw [List.lookup_cons] at free
  split at free
  · cases free
  · rename_i other
    exact ⟨ne_of_beq_false other, free⟩

-- What is claimed stays claimed.
theorem Contract.Apart.of_cons {claim : String × String} (apart : Apart (claim :: claims) ks) :
    Apart claims ks :=
  ⟨apart.usable, fun k inside => (lookup_cons_eq_none (apart.free k inside)).2, apart.distinct⟩

theorem Contract.Apart.cons (usable : isUsableBinding k.bindingName)
    (free : claims.lookup k.moduleName = none) (apart : Apart ((k.moduleName, name) :: claims) ks) :
    Apart claims (k :: ks) := by
  refine ⟨List.forall_mem_cons.mpr ⟨usable, apart.usable⟩,
    List.forall_mem_cons.mpr ⟨free, apart.of_cons.free⟩,
    List.nodup_cons.mpr ⟨fun again => ?_, apart.distinct⟩⟩
  obtain ⟨k', inside, shared⟩ := List.mem_map.mp again
  exact (lookup_cons_eq_none (apart.free k' inside)).1 shared

theorem apart_outcomes (d : Document) (claims : Claims) (es : List Declaration) :
    Contract.Apart claims ((d.outcomes claims es).filterMap fun c => c.2.toOption) := by
  induction es generalizing claims with
  | nil => exact ⟨List.forall_mem_nil _, List.forall_mem_nil _, .nil⟩
  | cons e es ih =>
    cases client : e.hubClient with
    | none =>
      simp only [outcomes, client]
      exact ih claims
    | some marker =>
      cases claimed : claimModule claims e.name marker.name with
      | error δ =>
        simp only [outcomes, client, claimed]
        exact ih claims
      | ok claims' =>
        obtain ⟨usable, free, rfl⟩ := of_claimModule claimed
        simp only [outcomes, client, claimed]
        cases resolved : d.resolveClient e marker with
        | error ds => exact (ih _).of_cons
        | ok k =>
          have name := resolveClient_bindingName resolved
          rw [← name] at usable free ⊢
          exact .cons usable free (ih _)

theorem apart_contracts (d : Document) : Contract.Apart [] (d.discover.contracts.map (·.2)) := by
  rw [Discovery.map_contracts]
  exact apart_outcomes d [] d.declarations

-- Every binding that is accepted can be used, and they all have modules of their own.
theorem isUsableBinding_of_mem_contracts {name : String} (found : (name, k) ∈ d.discover.contracts) :
    isUsableBinding k.bindingName := (apart_contracts d).usable k (List.mem_map_of_mem found)

theorem nodup_moduleName_contracts (d : Document) : (d.discover.contracts.map (·.2.moduleName)).Nodup := by
  have distinct := (apart_contracts d).distinct
  rw [List.map_map] at distinct
  exact distinct

end Document

end HubContract
