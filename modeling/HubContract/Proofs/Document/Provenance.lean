import HubContract.Proofs.Contract.Sides
import HubContract.Proofs.Document.Canonical
import HubContract.Proofs.Document.Diagnosis
import HubContract.Proofs.Document.Heading

namespace HubContract

open Relation

namespace MethodSet

-- A walked method belongs to one of the sets that are visited.
theorem exists_of_mem_walk {role : Option Role} {root : MethodSet} {w : WalkedMethod}
    (mem : w ∈ root.walk role) : ∃ s ∈ root.preorder, w.provenance = s.name ∧ w.method ∈ s.methods := by
  obtain ⟨s, visited, inside⟩ := List.mem_flatMap.mp mem
  obtain ⟨m, declared, rfl⟩ := List.mem_map.mp inside
  exact ⟨s, visited, rfl, declared⟩

end MethodSet

namespace Document

variable {d : Document} {decl : Declaration} {marker : HubMarker} {k : Contract} {role : Role}
  {w : WalkedMethod} {m : Method} {n : String} {root : MethodSet}

-- Whose contract it is.
theorem exists_client (distinct : d.Distinct) {name : String} (found : (name, .ok k) ∈ d.discover.clients) :
    ∃ e marker, d.get? name = some e ∧ e.name = name ∧ e.hubClient = some marker ∧
      d.IsContract e marker k := by
  obtain ⟨e, inside, marker, client, rfl, resolved⟩ := resolved_of_mem_outcomes found
  have declared := distinct.get?_of_mem inside
  exact ⟨e, marker, declared, rfl, client,
    (resolveContract_eq_ok_iff declared).mp (resolveClient_eq_ok_iff.mp resolved)⟩

theorem mem_clients_of_isContract (distinct : d.Distinct) (found : d.get? decl.name = some decl)
    (client : decl.hubClient = some marker) (accepted : d.AcceptsBinding decl marker)
    (contract : d.IsContract decl marker k) : (decl.name, .ok k) ∈ d.discover.clients := by
  have only := clients_filter distinct found client accepted
  rw [resolveClient_eq_ok_iff.mpr ((resolveContract_eq_ok_iff found).mpr contract)] at only
  exact (List.mem_filter.mp (only ▸ List.mem_cons_self)).1

theorem isSeparated_of_isContract (contract : d.IsContract decl marker k) :
    k.isSeparated = !marker.sides.isEmpty := by
  have side {x : Option String} {y : Option MethodSet} (rel : Option.Rel d.Unfolds x y) :
      y.isSome = !x.toList.isEmpty := by
    cases rel <;> rfl
  rw [Contract.isSeparated, side contract.push, side contract.invoke, HubMarker.sides]
  cases HubMarker.named marker.push <;> rfl

-- A side of a contract is what the name of that side unfolds to.
theorem exists_unfolds_of_rel {x : Option String} {y : Option MethodSet} (rel : Option.Rel d.Unfolds x y)
    (there : root ∈ y) : ∃ n ∈ x, d.Unfolds n root := by
  cases rel with
  | none => cases there
  | some unfolds =>
    obtain rfl := Option.some.inj there
    exact ⟨_, rfl, unfolds⟩

-- A method that belongs to its declaration is not given to anyone.
theorem claimedBy_eq_self {owner : String} (owned : m.owner = owner) : m.claimedBy owner = m := by
  subst owned
  unfold Method.claimedBy
  split <;> rfl

theorem unfolds_ownSet (contract : d.IsContract decl marker k) (found : d.get? decl.name = some decl)
    (canonical : decl.IsCanonical) : d.Unfolds decl.name k.ownSet := by
  have claimed : decl.methods.map (Method.claimedBy decl.name) = decl.methods :=
    (List.map_congr_left fun m inside => claimedBy_eq_self (canonical.owned m inside)).trans
      (List.map_id _)
  rw [Contract.ownSet, contract.name, contract.methods, claimed]
  exact .of_forall₂ found contract.ancestors

theorem exists_unfolds_root (contract : d.IsContract decl marker k)
    (found : d.get? decl.name = some decl) (canonical : decl.IsCanonical) (begins : root ∈ k.root? role) :
    ∃ n, d.Unfolds n root := by
  unfold Contract.root? at begins
  split at begins
  · cases role with
    | push =>
      obtain ⟨n, -, unfolds⟩ := exists_unfolds_of_rel contract.push begins
      exact ⟨n, unfolds⟩
    | invoke =>
      obtain ⟨n, -, unfolds⟩ := exists_unfolds_of_rel contract.invoke begins
      exact ⟨n, unfolds⟩
  · obtain rfl := Option.some.inj begins
    exact ⟨_, unfolds_ownSet contract found canonical⟩

-- The root leads to every set that is visited, by what the sets extend.
theorem unfolds_of_mem_preorder (unfolds : d.Unfolds n root) :
    ∀ s ∈ root.preorder, d.Unfolds s.name s ∧ ReflTransGen d.Extends n s.name := by
  refine MethodSet.forall_mem_preorder ?closed ?root
  case closed =>
    rintro s ⟨unfolds, path⟩ a inside
    obtain ⟨e, found, -, -, each⟩ := unfolds.found
    obtain ⟨parent, extended, unfolds⟩ := exists_of_forall₂_left each.flip inside
    rw [unfolds.name_eq]
    exact ⟨unfolds, path.tail ⟨e, found, extended⟩⟩
  case root =>
    rw [unfolds.name_eq]
    exact ⟨unfolds, .refl⟩

-- A walked method stands in a declaration that the root leads to.
theorem exists_declaration_of_mem_walk (unfolds : d.Unfolds n root) {role : Option Role}
    (mem : w ∈ root.walk role) :
    ∃ e, d.get? w.provenance = some e ∧ w.method ∈ e.methods ∧ ReflTransGen d.Extends n w.provenance := by
  obtain ⟨s, visited, named, inside⟩ := MethodSet.exists_of_mem_walk mem
  obtain ⟨unfolds, path⟩ := unfolds_of_mem_preorder unfolds s visited
  obtain ⟨e, found, -, methods, -⟩ := unfolds.found
  rw [named]
  exact ⟨e, found, methods ▸ inside, path⟩

-- A method of a side is the first one of its role with its signature in its declaration.
theorem exists_declaration_of_mem_methodsOf (contract : d.IsContract decl marker k)
    (found : d.get? decl.name = some decl) (canonical : decl.IsCanonical) (mem : w ∈ k.methodsOf role) :
    ∃ e, d.get? w.provenance = some e ∧ e.name = w.provenance ∧
      e.methods.find? (fun m => k.plays role m && m.signatureKey = w.signatureKey) = some w.method := by
  obtain ⟨-, root, begins, s, visited, named, first⟩ := Contract.exists_of_mem_methodsOf mem
  obtain ⟨n, unfolds⟩ := exists_unfolds_root contract found canonical begins
  obtain ⟨e, declared, name, methods, -⟩ := (unfolds_of_mem_preorder unfolds s visited).1.found
  rw [named]
  exact ⟨e, declared, name.symm, methods ▸ first⟩

end Document

end HubContract
