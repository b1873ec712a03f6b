import HubContract.Proofs.Document.Client
import HubContract.Proofs.Document.Discovery
import Mathlib.Data.List.Nodup

namespace HubContract

-- A declaration without its methods.
def Declaration.heading (e : Declaration) : Declaration := { e with methods := [] }

namespace Document

open Relation

-- The same declarations in the same order, but for their methods.
def Alike (d d' : Document) : Prop :=
  d'.declarations.map Declaration.heading = d.declarations.map Declaration.heading

variable {d d' : Document} {e decl decl' : Declaration} {marker : HubMarker}

theorem Distinct.get?_of_mem (distinct : d.Distinct) (mem : e ∈ d.declarations) :
    d.get? e.name = some e := by
  have declared : (d.get? e.name).isSome := List.find?_isSome.mpr ⟨e, mem, decide_eq_true rfl⟩
  obtain ⟨f, found⟩ := Option.isSome_iff_exists.mp declared
  have same : f = e := List.inj_on_of_nodup_map distinct (List.mem_of_find?_eq_some found) mem
    (get?_name found)
  rw [found, same]

theorem map_heading_get? (d : Document) (n : String) :
    (d.get? n).map Declaration.heading = (d.declarations.map Declaration.heading).find? (·.name = n) := by
  rw [List.find?_map]
  rfl

theorem Alike.get? (alike : d.Alike d') (n : String) :
    (d'.get? n).map Declaration.heading = (d.get? n).map Declaration.heading := by
  rw [map_heading_get?, map_heading_get?, alike]

theorem Alike.refl (d : Document) : d.Alike d := rfl

theorem Alike.symm (alike : d.Alike d') : d'.Alike d := Eq.symm alike

theorem Alike.trans {d'' : Document} (alike : d.Alike d') (alike' : d'.Alike d'') : d.Alike d'' :=
  Eq.trans alike' alike

theorem Alike.distinct (alike : d.Alike d') (distinct : d.Distinct) : d'.Distinct := by
  have names (d : Document) :
      d.declarations.map (·.name) = (d.declarations.map Declaration.heading).map (·.name) := by
    rw [List.map_map]
    rfl
  rw [Distinct, names, alike, ← names]
  exact distinct

theorem extends_iff_heading {child parent : String} : d.Extends child parent ↔
    ∃ e, (d.get? child).map Declaration.heading = some e ∧ parent ∈ e.parents := by
  constructor
  · rintro ⟨e, found, mem⟩
    exact ⟨e.heading, by rw [found]; rfl, mem⟩
  · rintro ⟨h, found, mem⟩
    obtain ⟨e, declared, rfl⟩ := Option.map_eq_some_iff.mp found
    exact ⟨e, declared, mem⟩

theorem Alike.extends (alike : d.Alike d') : d'.Extends = d.Extends := by
  funext child parent
  rw [eq_iff_iff, extends_iff_heading, extends_iff_heading, alike.get?]

theorem Alike.get?_eq_none (alike : d.Alike d') {n : String} : d'.get? n = none ↔ d.get? n = none := by
  rw [← Option.map_eq_none_iff (f := Declaration.heading), alike.get?, Option.map_eq_none_iff]

section

variable {n : String}

theorem get?_replace (found : d.get? e.name = some decl) : (d.replace e).get? e.name = some e := by
  have names : (fun x : Declaration => decide (x.name = e.name)) ∘
      (fun x => if x.name = e.name then e else x) = fun x => decide (x.name = e.name) := by
    funext x
    by_cases same : x.name = e.name <;> simp [same]
  rw [get?, replace, List.find?_map, names]
  have here : d.declarations.find? (fun x => decide (x.name = e.name)) = some decl := found
  rw [here, Option.map_some, if_pos (get?_name found)]

-- Other names are declared as before.
theorem get?_replace_of_ne (other : n ≠ e.name) : (d.replace e).get? n = d.get? n := by
  have names : (fun x : Declaration => decide (x.name = n)) ∘
      (fun x => if x.name = e.name then e else x) = fun x => decide (x.name = n) := by
    funext x
    by_cases same : x.name = e.name <;> simp [same]
  rw [get?, replace, List.find?_map, names]
  cases found : d.declarations.find? (fun x => decide (x.name = n)) with
  | none => exact found.symm
  | some x =>
    have kept : ¬ x.name = e.name := (get?_name found).trans_ne other
    rw [Option.map_some, if_neg kept]
    exact found.symm

-- A replacement changes one place of the document.
theorem exists_declarations_replace (distinct : d.Distinct) (found : d.get? e.name = some decl) :
    ∃ front back, d.declarations = front ++ decl :: back ∧
      (d.replace e).declarations = front ++ e :: back := by
  obtain ⟨front, back, split, before, behind⟩ := distinct.exists_place found
  have kept {es : List Declaration} (others : ∀ x ∈ es, x.name ≠ e.name) :
      es.map (fun x => if x.name = e.name then e else x) = es :=
    (List.map_congr_left fun x inside => if_neg (others x inside)).trans (List.map_id' es)
  refine ⟨front, back, split, ?_⟩
  rw [replace, split, List.map_append, List.map_cons, kept before, kept behind,
    if_pos (get?_name found)]

theorem alike_replace (distinct : d.Distinct) (found : d.get? e.name = some decl)
    (same : e.heading = decl.heading) : d.Alike (d.replace e) := by
  obtain ⟨front, back, before, after⟩ := exists_declarations_replace distinct found
  rw [Alike, before, after]
  simp only [List.map_append, List.map_cons, same]

end

-- A name that has a contract in one of the documents has one in the other.
theorem Alike.clientProblems (alike : d.Alike d') (named : decl'.name = decl.name)
    (found : d.get? decl.name = some decl) (found' : d'.get? decl'.name = some decl') :
    d'.clientProblems decl' marker = [] ↔ d.clientProblems decl marker = [] := by
  have reaches : d'.ClientReaches decl' marker = d.ClientReaches decl marker := by
    unfold ClientReaches
    rw [alike.extends, named]
  have refers : d'.Refers decl' marker = d.Refers decl marker := by
    unfold Refers
    rw [reaches, alike.extends, named]
  have cycles : d'.OnCycle = d.OnCycle := by
    unfold OnCycle
    rw [alike.extends]
  rw [clientProblems_eq_nil_iff found, clientProblems_eq_nil_iff found', reaches, refers, cycles]
  simp only [ne_eq, alike.get?_eq_none]

theorem isOk_resolveClient (found : d.get? decl.name = some decl) :
    (d.resolveClient decl marker).isOk ↔ d.clientProblems decl marker = [] := by
  rw [← exists_contract_iff found, resolveClient]
  cases d.resolveContract decl marker <;> simp [Except.mapError, Except.isOk, Except.toBool]

-- Hub clients as they are found, each with whether it has a contract.
theorem Alike.outcomes (alike : d.Alike d') {es es' : List Declaration}
    (same : es'.map Declaration.heading = es.map Declaration.heading)
    (found : ∀ e ∈ es, d.get? e.name = some e) (found' : ∀ e ∈ es', d'.get? e.name = some e)
    (claims : Claims) :
    (d'.outcomes claims es').map (fun c => (c.1, c.2.isOk)) =
      (d.outcomes claims es).map (fun c => (c.1, c.2.isOk)) := by
  induction es generalizing es' claims with
  | nil =>
    obtain rfl := List.map_eq_nil_iff.mp same
    rfl
  | cons e es ih =>
    obtain ⟨e', es', rfl, heading, rest⟩ := List.map_eq_cons_iff.mp same
    have name : e'.name = e.name := (congrArg Declaration.name heading :)
    have client : e'.hubClient = e.hubClient := (congrArg Declaration.hubClient heading :)
    obtain ⟨here, others⟩ := List.forall_mem_cons.mp found
    obtain ⟨here', others'⟩ := List.forall_mem_cons.mp found'
    have later (claims : Claims) := ih rest others others' claims
    cases marked : e.hubClient with
    | none => simpa [Document.outcomes, client, marked] using later claims
    | some marker =>
      have resolved : (d'.resolveClient e' marker).isOk = (d.resolveClient e marker).isOk := by
        rw [Bool.eq_iff_iff, isOk_resolveClient here', isOk_resolveClient here]
        exact alike.clientProblems name here here'
      cases claimed : claimModule claims e.name marker.name with
      | error δ => simpa [Document.outcomes, client, marked, name, claimed] using later claims
      | ok claims => simpa [Document.outcomes, client, marked, name, claimed, resolved] using later claims

end Document

end HubContract
