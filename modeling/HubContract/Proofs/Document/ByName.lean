import HubContract.Proofs.Document.Heading
import HubContract.Proofs.Document.Refusal

namespace HubContract

namespace Findings

variable {f : Findings} {name : String}

@[simp] theorem keep_order (f : Findings) (name : String) (outcome : Except (List Diagnostic) Contract) :
    (f.keep name outcome).order = f.order ++ [name] := by
  cases outcome <;> rfl

@[simp] theorem keep_claims (f : Findings) (name : String) (outcome : Except (List Diagnostic) Contract) :
    (f.keep name outcome).claims = f.claims := by
  cases outcome <;> rfl

-- A name that is kept for the first time stands for what is kept, and the others for what they stood for.
-- Of a name that is kept twice, a contract would not replace a failure.
theorem outcome?_keep (fresh : f.outcome? name = none) (outcome : Except (List Diagnostic) Contract)
    (asked : String) :
    (f.keep name outcome).outcome? asked = if name = asked then some outcome else f.outcome? asked := by
  have unfailed : f.failures.get? name = none := by
    unfold outcome? at fresh
    split at fresh
    case h_1 => cases fresh
    case h_2 none => exact none
  cases outcome with
  | error ds =>
    simp only [outcome?, keep, Table.get?_set]
    by_cases same : name = asked <;> simp [same]
  | ok k =>
    simp only [outcome?, keep, Table.get?_set]
    by_cases same : name = asked
    · simp [← same, unfailed]
    · simp [same]

end Findings

namespace Document

variable {d : Document} {f f' : Findings} {e : Declaration} {es : List Declaration} {marker : HubMarker}

-- What the loop over the names of some declarations keeps: each under its name what is found where it stands.
structure Keeps (d : Document) (f : Findings) (es : List Declaration) (f' : Findings) : Prop where
  run : ((es.filter (·.hubClient.isSome)).map (·.name)).foldlM d.register f = .ok f'
  order : f'.order = f.order ++ (d.outcomes f.claims es).map (·.1)
  outcome (name : String) : f'.outcome? name = (f.outcome? name).or ((d.outcomes f.claims es).lookup name)

-- One more name in front of the others.
theorem Keeps.cons {claims : Claims} {outcome : Except (List Diagnostic) Contract}
    (client : e.hubClient = some marker) (fresh : f.outcome? e.name = none)
    (step : d.register f e.name = .ok ({ f with claims }.keep e.name outcome))
    (comes : d.outcomes f.claims (e :: es) = (e.name, outcome) :: d.outcomes claims es)
    (rest : d.Keeps ({ f with claims }.keep e.name outcome) es f') : d.Keeps f (e :: es) f' where
  run := by
    rw [List.filter_cons_of_pos (by simp [client]), List.map_cons, List.foldlM_cons, step]
    exact rest.run
  order := by
    rw [rest.order, comes]
    simp
  outcome name := by
    have kept := Findings.outcome?_keep (f := { f with claims }) fresh outcome name
    rw [rest.outcome, comes, kept, Findings.keep_claims, List.lookup_cons]
    by_cases same : e.name = name
    · simp [← same, fresh]
    · have other : (name == e.name) = false := beq_false_of_ne (Ne.symm same)
      rw [if_neg same, other]
      rfl

theorem exists_keeps (found : ∀ e ∈ es, d.get? e.name = some e) (distinct : (es.map (·.name)).Nodup)
    (fresh : ∀ e ∈ es, f.outcome? e.name = none) : ∃ f', d.Keeps f es f' := by
  induction es generalizing f with
  | nil => exact ⟨f, rfl, by simp [outcomes], by simp [outcomes]⟩
  | cons e es ih =>
    obtain ⟨here, later⟩ := List.forall_mem_cons.mp found
    obtain ⟨unmet, distinct⟩ := List.nodup_cons.mp distinct
    obtain ⟨new, fresh⟩ := List.forall_mem_cons.mp fresh
    -- the names behind are still new once this one is kept
    have fresh' (claims : Claims) (outcome : Except (List Diagnostic) Contract) (e' : Declaration)
        (inside : e' ∈ es) : ({ f with claims }.keep e.name outcome).outcome? e'.name = none := by
      have other : e.name ≠ e'.name := fun same => unmet (List.mem_map.mpr ⟨e', inside, same.symm⟩)
      have kept := Findings.outcome?_keep (f := { f with claims }) new outcome e'.name
      rw [kept, if_neg other]
      exact fresh e' inside
    cases client : e.hubClient with
    | none =>
      obtain ⟨f', rest⟩ := ih later distinct fresh
      exact ⟨f', by simpa [client] using rest.run, by simpa [outcomes, client] using rest.order,
        by simpa [outcomes, client] using rest.outcome⟩
    | some marker =>
      cases claimed : claimModule f.claims e.name marker.name with
      | error δ =>
        obtain ⟨f', rest⟩ := ih later distinct (fresh' f.claims (.error [δ]))
        exact ⟨f', rest.cons client new (by simp [register, here, client, claimed])
          (by simp [outcomes, client, claimed])⟩
      | ok claims =>
        obtain ⟨f', rest⟩ := ih later distinct (fresh' claims (d.resolveClient e marker))
        exact ⟨f', rest.cons client new (by simp [register, here, client, claimed])
          (by simp [outcomes, client, claimed])⟩

-- Where no name is declared twice, the look-ups by name find what is found declaration by declaration.
theorem Distinct.discoverByName_eq (distinct : d.Distinct) :
    ∃ f, d.discoverByName = .ok f ∧ f.order = d.discover.order ∧
      ∀ name, f.outcome? name = d.discover.clients.lookup name := by
  obtain ⟨f, keeps⟩ := exists_keeps (f := {}) (fun e inside => distinct.get?_of_mem inside) distinct
    fun _ _ => rfl
  refine ⟨f, keeps.run, keeps.order.trans (List.nil_append _), fun name => ?_⟩
  rw [keeps.outcome]
  rfl

end Document

end HubContract
