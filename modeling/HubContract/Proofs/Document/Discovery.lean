import HubContract.Document.Discovery
import HubContract.Document.Reader

namespace HubContract.Document

theorem bind_eq_ok_iff {ε : Type} {x : Except ε α} {f : α → Except ε β} :
    (x >>= f) = .ok b ↔ ∃ a, x = .ok a ∧ f a = .ok b := by
  cases x <;> simp [bind, Except.bind]

-- No two declarations have one name.
def Distinct (d : Document) : Prop := (d.declarations.map (·.name)).Nodup

theorem declarationsOf_distinct (h : declarationsOf seen ds = .ok decls) :
    (decls.map (·.name)).Nodup ∧ ∀ e ∈ decls, e.name ∉ seen := by
  induction ds generalizing seen decls with
  | nil =>
    obtain rfl := Except.ok.inj h
    simp
  | cons d ds ih =>
    rw [declarationsOf] at h
    obtain ⟨e, -, h⟩ := bind_eq_ok_iff.mp h
    split at h
    · simp [refuse] at h
    · rename_i fresh
      obtain ⟨es, rest, h⟩ := bind_eq_ok_iff.mp h
      obtain rfl := Except.ok.inj h
      obtain ⟨nodup, unseen⟩ := ih rest
      have others : ∀ f ∈ es, f.name ≠ e.name ∧ f.name ∉ seen := by
        simpa [not_or] using unseen
      refine ⟨?_, List.forall_mem_cons.mpr ⟨by simpa using fresh, fun f hf => (others f hf).2⟩⟩
      refine List.nodup_cons.mpr ⟨fun mem => ?_, nodup⟩
      obtain ⟨f, hf, named⟩ := List.mem_map.mp mem
      exact (others f hf).1 named

theorem distinct_of_ofData (h : ofData x = .ok d) : d.Distinct := by
  unfold ofData at h
  split at h
  · obtain rfl := Except.ok.inj h
    exact .nil
  · dsimp only at h
    split at h
    · obtain ⟨_, -, h⟩ := bind_eq_ok_iff.mp h
      simp [refuse] at h
    · obtain ⟨_, -, h⟩ := bind_eq_ok_iff.mp h
      obtain ⟨decls, read, h⟩ := bind_eq_ok_iff.mp h
      obtain ⟨_, -, h⟩ := bind_eq_ok_iff.mp h
      obtain rfl := Except.ok.inj h
      exact (declarationsOf_distinct read).1
  · simp [refuse] at h

-- The modules that are taken once a declaration was looked at.
def claimsAfter (claims : Claims) (decl : Declaration) : Claims :=
  match decl.hubClient with
  | none => claims
  | some marker =>
    match claimModule claims decl.name marker.name with
    | .ok claims => claims
    | .error _ => claims

-- The modules that are taken by the declarations in front of a name.
def claimsBefore (d : Document) (name : String) : Claims :=
  (d.declarations.takeWhile (·.name ≠ name)).foldl claimsAfter []

-- The binding of a hub client can be used, and its module is not taken by a client in front of it.
def AcceptsBinding (d : Document) (decl : Declaration) (marker : HubMarker) : Prop :=
  ∃ claims, claimModule (d.claimsBefore decl.name) decl.name marker.name = .ok claims

variable {d : Document} {decl : Declaration} {marker : HubMarker}

theorem outcomes_cons (claims : Claims) (e : Declaration) (es : List Declaration) :
    d.outcomes claims (e :: es) = d.outcomes claims [e] ++ d.outcomes (claimsAfter claims e) es := by
  cases client : e.hubClient with
  | none => simp [outcomes, claimsAfter, client]
  | some marker =>
    cases claimed : claimModule claims e.name marker.name <;>
      simp [outcomes, claimsAfter, client, claimed]

theorem outcomes_append (claims : Claims) (front back : List Declaration) :
    d.outcomes claims (front ++ back) =
      d.outcomes claims front ++ d.outcomes (front.foldl claimsAfter claims) back := by
  induction front generalizing claims with
  | nil => rfl
  | cons e front ih =>
    rw [List.cons_append, outcomes_cons, ih, outcomes_cons claims e front, List.append_assoc]
    rfl

theorem resolveClient_name (h : d.resolveClient decl marker = .ok k) : k.name = decl.name := by
  simp only [resolveClient, resolveContract] at h
  split at h
  · obtain rfl := Except.ok.inj h
    rfl
  · nomatch h

theorem outcomes_singleton_name (claims : Claims) (e : Declaration) :
    ∀ client ∈ d.outcomes claims [e],
      client.1 = e.name ∧ ∀ k, client.2 = .ok k → k.name = e.name := by
  cases client : e.hubClient with
  | none => simp [outcomes, client]
  | some marker =>
    cases claimed : claimModule claims e.name marker.name with
    | error δ => simp [outcomes, client, claimed]
    | ok claims =>
      simp only [outcomes, client, claimed, List.forall_mem_singleton, true_and]
      exact fun k h => resolveClient_name h

-- What is found belongs to a declaration, and a contract has its name.
theorem exists_of_mem_outcomes (h : client ∈ d.outcomes claims es) :
    ∃ e ∈ es, client.1 = e.name ∧ ∀ k, client.2 = .ok k → k.name = e.name := by
  induction es generalizing claims with
  | nil => simp [outcomes] at h
  | cons e es ih =>
    rw [outcomes_cons] at h
    rcases List.mem_append.mp h with h | h
    · exact ⟨e, by simp, outcomes_singleton_name claims e client h⟩
    · obtain ⟨f, hf, named⟩ := ih h
      exact ⟨f, by simp [hf], named⟩

-- A hub client is refused for its binding, or else its names are resolved.
theorem of_mem_outcomes (h : (name, outcome) ∈ d.outcomes claims es) :
    ∃ e ∈ es, ∃ marker, e.hubClient = some marker ∧ e.name = name ∧
      ((∃ claims δ, claimModule claims e.name marker.name = .error δ ∧ outcome = .error [δ]) ∨
        outcome = d.resolveClient e marker) := by
  induction es generalizing claims with
  | nil => cases h
  | cons e es ih =>
    rw [outcomes_cons] at h
    obtain first | later := List.mem_append.mp h
    · cases client : e.hubClient with
      | none => simp [outcomes, client] at first
      | some marker =>
        refine ⟨e, List.mem_cons_self, marker, client, ?_⟩
        cases claimed : claimModule claims e.name marker.name with
        | error δ =>
          simp only [outcomes, client, claimed, List.mem_singleton, Prod.mk.injEq] at first
          exact ⟨first.1.symm, .inl ⟨claims, δ, claimed, first.2⟩⟩
        | ok claims =>
          simp only [outcomes, client, claimed, List.mem_singleton, Prod.mk.injEq] at first
          exact ⟨first.1.symm, .inr first.2⟩
    · obtain ⟨e', inside, found⟩ := ih later
      exact ⟨e', List.mem_cons_of_mem _ inside, found⟩

-- A contract that is found was resolved for a hub client among the declarations.
theorem resolved_of_mem_outcomes (h : (name, .ok k) ∈ d.outcomes claims es) :
    ∃ e ∈ es, ∃ marker, e.hubClient = some marker ∧ e.name = name ∧ d.resolveClient e marker = .ok k := by
  obtain ⟨e, inside, marker, client, named, ⟨_, _, -, refused⟩ | resolved⟩ := of_mem_outcomes h
  · cases refused
  · exact ⟨e, inside, marker, client, named, resolved.symm⟩

theorem clients_name (h : client ∈ d.discover.clients) (k : Contract) (resolved : client.2 = .ok k) :
    k.name = client.1 := by
  obtain ⟨e, -, named, named'⟩ := exists_of_mem_outcomes h
  rw [named' k resolved, named]

-- The only place in which a declaration stands.
theorem Distinct.exists_place (distinct : d.Distinct) (found : d.get? name = some e) :
    ∃ front back, d.declarations = front ++ e :: back ∧
      (∀ x ∈ front, x.name ≠ name) ∧ ∀ x ∈ back, x.name ≠ name := by
  obtain ⟨named, front, back, split, before⟩ := List.find?_eq_some_iff_append.mp found
  refine ⟨front, back, split, by simpa using before, fun x inside same => ?_⟩
  have names : (front.map (·.name) ++ e.name :: back.map (·.name)).Nodup := by
    simpa [Distinct, split] using distinct
  have unmet := (List.nodup_cons.mp (List.nodup_append.mp names).2.1).1
  exact unmet (List.mem_map.mpr ⟨x, inside, same.trans (of_decide_eq_true named).symm⟩)

-- An accepted hub client is found once, with what is resolved for it.
theorem clients_filter (distinct : d.Distinct) (found : d.get? decl.name = some decl)
    (client : decl.hubClient = some marker) (accepted : d.AcceptsBinding decl marker) :
    d.discover.clients.filter (·.1 = decl.name) = [(decl.name, d.resolveClient decl marker)] := by
  obtain ⟨front, back, split, before, behind⟩ := distinct.exists_place found
  have elsewhere {claims : Claims} {es : List Declaration} (h : ∀ e ∈ es, e.name ≠ decl.name) :
      (d.outcomes claims es).filter (·.1 = decl.name) = [] := by
    rw [List.filter_eq_nil_iff]
    intro outcome mem
    obtain ⟨e, he, named, -⟩ := exists_of_mem_outcomes mem
    simpa [named] using h e he
  obtain ⟨claims, accepted⟩ := accepted
  have taken : d.claimsBefore decl.name = front.foldl claimsAfter [] := by
    rw [claimsBefore, split, List.takeWhile_append_of_pos (by simpa using before),
      List.takeWhile_cons_of_neg (by simp), List.append_nil]
  rw [taken] at accepted
  simp only [discover, split, outcomes_append, outcomes_cons _ decl back, List.filter_append]
  rw [elsewhere before, elsewhere behind]
  simp [outcomes, client, accepted]

end HubContract.Document
