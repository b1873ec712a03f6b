import HubContract.Proofs.Document.Graph

namespace HubContract.Document

open Relation

-- The problems that a name leads to, with the names on the way to it.
def problemsFrom (d : Document) (trail : List String) (referrer name : String) : List Problem :=
  if _fresh : trail.contains name = false then
    match _found : d.get? name with
    | none => [.undeclared referrer name]
    | some e => e.parents.flatMap fun parent => problemsFrom d (trail ++ [name]) name parent
  else [.cycle referrer (trail.dropWhile (· ≠ name) ++ [name])]
termination_by (d.remaining trail).length
decreasing_by exact remaining_lt ‹_› ‹_›

variable {d : Document} {trail : List String} {referrer name : String}

theorem problemsFrom_of_mem (met : name ∈ trail) :
    d.problemsFrom trail referrer name =
      [.cycle referrer (trail.dropWhile (· ≠ name) ++ [name])] := by
  rw [problemsFrom, dif_neg (by simpa using met)]

theorem problemsFrom_of_none (fresh : name ∉ trail) (absent : d.get? name = none) :
    d.problemsFrom trail referrer name = [.undeclared referrer name] := by
  rw [problemsFrom, dif_pos (by simpa using fresh)]
  split
  · rfl
  · simp_all

theorem problemsFrom_of_some (fresh : name ∉ trail) (found : d.get? name = some e) :
    d.problemsFrom trail referrer name =
      e.parents.flatMap (d.problemsFrom (trail ++ [name]) name) := by
  rw [problemsFrom, dif_pos (by simpa using fresh)]
  split
  · simp_all
  · rename_i e' found'
    rw [Option.some.inj (found'.symm.trans found)]

-- Following names ends: at a name of the trail, at one that is not declared, and else what the
-- declaration extends is followed with one more name on the trail.
theorem trail_induction (d : Document) {P : List String → String → Prop}
    (met : ∀ trail name, name ∈ trail → P trail name)
    (absent : ∀ trail name, name ∉ trail → d.get? name = none → P trail name)
    (declared : ∀ trail name e, name ∉ trail → d.get? name = some e →
      (∀ parent ∈ e.parents, P (trail ++ [name]) parent) → P trail name)
    (trail : List String) (name : String) : P trail name :=
  if fresh : name ∉ trail then
    match found : d.get? name with
    | none => absent trail name fresh found
    | some e => declared trail name e fresh found fun parent _ =>
        trail_induction d met absent declared (trail ++ [name]) parent
  else met trail name (by simpa using fresh)
termination_by (d.remaining trail).length
decreasing_by exact remaining_lt (by simpa using fresh) found

-- Nothing is wrong with a name that unfolds, unless it leads back to the trail.
theorem problemsFrom_eq_nil (unfolds : d.Unfolds name s)
    (clear : ∀ t ∈ trail, ¬ReflTransGen d.Extends name t) :
    d.problemsFrom trail referrer name = [] := by
  induction trail, name using trail_induction d generalizing referrer s with
  | met trail name hm => exact absurd .refl (clear name hm)
  | absent trail name _ ha =>
    obtain ⟨e, found, -⟩ := unfolds.found
    simp [ha] at found
  | declared trail name e fresh found ih =>
    rw [problemsFrom_of_some fresh found, List.flatMap_eq_nil_iff]
    intro parent hp
    have edge : d.Extends name parent := ⟨e, found, hp⟩
    obtain ⟨s', unfolds'⟩ := unfolds.reaches (.single edge)
    refine ih parent hp unfolds' fun t ht back => ?_
    rcases List.mem_append.mp ht with ht | ht
    · exact clear t ht (.head edge back)
    · obtain rfl := List.mem_singleton.mp ht
      exact unfolds.not_onCycle (TransGen.head' edge back)

theorem undeclared_of_mem (h : .undeclared a b ∈ d.problemsFrom trail referrer name) :
    d.get? b = none ∧
      (a = referrer ∧ b = name ∨ ReflTransGen d.Extends name a ∧ d.Extends a b) := by
  induction trail, name using trail_induction d generalizing referrer with
  | met trail name hm => simp [problemsFrom_of_mem hm] at h
  | absent trail name fresh ha =>
    obtain ⟨rfl, rfl⟩ : a = referrer ∧ b = name := by
      simpa [problemsFrom_of_none fresh ha] using h
    exact ⟨ha, .inl ⟨rfl, rfl⟩⟩
  | declared trail name e fresh found ih =>
    rw [problemsFrom_of_some fresh found] at h
    obtain ⟨parent, hp, h⟩ := List.mem_flatMap.mp h
    have edge : d.Extends name parent := ⟨e, found, hp⟩
    obtain ⟨ha, ⟨rfl, rfl⟩ | ⟨path, last⟩⟩ := ih parent hp h
    · exact ⟨ha, .inr ⟨.refl, edge⟩⟩
    · exact ⟨ha, .inr ⟨.head edge path, last⟩⟩

-- The part of a trail from the first occurrence of a name on.
theorem dropWhile_eq_cons (h : name ∈ trail) :
    ∃ between, trail.dropWhile (· ≠ name) = name :: between := by
  induction trail with
  | nil => simp at h
  | cons t trail ih =>
    by_cases ht : t = name
    · exact ⟨trail, by simp [ht]⟩
    · obtain ⟨between, hb⟩ := ih (by simpa [Ne.symm ht] using h)
      exact ⟨between, by simpa [List.dropWhile_cons, ht] using hb⟩

theorem cycle_of_mem (chain : (trail ++ [name]).IsChain d.Extends)
    (h : .cycle r names ∈ d.problemsFrom trail referrer name) :
    ∃ first, ReflTransGen d.Extends name first ∧ d.IsCycle first names := by
  induction trail, name using trail_induction d generalizing referrer with
  | met trail name hm =>
    obtain ⟨between, hb⟩ := dropWhile_eq_cons hm
    rw [problemsFrom_of_mem hm, hb, List.mem_singleton] at h
    obtain ⟨-, rfl⟩ := Problem.cycle.inj h
    refine ⟨name, .refl, chain.suffix ?_, between, rfl⟩
    rw [← hb, List.suffix_append_inj_of_length_eq rfl]
    exact ⟨List.dropWhile_suffix _, rfl⟩
  | absent trail name fresh ha => simp [problemsFrom_of_none fresh ha] at h
  | declared trail name e fresh found ih =>
    rw [problemsFrom_of_some fresh found] at h
    obtain ⟨parent, hp, h⟩ := List.mem_flatMap.mp h
    have edge : d.Extends name parent := ⟨e, found, hp⟩
    obtain ⟨first, path, cycle⟩ := ih parent hp (chain.append (.singleton _) (by simpa using edge)) h
    exact ⟨first, .head edge path, cycle⟩

-- A path that keeps off the trail is followed to its end.
theorem undeclared_mem (fresh : name ∉ trail) (known : ∀ t ∈ trail, d.get? t ≠ none)
    (path : ReflTransGen (fun x y => d.Extends x y ∧ y ∉ trail) name a)
    (last : d.Extends a b) (ha : d.get? b = none) :
    .undeclared a b ∈ d.problemsFrom trail referrer name := by
  induction trail, name using trail_induction d generalizing referrer with
  | met trail name hm => exact absurd hm fresh
  | absent trail name _ absent =>
    rcases path.cases_head with rfl | ⟨c, step, -⟩
    · exact absurd last (not_extends absent)
    · exact absurd step.1 (not_extends absent)
  | declared trail name e _ found ih =>
    rw [problemsFrom_of_some fresh found, List.mem_flatMap]
    have known' : ∀ t ∈ trail ++ [name], d.get? t ≠ none := by
      intro t ht
      rcases List.mem_append.mp ht with ht | ht
      · exact known t ht
      · simp [List.mem_singleton.mp ht, found]
    rcases reflTransGen_avoiding path with rfl | ⟨c, hc, ⟨step, hct⟩, rest⟩
    · refine ⟨b, (extends_iff found).mp last, ?_⟩
      rw [problemsFrom_of_none (fun hb => known' b hb ha) ha]
      simp
    · refine ⟨c, (extends_iff found).mp step, ih c ((extends_iff found).mp step) ?_ known' ?_⟩
      · simp [hct, hc]
      · exact ReflTransGen.mono (fun x y h => ⟨h.1.1, by simp [h.1.2, h.2]⟩) _ _ rest

theorem acc_of_no_cycle (h : ∀ r names, .cycle r names ∉ d.problemsFrom trail referrer name) :
    Acc (fun a b => d.Extends b a) name := by
  induction trail, name using trail_induction d generalizing referrer with
  | met trail name hm =>
    exact absurd (problemsFrom_of_mem hm ▸ List.mem_singleton_self _) (h referrer _)
  | absent trail name _ ha => exact .intro _ fun _ edge => absurd edge (not_extends ha)
  | declared trail name e fresh found ih =>
    refine .intro _ fun parent edge => ?_
    have hp := (extends_iff found).mp edge
    have none : ∀ r names, .cycle r names ∉ d.problemsFrom (trail ++ [name]) name parent := by
      intro r names hm
      apply h r names
      rw [problemsFrom_of_some fresh found]
      exact List.mem_flatMap.mpr ⟨parent, hp, hm⟩
    exact ih parent hp none

theorem acc_of_reaches (h : Acc (fun a b => d.Extends b a) name)
    (path : ReflTransGen d.Extends name other) : Acc (fun a b => d.Extends b a) other := by
  induction path with
  | refl => exact h
  | tail _ step ih => exact ih.inv step

section Root

variable {root : String}

-- From a root, the undeclared names are found exactly.
theorem undeclared_mem_iff :
    .undeclared a b ∈ d.problemsFrom [] referrer root ↔
      d.get? b = none ∧
        (a = referrer ∧ b = root ∨ ReflTransGen d.Extends root a ∧ d.Extends a b) := by
  refine ⟨undeclared_of_mem, ?_⟩
  rintro ⟨absent, ⟨rfl, rfl⟩ | ⟨path, last⟩⟩
  · simp [problemsFrom_of_none List.not_mem_nil absent]
  · have path' : ReflTransGen (fun x y => d.Extends x y ∧ y ∉ []) root a :=
      ReflTransGen.mono (fun _ _ h => ⟨h, List.not_mem_nil⟩) _ _ path
    exact undeclared_mem List.not_mem_nil (by simp) path' last absent

-- A cycle is found from a root that leads to one.
theorem exists_cycle_iff :
    (∃ r names, .cycle r names ∈ d.problemsFrom [] referrer root) ↔
      ∃ n, ReflTransGen d.Extends root n ∧ d.OnCycle n := by
  constructor
  · rintro ⟨r, names, h⟩
    obtain ⟨first, path, cycle⟩ := cycle_of_mem (.singleton _) h
    exact ⟨first, path, cycle.onCycle⟩
  · rintro ⟨n, path, cycle⟩
    by_contra none
    have acc : Acc (fun a b => d.Extends b a) root :=
      acc_of_no_cycle fun r names h => none ⟨r, names, h⟩
    exact not_onCycle_of_acc (acc_of_reaches acc path) cycle

end Root

end HubContract.Document
