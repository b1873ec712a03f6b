import HubContract.Document.Resolution
import Mathlib.Data.List.Chain
import Mathlib.Data.List.Forall2

namespace HubContract.Document

open Relation

def Extends (d : Document) (child parent : String) : Prop :=
  ∃ e, d.get? child = some e ∧ parent ∈ e.parents

-- A name that leads back to itself.
def OnCycle (d : Document) (name : String) : Prop := TransGen d.Extends name name

-- A cycle written down from one of its names to the next occurrence of that name.
def IsCycle (d : Document) (first : String) (names : List String) : Prop :=
  names.IsChain d.Extends ∧ ∃ between, names = first :: (between ++ [first])

-- The set of a name carries the methods of its declaration and, in order, the sets of what that
-- extends.
inductive Unfolds (d : Document) : String → MethodSet → Prop where
  | intro (found : d.get? name = some e) (count : e.parents.length = ancestors.length)
      (each : ∀ parent s, (parent, s) ∈ e.parents.zip ancestors → Unfolds d parent s) :
      Unfolds d name ⟨e.name, e.methods, ancestors⟩

variable {d : Document}

theorem get?_name (found : d.get? name = some e) : e.name = name := by
  simpa using List.find?_some found

theorem extends_iff (found : d.get? child = some e) :
    d.Extends child parent ↔ parent ∈ e.parents := by
  simp [Extends, found]

theorem not_extends (absent : d.get? child = none) : ¬d.Extends child parent := by
  simp [Extends, absent]

theorem Unfolds.of_forall₂ (found : d.get? name = some e)
    (h : List.Forall₂ d.Unfolds e.parents ancestors) :
    d.Unfolds name ⟨e.name, e.methods, ancestors⟩ :=
  have ⟨count, each⟩ := List.forall₂_iff_zip.mp h
  .intro found count fun _ _ => each

theorem Unfolds.found (h : d.Unfolds name s) :
    ∃ e, d.get? name = some e ∧ s.name = e.name ∧ s.methods = e.methods ∧
      List.Forall₂ d.Unfolds e.parents s.ancestors := by
  cases h with
  | intro found count each =>
    exact ⟨_, found, rfl, rfl, List.forall₂_iff_zip.mpr ⟨count, each _ _⟩⟩

theorem exists_of_forall₂_left {R : α → β → Prop} (h : List.Forall₂ R as bs) (ha : a ∈ as) :
    ∃ b ∈ bs, R a b := by
  induction h with
  | nil => simp at ha
  | cons r _ ih =>
    rcases List.mem_cons.mp ha with rfl | ha
    · exact ⟨_, List.mem_cons_self, r⟩
    · obtain ⟨b, hb, r⟩ := ih ha
      exact ⟨b, List.mem_cons_of_mem _ hb, r⟩

theorem eq_of_forall₂ {R S : α → β → Prop} (h : List.Forall₂ R as bs) (h' : List.Forall₂ S as cs)
    (same : ∀ a b c, R a b → S a c → b = c) : bs = cs := by
  induction h generalizing cs with
  | nil => cases h'; rfl
  | cons r _ ih =>
    cases h' with
    | cons r' rest => rw [same _ _ _ r r', ih rest]

theorem Unfolds.name_eq (h : d.Unfolds n s) : s.name = n := by
  obtain ⟨e, found, named, -⟩ := h.found
  exact named.trans (get?_name found)

-- A name unfolds to one set only.
theorem Unfolds.unique (h : d.Unfolds name s) (h' : d.Unfolds name s') : s = s' := by
  induction h generalizing s' with
  | @intro name e ancestors found count _ ih =>
    obtain ⟨e', found', hname, hmethods, all⟩ := h'.found
    obtain rfl : e = e' := Option.some.inj (found.symm.trans found')
    have alike : List.Forall₂ (fun p s => ∀ s', d.Unfolds p s' → s = s') e.parents ancestors :=
      List.forall₂_iff_zip.mpr ⟨count, fun m _ h => ih _ _ m h⟩
    have hancestors := eq_of_forall₂ alike all fun _ _ c same h => same c h
    obtain ⟨n, ms, as⟩ := s'
    simp_all

-- What a name that unfolds leads to is declared and unfolds as well.
theorem Unfolds.reaches (h : d.Unfolds name s) (path : ReflTransGen d.Extends name other) :
    ∃ s', d.Unfolds other s' := by
  induction path with
  | refl => exact ⟨s, h⟩
  | tail _ step ih =>
    obtain ⟨s', h'⟩ := ih
    obtain ⟨e, found, -, -, all⟩ := h'.found
    obtain ⟨s', -, unfolds⟩ := exists_of_forall₂_left all ((extends_iff found).mp step)
    exact ⟨s', unfolds⟩

-- Following what is extended ends everywhere.
theorem Unfolds.acc (h : d.Unfolds name s) : Acc (fun a b => d.Extends b a) name := by
  induction h with
  | @intro name e ancestors found count each ih =>
    refine .intro _ fun parent edge => ?_
    obtain ⟨s, -, mem⟩ := exists_of_forall₂_left
      (R := fun p s => (p, s) ∈ e.parents.zip ancestors)
      (List.forall₂_iff_zip.mpr ⟨count, fun m => m⟩) ((extends_iff found).mp edge)
    exact ih _ _ mem

theorem not_onCycle_of_acc (h : Acc (fun a b => d.Extends b a) name) : ¬d.OnCycle name := by
  induction h with
  | intro name _ ih =>
    intro cycle
    -- the cycle goes on as a cycle of the next name
    obtain ⟨next, edge, back⟩ := TransGen.head'_iff.mp cycle
    exact ih next edge (TransGen.tail' back edge)

theorem Unfolds.not_onCycle (h : d.Unfolds name s) : ¬d.OnCycle name :=
  not_onCycle_of_acc h.acc

-- A path can be begun anew behind the last visit of its start.
theorem reflTransGen_avoiding {R : α → α → Prop} (path : ReflTransGen R a b) :
    a = b ∨ ∃ c, c ≠ a ∧ R a c ∧ ReflTransGen (fun x y => R x y ∧ y ≠ a) c b := by
  induction path with
  | refl => exact .inl rfl
  | @tail x y _ step ih =>
    by_cases hy : y = a
    · exact .inl hy.symm
    · right
      rcases ih with rfl | ⟨c, hc, first, rest⟩
      · exact ⟨y, hy, step, .refl⟩
      · exact ⟨c, hc, first, rest.tail ⟨step, hy⟩⟩

-- Every name on a trail leads to the name at its end.
theorem reaches_of_mem_trail (trail : (prior ++ [name]).IsChain d.Extends) (h : t ∈ prior) :
    TransGen d.Extends t name := by
  obtain ⟨front, back, rfl⟩ := List.append_of_mem h
  have chain : (t :: (back ++ [name])).IsChain d.Extends := by
    rw [List.append_assoc] at trail
    exact trail.right_of_append
  clear trail h
  induction back generalizing t with
  | nil => exact .single (by simpa using chain)
  | cons u back ih =>
    simp only [List.cons_append, List.isChain_cons_cons] at chain
    exact .head chain.1 (ih chain.2)

theorem IsCycle.onCycle (h : d.IsCycle first names) : d.OnCycle first := by
  obtain ⟨chain, between, rfl⟩ := h
  exact reaches_of_mem_trail chain (List.mem_cons_self)

end HubContract.Document
