import HubContract.Proofs.Document.Resolution

namespace HubContract

-- A side that is named; an empty name is none.
def HubMarker.named (side : Option String) : Option String := side.filter (· ≠ "")

-- The names of the sides.
def HubMarker.sides (m : HubMarker) : List String := (named m.push).toList ++ (named m.invoke).toList

namespace Document

open Relation

-- The names that a hub client leads to: itself, its sides, and what these extend.
def ClientReaches (d : Document) (decl : Declaration) (marker : HubMarker) (name : String) : Prop :=
  ∃ root ∈ marker.sides ++ [decl.name], ReflTransGen d.Extends root name

-- A name together with a declaration that uses it: the bridge names its sides, and every declaration
-- that it leads to names what it extends.
def Refers (d : Document) (decl : Declaration) (marker : HubMarker) (referrer name : String) : Prop :=
  referrer = decl.name ∧ name ∈ marker.sides ∨
    d.ClientReaches decl marker referrer ∧ d.Extends referrer name

-- The contract that the names of a hub client unfold to.
structure IsContract (d : Document) (decl : Declaration) (marker : HubMarker) (k : Contract) :
    Prop where
  name : k.name = decl.name
  uri : k.uri = marker.uri
  friendlyName : k.friendlyName = marker.name
  methods : k.methods = decl.methods
  push : Option.Rel d.Unfolds (HubMarker.named marker.push) k.pushSet
  invoke : Option.Rel d.Unfolds (HubMarker.named marker.invoke) k.invokeSet
  ancestors : List.Forall₂ d.Unfolds decl.parents k.ancestors

-- The problems of a hub client, found without remembering anything.
def clientProblems (d : Document) (decl : Declaration) (marker : HubMarker) : List Problem :=
  (marker.sides ++ [decl.name]).flatMap (d.problemsFrom [] decl.name)

variable {d : Document} {decl : Declaration} {marker : HubMarker} {r : Resolver}

theorem resolveSide_spec (known : d.Remembers r) (referrer : String) (side : Option String) :
    (d.resolveSide referrer side r).2.problems =
        r.problems ++ (HubMarker.named side).toList.flatMap (d.problemsFrom [] referrer) ∧
      d.Remembers (d.resolveSide referrer side r).2 ∧
      ((HubMarker.named side).toList.flatMap (d.problemsFrom [] referrer) = [] →
        Option.Rel d.Unfolds (HubMarker.named side) (d.resolveSide referrer side r).1) := by
  rcases side with _ | name
  · exact ⟨by simp [resolveSide, HubMarker.named], known, fun _ => .none⟩
  by_cases hn : name = ""
  · subst hn
    exact ⟨by simp [resolveSide, HubMarker.named], known, fun _ => .none⟩
  have agrees : Agrees d r _ _ (d.resolve [] referrer name r) :=
    resolve_agrees (.singleton name) known
  have hside : HubMarker.named (some name) = some name := by simp [HubMarker.named, hn]
  simp only [resolveSide, hn, if_false, hside, Option.toList_some, List.flatMap_cons,
    List.flatMap_nil, List.append_nil]
  refine ⟨agrees.problems, agrees.remembers, fun clear => ?_⟩
  obtain ⟨s, hs⟩ := Option.ne_none_iff_exists'.mp fun h => agrees.none_iff.mp h clear
  rw [hs]
  exact .some (agrees.correct s hs)

-- The ancestors of the bridge are looked at as those of any other name.
theorem resolveAncestors_agrees (found : d.get? decl.name = some decl) (known : d.Remembers r) :
    Agrees d r (d.problemsFrom [] decl.name decl.name) (List.Forall₂ d.Unfolds decl.parents)
      (d.resolveAll [decl.name] decl.name decl.parents r) := by
  rw [problemsFrom_of_some List.not_mem_nil found]
  refine resolveAll_agrees known fun parent hp r known => resolve_agrees ?_ known
  simpa using ⟨decl, found, hp⟩

theorem resolveContract_spec (found : d.get? decl.name = some decl) (marker : HubMarker) :
    (∃ k, d.resolveContract decl marker = .ok k ∧ d.clientProblems decl marker = [] ∧
        d.IsContract decl marker k) ∨
      (d.resolveContract decl marker = .error (d.clientProblems decl marker) ∧
        d.clientProblems decl marker ≠ []) := by
  have known : d.Remembers {} := by simp [Remembers]
  obtain ⟨pushProblems, pushKnown, push⟩ := resolveSide_spec known decl.name marker.push
  obtain ⟨invokeProblems, invokeKnown, invoke⟩ :=
    resolveSide_spec pushKnown decl.name marker.invoke
  have bridge := resolveAncestors_agrees found invokeKnown
  have problems : d.clientProblems decl marker = _ :=
    (bridge.problems.trans (by
      rw [invokeProblems, pushProblems]
      simp [clientProblems, HubMarker.sides])).symm
  simp only [resolveContract]
  rw [← problems]
  by_cases clear : d.clientProblems decl marker = []
  · obtain ⟨none, none'⟩ : marker.sides.flatMap (d.problemsFrom [] decl.name) = [] ∧
        d.problemsFrom [] decl.name decl.name = [] := by
      simpa [clientProblems, List.flatMap_append] using clear
    rw [HubMarker.sides, List.flatMap_append, List.append_eq_nil_iff] at none
    obtain ⟨ancestors, hancestors⟩ :=
      Option.ne_none_iff_exists'.mp fun h => bridge.none_iff.mp h none'
    rw [clear, hancestors]
    exact .inl ⟨_, rfl, rfl, rfl, rfl, rfl, rfl, push none.1, invoke none.2,
      bridge.correct ancestors hancestors⟩
  · refine .inr ⟨?_, clear⟩
    split
    · exact absurd ‹_› clear
    · rfl

theorem rel_unique {R : α → β → Prop} (unique : ∀ a b c, R a b → R a c → b = c)
    (h : Option.Rel R x y) (h' : Option.Rel R x z) : y = z := by
  cases h with
  | none => cases h'; rfl
  | some r =>
    cases h' with
    | some r' => rw [unique _ _ _ r r']

theorem IsContract.unique (h : d.IsContract decl marker k) (h' : d.IsContract decl marker k') :
    k = k' := by
  have unique (a : String) (s s' : MethodSet) (h : d.Unfolds a s) (h' : d.Unfolds a s') : s = s' :=
    h.unique h'
  have push := rel_unique unique h.push h'.push
  have invoke := rel_unique unique h.invoke h'.invoke
  have ancestors := eq_of_forall₂ h.ancestors h'.ancestors unique
  obtain ⟨name, uri, friendlyName, methods, -, -, -⟩ := h
  obtain ⟨name', uri', friendlyName', methods', -, -, -⟩ := h'
  cases k
  cases k'
  simp_all

-- The names of the sides and the bridge unfold wherever there is a contract.
theorem IsContract.unfolds (found : d.get? decl.name = some decl) (h : d.IsContract decl marker k)
    (hr : root ∈ marker.sides ++ [decl.name]) : ∃ s, d.Unfolds root s := by
  have side {x : Option String} {y : Option MethodSet} (rel : Option.Rel d.Unfolds x y)
      (hx : root ∈ x.toList) : ∃ s, d.Unfolds root s := by
    cases rel with
    | none => simp at hx
    | some u =>
      obtain rfl := List.mem_singleton.mp hx
      exact ⟨_, u⟩
  rcases List.mem_append.mp hr with hr | hr
  · rcases List.mem_append.mp hr with hr | hr
    · exact side h.push hr
    · exact side h.invoke hr
  · obtain rfl := List.mem_singleton.mp hr
    exact ⟨_, .of_forall₂ found h.ancestors⟩

theorem IsContract.no_problems (found : d.get? decl.name = some decl)
    (h : d.IsContract decl marker k) : d.clientProblems decl marker = [] := by
  rw [clientProblems, List.flatMap_eq_nil_iff]
  intro root hr
  obtain ⟨s, unfolds⟩ := h.unfolds found hr
  exact problemsFrom_eq_nil unfolds (by simp)

theorem resolveContract_eq_ok_iff (found : d.get? decl.name = some decl) :
    d.resolveContract decl marker = .ok k ↔ d.IsContract decl marker k := by
  rcases resolveContract_spec found marker with ⟨k', h, -, contract⟩ | ⟨h, some⟩
  · rw [h, Except.ok.injEq]
    exact ⟨fun e => e ▸ contract, contract.unique⟩
  · simp only [h, reduceCtorEq, false_iff]
    exact fun contract => some (contract.no_problems found)

theorem resolveContract_eq_error_iff (found : d.get? decl.name = some decl) :
    d.resolveContract decl marker = .error ps ↔
      d.clientProblems decl marker = ps ∧ ps ≠ [] := by
  rcases resolveContract_spec found marker with ⟨k, h, none, -⟩ | ⟨h, some⟩
  · simp only [h, reduceCtorEq, none, false_iff]
    rintro ⟨rfl, nonempty⟩
    exact nonempty rfl
  · rw [h, Except.error.injEq]
    exact ⟨fun e => ⟨e, e ▸ some⟩, And.left⟩

-- The undeclared names that a hub client leads to, each with every declaration that uses it.
theorem undeclared_mem_clientProblems (found : d.get? decl.name = some decl) :
    .undeclared a b ∈ d.clientProblems decl marker ↔
      d.Refers decl marker a b ∧ d.get? b = none := by
  simp only [clientProblems, List.mem_flatMap, undeclared_mem_iff]
  constructor
  · rintro ⟨root, hr, absent, ⟨rfl, rfl⟩ | ⟨path, last⟩⟩
    · refine ⟨.inl ⟨rfl, (List.mem_append.mp hr).resolve_right fun hb => ?_⟩, absent⟩
      -- the bridge itself is declared
      simp [List.mem_singleton.mp hb, found] at absent
    · exact ⟨.inr ⟨⟨root, hr, path⟩, last⟩, absent⟩
  · rintro ⟨⟨rfl, hb⟩ | ⟨⟨root, hr, path⟩, last⟩, absent⟩
    · exact ⟨b, List.mem_append_left _ hb, absent, .inl ⟨rfl, rfl⟩⟩
    · exact ⟨root, hr, absent, .inr ⟨path, last⟩⟩

theorem exists_cycle_mem_clientProblems :
    (∃ a names, .cycle a names ∈ d.clientProblems decl marker) ↔
      ∃ n, d.ClientReaches decl marker n ∧ d.OnCycle n := by
  constructor
  · rintro ⟨a, names, h⟩
    obtain ⟨root, hr, h⟩ := List.mem_flatMap.mp h
    obtain ⟨n, path, cycle⟩ := exists_cycle_iff.mp ⟨a, names, h⟩
    exact ⟨n, ⟨root, hr, path⟩, cycle⟩
  · rintro ⟨n, ⟨root, hr, path⟩, cycle⟩
    obtain ⟨a, names, h⟩ := exists_cycle_iff.mpr ⟨n, path, cycle⟩
    exact ⟨a, names, List.mem_flatMap.mpr ⟨root, hr, h⟩⟩

theorem cycle_of_mem_clientProblems (h : .cycle a names ∈ d.clientProblems decl marker) :
    ∃ first, d.ClientReaches decl marker first ∧ d.IsCycle first names := by
  obtain ⟨root, hr, h⟩ := List.mem_flatMap.mp h
  obtain ⟨first, path, cycle⟩ := cycle_of_mem (.singleton _) h
  exact ⟨first, ⟨root, hr, path⟩, cycle⟩

theorem clientProblems_eq_nil_iff (found : d.get? decl.name = some decl) :
    d.clientProblems decl marker = [] ↔
      (∀ referrer name, d.Refers decl marker referrer name → d.get? name ≠ none) ∧
        ∀ name, d.ClientReaches decl marker name → ¬d.OnCycle name := by
  constructor
  · intro none
    constructor
    · intro a b refers absent
      have mem := (undeclared_mem_clientProblems found).mpr ⟨refers, absent⟩
      simp [none] at mem
    · intro n reached cycle
      obtain ⟨a, names, mem⟩ := exists_cycle_mem_clientProblems.mpr ⟨n, reached, cycle⟩
      simp [none] at mem
  · rintro ⟨declared, acyclic⟩
    refine List.eq_nil_iff_forall_not_mem.mpr fun p hp => ?_
    cases p with
    | undeclared a b =>
      obtain ⟨refers, absent⟩ := (undeclared_mem_clientProblems found).mp hp
      exact declared a b refers absent
    | cycle a names =>
      obtain ⟨n, reached, cycle⟩ := exists_cycle_mem_clientProblems.mp ⟨a, names, hp⟩
      exact acyclic n reached cycle

theorem exists_contract_iff (found : d.get? decl.name = some decl) :
    (∃ k, d.resolveContract decl marker = .ok k) ↔ d.clientProblems decl marker = [] := by
  rcases resolveContract_spec found marker with ⟨k, h, none, -⟩ | ⟨h, some⟩
  · simp [h, none]
  · simp [h, some]

end HubContract.Document
