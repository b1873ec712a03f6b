import HubContract.Proofs.Contract.Sides
import HubContract.Proofs.Document.Graph

namespace HubContract.Document

open Relation

theorem remaining_append_le (d : Document) (seen more : List String) :
    (d.remaining (seen ++ more)).length ≤ (d.remaining seen).length := by
  have sub : d.remaining (seen ++ more) = (d.remaining seen).filter fun e => !more.contains e.name := by
    simp only [remaining, List.filter_filter]
    refine List.filter_congr fun e _ => ?_
    by_cases met : e.name ∈ seen <;> simp [met]
  rw [sub]
  exact List.length_filter_le _ _

-- The names that are visited from several names on, in order: each before those that its declaration
-- extends, and only where it is met first.
def searchFrom (d : Document) (seen : List String) : List String → List String
  | [] => []
  | name :: names =>
    if _fresh : seen.contains name = false then
      match _found : d.get? name with
      | none => searchFrom d seen names
      | some e =>
        let below := searchFrom d (seen ++ [name]) e.parents
        name :: below ++ searchFrom d (seen ++ [name] ++ below) names
    else searchFrom d seen names
termination_by names => ((d.remaining seen).length, names.length)
decreasing_by
  · exact Prod.Lex.right _ (by simp)
  · exact Prod.Lex.left _ _ (remaining_lt ‹_› ‹_›)
  · exact Prod.Lex.left _ _
      (Nat.lt_of_le_of_lt (remaining_append_le d _ _) (remaining_lt ‹_› ‹_›))
  · exact Prod.Lex.right _ (by simp)

def search (d : Document) (root : String) : List String := d.searchFrom [] [root]

variable {d : Document} {seen names : List String} {name : String} {e : Declaration}

theorem searchFrom_of_seen (met : name ∈ seen) :
    d.searchFrom seen (name :: names) = d.searchFrom seen names := by
  rw [searchFrom, dif_neg (by simpa using met)]

theorem searchFrom_of_none (absent : d.get? name = none) :
    d.searchFrom seen (name :: names) = d.searchFrom seen names := by
  by_cases met : name ∈ seen
  · exact searchFrom_of_seen met
  · rw [searchFrom, dif_pos (by simpa using met)]
    split
    · rfl
    · simp_all

theorem searchFrom_of_some (fresh : name ∉ seen) (found : d.get? name = some e) :
    d.searchFrom seen (name :: names) =
      name :: d.searchFrom (seen ++ [name]) e.parents ++
        d.searchFrom (seen ++ [name] ++ d.searchFrom (seen ++ [name]) e.parents) names := by
  rw [searchFrom, dif_pos (by simpa using fresh)]
  split
  · simp_all
  · rename_i e' found'
    obtain rfl : e' = e := Option.some.inj (found'.symm.trans found)
    rfl

-- A search ends with the names; it goes past those that were seen or are not declared, and what a
-- declaration extends is searched before the names behind it.
theorem search_induction (d : Document) {P : List String → List String → Prop}
    (nil : ∀ seen, P seen [])
    (seen : ∀ seen name names, name ∈ seen → P seen names → P seen (name :: names))
    (absent : ∀ seen name names, d.get? name = none → P seen names → P seen (name :: names))
    (declared : ∀ seen name names e, name ∉ seen → d.get? name = some e →
      P (seen ++ [name]) e.parents →
      P (seen ++ [name] ++ d.searchFrom (seen ++ [name]) e.parents) names → P seen (name :: names))
    (before names : List String) : P before names := by
  induction before, names using searchFrom.induct d with
  | case1 before => exact nil before
  | case2 before name names fresh found ih => exact absent before name names found ih
  | case3 before name names fresh e found _ below behind =>
    exact declared before name names e (by simpa using fresh) found below behind
  | case4 before name names met ih => exact seen before name names (by simpa using met) ih

-- Nothing is visited twice, and nothing that was seen before.
theorem nodup_append_searchFrom (nodup : seen.Nodup) : (seen ++ d.searchFrom seen names).Nodup := by
  induction seen, names using search_induction d with
  | nil seen =>
    rw [searchFrom, List.append_nil]
    exact nodup
  | seen seen name names met ih =>
    rw [searchFrom_of_seen met]
    exact ih nodup
  | absent seen name names absent ih =>
    rw [searchFrom_of_none absent]
    exact ih nodup
  | declared seen name names e fresh found below behind =>
    have further : (seen ++ [name]).Nodup := by
      refine List.nodup_append.mpr ⟨nodup, List.pairwise_singleton _ _, fun a ha b hb same => ?_⟩
      obtain rfl := List.mem_singleton.mp hb
      exact fresh (same ▸ ha)
    have all := behind (below further)
    rw [searchFrom_of_some fresh found]
    simpa using all

theorem nodup_search (d : Document) (root : String) : (d.search root).Nodup := by
  have nodup : ([] ++ d.searchFrom [] [root]).Nodup := nodup_append_searchFrom List.nodup_nil
  rwa [List.nil_append] at nodup

-- What is visited is declared, and one of the names leads to it.
theorem reaches_of_mem_searchFrom (mem : n ∈ d.searchFrom seen names) :
    (∃ e, d.get? n = some e) ∧ ∃ root ∈ names, ReflTransGen d.Extends root n := by
  induction seen, names using search_induction d with
  | nil seen => simp [searchFrom] at mem
  | seen seen name names met ih =>
    rw [searchFrom_of_seen met] at mem
    obtain ⟨known, root, inside, path⟩ := ih mem
    exact ⟨known, root, List.mem_cons_of_mem _ inside, path⟩
  | absent seen name names absent ih =>
    rw [searchFrom_of_none absent] at mem
    obtain ⟨known, root, inside, path⟩ := ih mem
    exact ⟨known, root, List.mem_cons_of_mem _ inside, path⟩
  | declared seen name names e fresh found below behind =>
    rw [searchFrom_of_some fresh found] at mem
    rcases List.mem_append.mp mem with first | later
    · rcases List.mem_cons.mp first with rfl | inside
      · exact ⟨⟨e, found⟩, n, List.mem_cons_self, .refl⟩
      · obtain ⟨known, parent, extended, path⟩ := below inside
        exact ⟨known, name, List.mem_cons_self, .head ⟨e, found, extended⟩ path⟩
    · obtain ⟨known, root, inside, path⟩ := behind later
      exact ⟨known, root, List.mem_cons_of_mem _ inside, path⟩

-- A declared name among those searched is visited now or was seen before.
theorem mem_of_mem_names (inside : n ∈ names) (known : d.get? n = some e) :
    n ∈ seen ++ d.searchFrom seen names := by
  induction seen, names using search_induction d with
  | nil seen => cases inside
  | seen seen name names met ih =>
    rw [searchFrom_of_seen met]
    rcases List.mem_cons.mp inside with rfl | inside
    · exact List.mem_append_left _ met
    · exact ih inside
  | absent seen name names absent ih =>
    rw [searchFrom_of_none absent]
    rcases List.mem_cons.mp inside with rfl | inside
    · simp [absent] at known
    · exact ih inside
  | declared seen name names e fresh found _ behind =>
    rw [searchFrom_of_some fresh found]
    rcases List.mem_cons.mp inside with rfl | inside
    · simp
    · have later := behind inside
      simpa using later

-- With a name all that its declaration extends is visited, as far as it is declared.
theorem searchFrom_closed (visited : n ∈ d.searchFrom seen names) (edge : d.Extends n parent)
    (known : d.get? parent = some e) : parent ∈ seen ++ d.searchFrom seen names := by
  induction seen, names using search_induction d with
  | nil seen => simp [searchFrom] at visited
  | seen seen name names met ih =>
    rw [searchFrom_of_seen met] at visited ⊢
    exact ih visited
  | absent seen name names absent ih =>
    rw [searchFrom_of_none absent] at visited ⊢
    exact ih visited
  | declared seen name names e fresh found below behind =>
    rw [searchFrom_of_some fresh found] at visited ⊢
    rcases List.mem_append.mp visited with first | later
    · have inside : parent ∈ seen ++ [name] ++ d.searchFrom (seen ++ [name]) e.parents := by
        rcases List.mem_cons.mp first with rfl | first
        · exact mem_of_mem_names ((extends_iff found).mp edge) known
        · exact below first
      have sub : seen ++ [name] ++ d.searchFrom (seen ++ [name]) e.parents ⊆
          seen ++ (name :: d.searchFrom (seen ++ [name]) e.parents ++
            d.searchFrom (seen ++ [name] ++ d.searchFrom (seen ++ [name]) e.parents) names) := by
        intro x hx
        simp only [List.mem_append, List.mem_cons, List.not_mem_nil, or_false] at hx ⊢
        tauto
      exact sub inside
    · have inside := behind later
      simpa using inside

-- The search finds what is declared among all that a name leads to.
theorem mem_search_iff {root : String} :
    n ∈ d.search root ↔ ReflTransGen d.Extends root n ∧ ∃ e, d.get? n = some e := by
  constructor
  · intro mem
    obtain ⟨known, root', inside, path⟩ := reaches_of_mem_searchFrom mem
    obtain rfl := List.mem_singleton.mp inside
    exact ⟨path, known⟩
  · rintro ⟨path, e, known⟩
    induction path generalizing e with
    | refl =>
      have visited : root ∈ [] ++ d.searchFrom [] [root] :=
        mem_of_mem_names (List.mem_singleton_self root) known
      rwa [List.nil_append] at visited
    | tail _ edge ih =>
      obtain ⟨child, found, extended⟩ := edge
      have visited := searchFrom_closed (ih child found) ⟨child, found, extended⟩ known
      rwa [List.nil_append] at visited

-- Sets that names unfold to are visited in the order in which the names are searched.
theorem visitAll_eq_searchFrom {visited : List String} {sets : List MethodSet}
    (unfold : List.Forall₂ d.Unfolds names sets) (same : ∀ n, n ∈ visited ↔ n ∈ seen) :
    (MethodSet.visitAll visited sets).1.map (·.name) = d.searchFrom seen names ∧
      ∀ n, n ∈ (MethodSet.visitAll visited sets).2 ↔ n ∈ seen ++ d.searchFrom seen names := by
  induction seen, names using search_induction d generalizing visited sets with
  | nil seen =>
    cases unfold
    simp [MethodSet.visitAll, searchFrom, same]
  | seen seen name names met ih =>
    cases unfold with
    | @cons _ s _ rest first others =>
      have skipped : MethodSet.visit visited s = ([], visited) := by
        obtain ⟨n, methods, ancestors⟩ := s
        obtain rfl : n = name := first.name_eq
        rw [MethodSet.visit, if_pos (by simpa [same] using met)]
      rw [MethodSet.visitAll, skipped, searchFrom_of_seen met]
      exact ih others same
  | absent seen name names absent ih =>
    cases unfold with
    | cons first others =>
      obtain ⟨e, found, -⟩ := first.found
      simp [absent] at found
  | declared seen name names e fresh found below behind =>
    cases unfold with
    | @cons _ s _ rest first others =>
      obtain ⟨e', found', named, -, parents⟩ := first.found
      obtain rfl : e = e' := Option.some.inj (found.symm.trans found')
      obtain rfl := get?_name found
      obtain ⟨n, methods, ancestors⟩ := s
      obtain rfl : n = e.name := named
      have extended (m : String) : m ∈ e.name :: visited ↔ m ∈ seen ++ [e.name] := by
        simp [same, or_comm]
      obtain ⟨order, after⟩ := below parents extended
      obtain ⟨order', after'⟩ := behind others after
      have opened : MethodSet.visit visited ⟨e.name, methods, ancestors⟩ =
          (⟨e.name, methods, ancestors⟩ :: (MethodSet.visitAll (e.name :: visited) ancestors).1,
            (MethodSet.visitAll (e.name :: visited) ancestors).2) := by
        rw [MethodSet.visit, if_neg (by simpa [same] using fresh)]
      rw [MethodSet.visitAll, opened, searchFrom_of_some fresh found]
      refine ⟨?_, fun m => ?_⟩
      · rw [List.map_append, List.map_cons, order, order']
      · rw [after']
        simp

theorem preorder_eq_search {root : MethodSet} (unfolds : d.Unfolds name root) :
    root.preorder.map (·.name) = d.search name := by
  have all : (MethodSet.visitAll [] [root]).1.map (·.name) = d.searchFrom [] [name] :=
    (visitAll_eq_searchFrom (.cons unfolds .nil) fun _ => Iff.rfl).1
  simp only [MethodSet.visitAll, List.append_nil] at all
  rw [MethodSet.preorder_eq_visit]
  exact all

end HubContract.Document
