import HubContract.Contract.Walk

namespace HubContract.MethodSet

mutual

-- The sets that a depth-first search meets in a set, given the names visited before, and the names after.
def visit (visited : List String) : MethodSet → List MethodSet × List String
  | ⟨name, methods, ancestors⟩ =>
    if visited.contains name then ([], visited)
    else
      let (sets, visited) := visitAll (name :: visited) ancestors
      (⟨name, methods, ancestors⟩ :: sets, visited)

def visitAll (visited : List String) : List MethodSet → List MethodSet × List String
  | [] => ([], visited)
  | s :: rest =>
    let (sets, visited) := visit visited s
    let (more, visited) := visitAll visited rest
    (sets ++ more, visited)

end

theorem unstack_cons_of_visited {visited : List String} {s : MethodSet} (met : visited.contains s.name = true)
    (stack : List MethodSet) : unstack visited (s :: stack) = unstack visited stack := by
  rw [unstack, if_pos met]

theorem unstack_cons_of_fresh {visited : List String} {s : MethodSet} (fresh : visited.contains s.name = false)
    (stack : List MethodSet) :
    unstack visited (s :: stack) = s :: unstack (s.name :: visited) (s.ancestors ++ stack) := by
  rw [unstack, if_neg (by rw [fresh]; exact Bool.false_ne_true), pushAll_reverse]

mutual

-- What is on top of the stack is searched to its end before what is below it: the loop meets the sets that
-- the search meets there, and goes on below with the names that the search has visited by then.
theorem unstack_cons (visited : List String) (s : MethodSet) (stack : List MethodSet) :
    unstack visited (s :: stack) = (visit visited s).1 ++ unstack (visit visited s).2 stack := by
  obtain ⟨name, methods, ancestors⟩ := s
  rw [visit]
  split
  case isTrue met => rw [unstack_cons_of_visited met, List.nil_append]
  case isFalse fresh =>
    rw [unstack_cons_of_fresh (by simpa using fresh), unstack_append (name :: visited) ancestors stack]
    rfl

theorem unstack_append (visited : List String) (sets stack : List MethodSet) :
    unstack visited (sets ++ stack) = (visitAll visited sets).1 ++ unstack (visitAll visited sets).2 stack := by
  match sets with
  | [] => rfl
  | s :: rest =>
    rw [List.cons_append, unstack_cons visited s (rest ++ stack), unstack_append _ rest stack, visitAll,
      List.append_assoc]

end

-- The loop over the stack meets what the search meets.
theorem preorder_eq_visit (root : MethodSet) : root.preorder = (visit [] root).1 := by
  rw [preorder, unstack_cons, unstack, List.append_nil]

mutual

-- What passes on from a set to those it extends holds of all that are visited.
theorem forall_mem_visit {p : MethodSet → Prop} (closed : ∀ s, p s → ∀ a ∈ s.ancestors, p a)
    (visited : List String) (s : MethodSet) (holds : p s) : ∀ t ∈ (visit visited s).1, p t := by
  obtain ⟨name, methods, ancestors⟩ := s
  intro t ht
  rw [visit] at ht
  split at ht
  · cases ht
  · obtain rfl | later := List.mem_cons.mp ht
    · exact holds
    · exact forall_mem_visitAll closed _ ancestors (closed _ holds) t later

theorem forall_mem_visitAll {p : MethodSet → Prop} (closed : ∀ s, p s → ∀ a ∈ s.ancestors, p a)
    (visited : List String) (sets : List MethodSet) (hold : ∀ s ∈ sets, p s) :
    ∀ t ∈ (visitAll visited sets).1, p t := by
  match sets with
  | [] =>
    intro t ht
    cases ht
  | s :: rest =>
    obtain ⟨first, others⟩ := List.forall_mem_cons.mp hold
    intro t ht
    obtain ht | ht := List.mem_append.mp ht
    · exact forall_mem_visit closed visited s first t ht
    · exact forall_mem_visitAll closed _ rest others t ht

end

theorem forall_mem_preorder {p : MethodSet → Prop} (closed : ∀ s, p s → ∀ a ∈ s.ancestors, p a)
    {root : MethodSet} (holds : p root) : ∀ s ∈ root.preorder, p s := by
  rw [preorder_eq_visit]
  exact forall_mem_visit closed [] root holds

end HubContract.MethodSet
