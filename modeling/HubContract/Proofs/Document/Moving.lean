import HubContract.Proofs.Document.Fixing
import Mathlib.Algebra.Order.Group.Multiset
import Mathlib.Tactic.Abel

namespace HubContract

-- A method without what ties it to its declaration: its name, its parameters and its return type.
def Method.shape (m : Method) : String × List Parameter × ReturnType := (m.name, m.parameters, m.returns)

-- A method in the declaration to which it was moved.
def Method.movedTo (m : Method) (target : String) : Method := { m with owner := target, invoke := false }

namespace Declaration

def withMethods (e : Declaration) (methods : List Method) : Declaration := { e with methods }

def shapes (e : Declaration) : Multiset (String × List Parameter × ReturnType) :=
  e.methods.map Method.shape

theorem shapes_withMethods_append (e : Declaration) (before after : List Method) :
    (e.withMethods (before ++ after)).shapes =
      (e.withMethods before).shapes + (e.withMethods after).shapes := by
  simp only [shapes, withMethods, List.map_append, Multiset.coe_add]

end Declaration

namespace Document

def methods (d : Document) : List Method := d.declarations.flatMap (·.methods)

def shapes (d : Document) : Multiset (String × List Parameter × ReturnType) := d.methods.map Method.shape

variable {d d' : Document} {decl target e e' : Declaration} {before after : List Method} {m : Method}

theorem card_shapes (d : Document) : d.shapes.card = d.methods.length := by
  rw [shapes, Multiset.coe_card, List.length_map]

-- A replacement changes the methods of one declaration.
theorem shapes_replace (distinct : d.Distinct) (found : d.get? e.name = some decl) :
    (d.replace e).shapes + decl.shapes = d.shapes + e.shapes := by
  obtain ⟨front, back, split, replaced⟩ := exists_declarations_replace distinct found
  simp only [shapes, methods, split, replaced, Declaration.shapes, List.flatMap_append,
    List.flatMap_cons, List.map_append, ← Multiset.coe_add]
  abel

-- Of two replacements of one declaration the last one counts.
theorem replace_replace (d : Document) (same : e.name = e'.name) :
    (d.replace e).replace e' = d.replace e' := by
  simp only [replace, List.map_map, Document.mk.injEq, and_true]
  refine List.map_congr_left fun x _ => ?_
  by_cases here : x.name = e'.name <;> simp [here, same]

section

variable (distinct : d.Distinct) (found : d.get? decl.name = some decl)

include distinct found

theorem shapes_taken (split : decl.methods = before ++ m :: after) :
    (d.replace (decl.withMethods (before ++ after))).shapes + {m.shape} = d.shapes := by
  have taken := shapes_replace (e := decl.withMethods (before ++ after)) distinct found
  have whole : decl.shapes = (decl.withMethods (before ++ after)).shapes + {m.shape} := by
    have parts : decl = decl.withMethods (before ++ [m] ++ after) := by
      rw [List.append_assoc, List.singleton_append, ← split]
      rfl
    have one : (decl.withMethods [m]).shapes = {m.shape} := rfl
    rw [congrArg Declaration.shapes parts, Declaration.shapes_withMethods_append,
      Declaration.shapes_withMethods_append, Declaration.shapes_withMethods_append, one]
    abel
  rw [whole, add_comm (Declaration.shapes _), ← add_assoc] at taken
  exact add_right_cancel taken

theorem shapes_given (m : Method) :
    (d.replace (decl.withMethods (decl.methods ++ [m]))).shapes = d.shapes + {m.shape} := by
  have given := shapes_replace (e := decl.withMethods (decl.methods ++ [m])) distinct found
  rw [Declaration.shapes_withMethods_append, add_comm (Declaration.shapes _), ← add_assoc] at given
  exact add_right_cancel given

end

-- The two replacements of a move.
def withMoved (d : Document) (decl target : Declaration) (before : List Method) (m : Method)
    (after : List Method) : Document :=
  (d.replace (decl.withMethods (before ++ after))).replace
    (target.withMethods (target.methods ++ [m.movedTo target.name]))

-- What is declared stays declared.

theorem exists_get?_replace (e : Declaration) {n : String} (declared : d.get? n = some decl) :
    ∃ decl', (d.replace e).get? n = some decl' := by
  by_cases here : n = e.name
  · subst here
    exact ⟨e, get?_replace declared⟩
  · exact ⟨decl, (get?_replace_of_ne here).trans declared⟩

theorem exists_get?_withMoved {n : String} (declared : d.get? n = some e) :
    ∃ e', (d.withMoved decl target before m after).get? n = some e' := by
  obtain ⟨_, taken⟩ := exists_get?_replace (decl.withMethods (before ++ after)) declared
  exact exists_get?_replace _ taken

section

variable (before : List Method) (m : Method) (after : List Method)

theorem get?_withMoved_source (found : d.get? decl.name = some decl) (other : decl.name ≠ target.name) :
    (d.withMoved decl target before m after).get? decl.name =
      some (decl.withMethods (before ++ after)) :=
  (get?_replace_of_ne (e := target.withMethods (target.methods ++ [m.movedTo target.name])) other).trans
    (get?_replace (e := decl.withMethods (before ++ after)) found)

theorem get?_withMoved_target (decl : Declaration) (found' : d.get? target.name = some target) :
    (d.withMoved decl target before m after).get? target.name =
      some (target.withMethods (target.methods ++ [m.movedTo target.name])) := by
  obtain ⟨_, taken⟩ := exists_get?_replace (decl.withMethods (before ++ after)) found'
  exact get?_replace (e := target.withMethods _) taken

end

-- The method is taken out of its declaration and stands at the end of the target, and nothing else is
-- changed.
structure Moves (d : Document) (decl target : Declaration) (before : List Method) (m : Method)
    (after : List Method) (d' : Document) : Prop where
  alike : d.Alike d'
  fakes : d'.fakes = d.fakes
  loses : d'.get? decl.name = some (decl.withMethods (before ++ after))
  gains : d'.get? target.name = some (target.withMethods (target.methods ++ [m.movedTo target.name]))
  others : ∀ n, n ≠ decl.name → n ≠ target.name → d'.get? n = d.get? n
  count : d'.methods.length = d.methods.length
  shapes : d'.shapes = d.shapes

-- The method stays in its declaration and stands there once more at the end.
structure Repeats (d : Document) (decl : Declaration) (m : Method) (d' : Document) : Prop where
  alike : d.Alike d'
  fakes : d'.fakes = d.fakes
  gains : d'.get? decl.name = some (decl.withMethods (decl.methods ++ [m.movedTo decl.name]))
  others : ∀ n, n ≠ decl.name → d'.get? n = d.get? n
  count : d'.methods.length = d.methods.length + 1
  shapes : d'.shapes = d.shapes + {m.shape}

section

variable (distinct : d.Distinct) (found : d.get? decl.name = some decl)

include distinct found

theorem moves_withMoved (found' : d.get? target.name = some target)
    (split : decl.methods = before ++ m :: after) (other : decl.name ≠ target.name) :
    d.Moves decl target before m after (d.withMoved decl target before m after) := by
  let taken := decl.withMethods (before ++ after)
  let given := target.withMethods (target.methods ++ [m.movedTo target.name])
  have alike : d.Alike (d.replace taken) := alike_replace (e := taken) distinct found rfl
  have there : (d.replace taken).get? target.name = some target :=
    (get?_replace_of_ne (e := taken) other.symm).trans found'
  have shapes : ((d.replace taken).replace given).shapes = d.shapes :=
    (shapes_given (alike.distinct distinct) there _).trans (shapes_taken (m := m) distinct found split)
  refine ⟨alike.trans (alike_replace (e := given) (alike.distinct distinct) there rfl), rfl,
    get?_withMoved_source before m after found other, get?_withMoved_target before m after decl found',
    ?_, ?_, shapes⟩
  · exact fun n notSource notTarget => (get?_replace_of_ne (e := given) notTarget).trans
      (get?_replace_of_ne (e := taken) notSource)
  · rw [← card_shapes, ← card_shapes]
    exact congrArg Multiset.card shapes

theorem repeats_withMoved : d.Repeats decl m (d.withMoved decl decl before m after) := by
  let given := decl.withMethods (decl.methods ++ [m.movedTo decl.name])
  have once : d.withMoved decl decl before m after = d.replace given := replace_replace d rfl
  have shapes : (d.replace given).shapes = d.shapes + {m.shape} := shapes_given distinct found _
  rw [once]
  refine ⟨alike_replace (e := given) distinct found rfl, rfl, get?_replace (e := given) found,
    fun n other => get?_replace_of_ne (e := given) other, ?_, shapes⟩
  rw [← card_shapes, shapes, Multiset.card_add, Multiset.card_singleton, card_shapes]

-- A move is one between two declarations.
theorem moves_withMoved_iff (found' : d.get? target.name = some target)
    (split : decl.methods = before ++ m :: after) :
    d.Moves decl target before m after (d.withMoved decl target before m after) ↔
      decl.name ≠ target.name := by
  refine ⟨fun moves same => ?_, moves_withMoved distinct found found' split⟩
  obtain rfl : decl = target := Option.some.inj (found.symm.trans (same ▸ found'))
  have repeated : d.Repeats decl m (d.withMoved decl decl before m after) :=
    repeats_withMoved distinct found
  have more := repeated.count
  have kept := moves.count
  omega

end

-- The method that a fix is for: the first one in its declaration with its signature.
structure Finds (d : Document) (f : Fix) (decl : Declaration) (before : List Method) (m : Method)
    (after : List Method) : Prop where
  declared : d.get? f.declaration = some decl
  methods : decl.methods = before ++ m :: after
  signature : m.signatureKey = f.method
  unmet : ∀ m' ∈ before, m'.signatureKey ≠ f.method

theorem exists_finds {f : Fix} (declared : d.get? f.declaration = some decl)
    (met : ∃ m ∈ decl.methods, m.signatureKey = f.method) :
    ∃ before m after, d.Finds f decl before m after := by
  have first : (decl.methods.find? (·.signatureKey = f.method)).isSome := by
    simpa [List.find?_isSome] using met
  obtain ⟨m, found⟩ := Option.isSome_iff_exists.mp first
  obtain ⟨hit, before, after, methods, unmet⟩ := List.find?_eq_some_iff_append.mp found
  exact ⟨before, m, after, declared, methods, of_decide_eq_true hit, by simpa using unmet⟩

theorem Finds.first {f : Fix} (finds : d.Finds f decl before m after) :
    decl.methods.find? (·.signatureKey = f.method) = some m := by
  rw [finds.methods, List.find?_append, List.find?_eq_none.mpr (by simpa using finds.unmet)]
  simp [finds.signature]

theorem Finds.applyFix {f : Fix} (finds : d.Finds f decl before m after) (moves : f.kind.isMove)
    (found' : d.get? f.target = some target) :
    d.applyFix f = .ok (d.withMoved decl target before m after) := by
  have taken : updateFirst m.signatureKey (fun _ => none) decl.methods = before ++ after := by
    rw [finds.methods, finds.signature]
    exact updateFirst_of_unmet finds.unmet finds.signature
  simp only [Document.applyFix, finds.declared, finds.first, moves, if_true, found', moveMethod, taken]
  rfl

end Document

end HubContract
