import HubContract.Proofs.Contract.Shape
import Mathlib.Data.List.Forall2

namespace HubContract

namespace ReturnType

-- The return types that texts denote.
def IsDenoted (r : ReturnType) : Prop := ∃ t, parse t = r

variable {r : ReturnType}

-- They are all that are in normal form, each by its own text.
theorem isDenoted_iff_isNormal : r.IsDenoted ↔ r.IsNormal := by
  constructor
  · rintro ⟨t, rfl⟩
    exact isNormal_parse t
  · exact fun normal => ⟨r.text, normal.isWritten⟩

theorem IsDenoted.isWritten (denoted : r.IsDenoted) : r.IsWritten :=
  (isDenoted_iff_isNormal.mp denoted).isWritten

-- Without a wrapper there is a payload, or the type is that of no result.
theorem IsDenoted.of_not_isAsync (denoted : r.IsDenoted) (plain : r.isAsync = false) :
    r = ⟨.void, none⟩ ∨ ∃ payload, r = ⟨.value, some payload⟩ := by
  cases isDenoted_iff_isNormal.mp denoted with
  | void => exact .inl rfl
  | unitAsync | valueAsync => cases plain
  | value => exact .inr ⟨_, rfl⟩

end ReturnType

-- The methods of a side that a rule looks at.
def Subject.side (s : Subject) : Role → List WalkedMethod
  | .push => s.push
  | .invoke => s.invoke

namespace Rule

-- The rule about the return types of a side.
def shape : Role → Rule
  | .push => pushReturnsUnit
  | .invoke => invokeIsAsync

-- A report with one fix, which is for the method and gives it a return type.
structure Retypes (w : WalkedMethod) (v : Violation) (f : Fix) : Prop where
  only : v.fixes = [f]
  declaration : f.declaration = w.provenance
  method : f.method = w.signatureKey
  stays : f.kind.isMove = false

-- The rule of a side reports the methods whose return type the side does not allow, in their order.
theorem check_shape (role : Role) (s : Subject) : (shape role).check s =
    ((s.side role).filter fun w => !role.allows w.method.returns).map (shapeViolation role) := by
  cases role with
  | push => simp [shape, pushReturnsUnit, shapeViolation, Subject.side, Role.allows]
  | invoke => rfl

theorem retypes_shapeFix (role : Role) (w : WalkedMethod) :
    Retypes w (shapeViolation role w) (shapeFix role w) where
  only := by cases role <;> rfl
  declaration := declaration_shapeFix role w
  method := method_shapeFix role w
  stays := isMove_shapeFix role w

-- Every report of the rule has its fix, of which `P` holds if it does of the suggested one.
theorem forall₂_check_shape (role : Role) (s : Subject) {P : WalkedMethod → Fix → Prop}
    (suggested : ∀ w, role.allows w.method.returns = false → P w (shapeFix role w)) :
    List.Forall₂ (fun w v => ∃ f, Retypes w v f ∧ P w f)
      ((s.side role).filter fun w => !role.allows w.method.returns) ((shape role).check s) := by
  rw [check_shape, List.forall₂_map_right_iff, List.forall₂_same]
  intro w mem
  have refused : role.allows w.method.returns = false := by simpa using (List.mem_filter.mp mem).2
  exact ⟨shapeFix role w, retypes_shapeFix role w, suggested w refused⟩

-- A return type that was read is read back from its text. The rule of the push side reports the methods
-- that do not return what awaits nothing, and each fix says that; the rule of the invoke side reports
-- those that are not asynchronous, and each fix keeps the payload, if there is one.
theorem types_read_back :
    (∀ t, ReturnType.parse (ReturnType.parse t).text = ReturnType.parse t) ∧
    ∀ s : Subject,
      List.Forall₂
        (fun w v => ∃ f, Retypes w v f ∧
          (w.method.returns.IsDenoted → ReturnType.parse f.target = .unitAsync))
        (s.push.filter (·.method.returns.kind ≠ .unitAsync)) (pushReturnsUnit.check s) ∧
      List.Forall₂
        (fun w v => ∃ f, Retypes w v f ∧
          (w.method.returns.IsDenoted →
            (w.method.returns = ⟨.void, none⟩ ∧ ReturnType.parse f.target = .unitAsync) ∨
            ∃ payload, w.method.returns = ⟨.value, some payload⟩ ∧
              ReturnType.parse f.target = .valueAsync payload))
        (s.invoke.filter (!·.method.returns.isAsync)) (invokeIsAsync.check s) := by
  refine ⟨ReturnType.isWritten_parse, fun s => ⟨?_, ?_⟩⟩
  · have reported := forall₂_check_shape .push s
      (P := fun w f => w.method.returns.IsDenoted → ReturnType.parse f.target = .unitAsync)
      fun w refused denoted => parse_target_shapeFix denoted.isWritten refused
    simpa [shape, Subject.side, Role.allows] using reported
  · refine forall₂_check_shape .invoke s fun w refused denoted => ?_
    have target : ReturnType.parse (shapeFix .invoke w).target = Role.invoke.fitted w.method.returns :=
      parse_target_shapeFix denoted.isWritten refused
    obtain nothing | ⟨payload, value⟩ := denoted.of_not_isAsync refused
    · exact .inl ⟨nothing, by rw [target, nothing]; rfl⟩
    · exact .inr ⟨payload, value, by rw [target, value]; rfl⟩

end Rule

end HubContract
