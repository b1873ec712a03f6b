import HubContract.Proofs.Contract.Sides
import HubContract.Proofs.Signature

namespace HubContract

open HubContract.Text

namespace Role

-- The code under which return types are reported.
def shapeCode : Role → Code
  | .push => .pushReturnShape
  | .invoke => .invokeReturnShape

def allows : Role → ReturnType → Bool
  | .push, r => r.kind = .unitAsync
  | .invoke, r => r.isAsync

-- The return type that takes the place of one that is not allowed.
def fitted : Role → ReturnType → ReturnType
  | .invoke, ⟨.value, some t⟩ => .valueAsync t
  | _, _ => .unitAsync

theorem allows_fitted (role : Role) (r : ReturnType) : role.allows (role.fitted r) := by
  unfold fitted
  split
  · rfl
  · cases role <;> rfl

theorem shapeCode_injective {role role' : Role} (same : role.shapeCode = role'.shapeCode) :
    role = role' := by
  cases role <;> cases role' <;> first | rfl | cases same

end Role

namespace ReturnType

-- A payload that is written as it is read can be put into a wrapper.
theorem isWritten_valueAsync_of_value {t : String} (written : IsWritten ⟨.value, some t⟩) :
    (valueAsync t).IsWritten := by
  have read : ofChars (text ⟨.value, some t⟩).toList = ⟨.value, some t⟩ := written
  unfold ofChars at read
  dsimp only at read
  split at read
  · cases read
  rename_i something
  split at read
  · split at read <;> cases read
  -- what is read is the payload itself
  have same := Option.some.inj (congrArg typeName read)
  have trimmed : trimChars (text ⟨.value, some t⟩).toList = t.toList := by
    simpa using congrArg String.toList same
  rw [trimmed] at something
  have payload : (valueAsync (String.ofList t.toList)).IsWritten :=
    isWritten_valueAsync (by simpa using something) (by rw [← trimmed]; exact trimWhere_trimWhere)
  simpa using payload

end ReturnType

namespace Rule

def shapeFix : Role → WalkedMethod → Fix
  | .push => pushFix
  | .invoke => invokeFix

def shapeViolation : Role → WalkedMethod → Violation
  | .push => pushViolation
  | .invoke => invokeViolation

variable (role : Role) (w : WalkedMethod)

theorem declaration_shapeFix : (shapeFix role w).declaration = w.provenance := by
  cases role <;> simp only [shapeFix, pushFix, invokeFix] <;> split <;> rfl

theorem method_shapeFix : (shapeFix role w).method = w.signatureKey := by
  cases role <;> simp only [shapeFix, pushFix, invokeFix] <;> split <;> rfl

theorem isMove_shapeFix : (shapeFix role w).kind.isMove = false := by
  cases role <;> simp only [shapeFix, pushFix, invokeFix] <;> split <;> rfl

theorem parse_target_shapeFix {role : Role} {w : WalkedMethod}
    (written : w.method.returns.IsWritten) (refused : role.allows w.method.returns = false) :
    .parse (shapeFix role w).target = role.fitted w.method.returns := by
  have unit : .parse unitText = ReturnType.unitAsync := ReturnType.isWritten_unitAsync
  cases role with
  | push =>
    have target : (shapeFix .push w).target = unitText := by
      simp only [shapeFix, pushFix]
      split <;> rfl
    rw [target]
    exact unit
  | invoke =>
    simp only [shapeFix, invokeFix]
    obtain ⟨⟨name, parameters, ⟨kind, typeName⟩, owner, invoke⟩, role, provenance⟩ := w
    cases kind with
    | unitAsync | valueAsync => cases refused
    | void => exact unit
    | value =>
      cases typeName with
      | none =>
        -- what is written for a value without a type reads as no value
        nomatch written.symm.trans ReturnType.isWritten_void
      | some t => exact ReturnType.isWritten_valueAsync_of_value written

end Rule

namespace Contract

variable {k : Contract} {role : Role} {f : Finding}

-- A report about a return type comes from a method of the side that it is about.
theorem exists_of_mem_errors (mem : f ∈ k.errors) (code : f.code = role.shapeCode) :
    ∃ w ∈ k.methodsOf role, role.allows w.method.returns = false ∧
      f = offence role.shapeCode (Rule.shapeViolation role) w := by
  simp only [errors, markerErrors, bridgeErrors, pushErrors, invokeErrors, List.mem_append,
    List.mem_map, List.mem_ite_nil_right, List.mem_ite_nil_left, List.mem_singleton] at mem
  rcases mem with (⟨-, rfl⟩ | ⟨-, rfl⟩) | (⟨-, w, -, rfl⟩ | ⟨w, inside, rfl⟩) | ⟨w, inside, rfl⟩
  case inl.inl | inl.inr | inr.inl.inl => cases role <;> cases code
  case inr.inl.inr =>
    obtain rfl : .push = role := Role.shapeCode_injective code
    obtain ⟨inside, refused⟩ := List.mem_filter.mp inside
    exact ⟨w, inside, by simpa [Role.allows] using refused, rfl⟩
  case inr.inr =>
    obtain rfl : .invoke = role := Role.shapeCode_injective code
    obtain ⟨inside, refused⟩ := List.mem_filter.mp inside
    exact ⟨w, inside, by simpa [Role.allows] using refused, rfl⟩

end Contract

end HubContract
