import HubContract.Proofs.Contract.Shape
import HubContract.Proofs.Text.Parted

namespace HubContract

open HubContract.Text

namespace FixKind

theorem name_injective {kind kind' : FixKind} (same : kind.name = kind'.name) : kind = kind' := by
  cases kind <;> cases kind' <;> first | rfl | simp [name] at same

theorem colon_not_mem_name (kind : FixKind) : ':' ∉ kind.name.toList := by
  cases kind <;> decide

end FixKind

namespace Fix

-- What a fix is for, as it is written in its key.
def place (f : Fix) : String := f.declaration ++ "." ++ f.method

-- Keys as they are made.
def IsKeyed (f : Fix) : Prop := f.key = f.kind.name ++ ":" ++ f.place

variable {f f' : Fix}

theorem IsKeyed.key_eq_iff (h : f.IsKeyed) (h' : f'.IsKeyed) :
    f.key = f'.key ↔ f.kind = f'.kind ∧ f.place = f'.place := by
  rw [h, h']
  constructor
  · intro same
    obtain ⟨kinds, places⟩ := parted_inj f.kind.colon_not_mem_name f'.kind.colon_not_mem_name same
    exact ⟨FixKind.name_injective kinds, places⟩
  · rintro ⟨kinds, places⟩
    rw [kinds, places]

-- Where names have no dots, a place is one declaration and one signature.
theorem eq_of_place_eq (plain : '.' ∉ f.declaration.toList) (plain' : '.' ∉ f'.declaration.toList)
    (same : f.place = f'.place) : f.declaration = f'.declaration ∧ f.method = f'.method :=
  parted_inj plain plain' same

end Fix

namespace Rule

-- The fix that moves a method from the bridge to a side.
def moveFix (w : WalkedMethod) (kind : FixKind) (target : String) : Fix :=
  Fix.of kind ("Move '" ++ w.method.name ++ "' to " ++ target) w.provenance w.method target

theorem isKeyed_moveFix (w : WalkedMethod) (kind : FixKind) (target : String) :
    (moveFix w kind target).IsKeyed := by
  simp [moveFix, Fix.of, Fix.IsKeyed, Fix.place, String.append_assoc]

theorem isKeyed_shapeFix (role : Role) (w : WalkedMethod) : (shapeFix role w).IsKeyed := by
  cases role <;> simp only [shapeFix, pushFix, invokeFix] <;> split <;>
    simp [retype, Fix.of, Fix.IsKeyed, Fix.place, String.append_assoc]

-- Only where an invoke method keeps its payload does the new type depend on the method.
theorem target_shapeFix (role : Role) (w : WalkedMethod) :
    (shapeFix role w).kind ≠ .wrapValueAsync ∧ (shapeFix role w).target = unitText ∨
      role = .invoke ∧ (shapeFix role w).kind = .wrapValueAsync ∧
        (shapeFix role w).target = ReturnType.text ⟨.valueAsync, w.method.returns.typeName⟩ := by
  cases role with
  | push =>
    left
    simp only [shapeFix, pushFix]
    split <;> simp [retype, Fix.of]
  | invoke =>
    simp only [shapeFix, invokeFix]
    split
    · exact .inr ⟨trivial, rfl, rfl⟩
    · left
      simp [retype, Fix.of]

theorem target_shapeFix_congr {role role' : Role} {w w' : WalkedMethod}
    (kinds : (shapeFix role w).kind = (shapeFix role' w').kind)
    (payloads : role = .invoke → role' = .invoke →
      w.method.returns.typeName = w'.method.returns.typeName) :
    (shapeFix role w).target = (shapeFix role' w').target := by
  obtain ⟨other, unit⟩ | ⟨invoke, wrap, text⟩ := target_shapeFix role w
  · obtain ⟨-, unit'⟩ | ⟨-, wrap', -⟩ := target_shapeFix role' w'
    · rw [unit, unit']
    · exact absurd (kinds.trans wrap') other
  · obtain ⟨other', -⟩ | ⟨invoke', -, text'⟩ := target_shapeFix role' w'
    · exact absurd (kinds.symm.trans wrap) other'
    · rw [text, text', payloads invoke invoke']

end Rule

namespace Contract

-- The fixes in the order of the errors that they are for.
def fixes (k : Contract) : List Fix := k.errors.flatMap (·.fixes)

-- The side to which a kind of fix moves methods.
def sideFor (k : Contract) : FixKind → Option MethodSet
  | .moveToPush => k.pushSet
  | .moveToInvoke => k.invokeSet
  | .dropPayload | .wrapUnitAsync | .wrapValueAsync => none

inductive Suggests (k : Contract) : Fix → Prop where
  | move (separated : k.isSeparated) (walked : w ∈ k.ownSet.walk none) (moves : kind.isMove)
      (side : k.sideFor kind = some s) : Suggests k (Rule.moveFix w kind s.name)
  | retype (played : w ∈ k.methodsOf role) (refused : role.allows w.method.returns = false) :
      Suggests k (Rule.shapeFix role w)

variable {k : Contract} {f f' : Fix} {e : Finding}

theorem exists_side_of_mem_moveTargets {target : FixKind × String} (mem : target ∈ Rule.moveTargets k) :
    ∃ kind s, FixKind.isMove kind ∧ k.sideFor kind = some s ∧ target = (kind, s.name) := by
  obtain push | invoke := List.mem_append.mp mem
  · obtain ⟨s, side, rfl⟩ := List.mem_map.mp push
    exact ⟨.moveToPush, s, rfl, Option.mem_toList.mp side, rfl⟩
  · obtain ⟨s, side, rfl⟩ := List.mem_map.mp invoke
    exact ⟨.moveToInvoke, s, rfl, Option.mem_toList.mp side, rfl⟩

theorem fixes_offence_shape (role : Role) (w : WalkedMethod) :
    (offence role.shapeCode (Rule.shapeViolation role) w).fixes = [Rule.shapeFix role w] := by
  cases role <;> rfl

-- Moves are for methods on the bridge, new return types for those of the sides.
theorem suggests_of_mem_errors (error : e ∈ k.errors) (inside : f ∈ e.fixes) :
    k.Suggests f ∧ (f.kind.isMove ↔ e.code = .methodOnBridge) := by
  by_cases shape : ∃ role : Role, e.code = role.shapeCode
  case pos =>
    obtain ⟨role, code⟩ := shape
    obtain ⟨w, played, refused, rfl⟩ := exists_of_mem_errors error code
    rw [fixes_offence_shape, List.mem_singleton] at inside
    subst inside
    refine ⟨.retype played refused, ?_⟩
    rw [Rule.isMove_shapeFix, code]
    cases role <;> simp [Role.shapeCode]
  case neg =>
    simp only [errors, markerErrors, bridgeErrors, pushErrors, invokeErrors, List.mem_append,
      List.mem_map, List.mem_ite_nil_right, List.mem_ite_nil_left, List.mem_singleton] at error
    obtain (⟨-, rfl⟩ | ⟨-, rfl⟩) | (⟨separated, w, walked, rfl⟩ | ⟨w, -, rfl⟩) | ⟨w, -, rfl⟩ := error
    case inl.inl | inl.inr => cases inside
    case inr.inl.inr => exact absurd ⟨.push, rfl⟩ shape
    case inr.inr => exact absurd ⟨.invoke, rfl⟩ shape
    case inr.inl.inl =>
      obtain ⟨target, there, rfl⟩ := List.mem_map.mp inside
      obtain ⟨kind, s, moves, side, rfl⟩ := exists_side_of_mem_moveTargets there
      exact ⟨.move separated walked moves side, iff_of_true moves rfl⟩

theorem suggests_of_mem_fixes (inside : f ∈ k.fixes) : k.Suggests f := by
  obtain ⟨e, error, inside⟩ := List.mem_flatMap.mp inside
  exact (suggests_of_mem_errors error inside).1

theorem Suggests.isKeyed (h : k.Suggests f) : f.IsKeyed := by
  cases h with
  | move => exact Rule.isKeyed_moveFix ..
  | retype => exact Rule.isKeyed_shapeFix ..

theorem Suggests.exists_of_move (h : k.Suggests f) (moves : f.kind.isMove) :
    ∃ w ∈ k.ownSet.walk none, ∃ s, k.sideFor f.kind = some s ∧ f = Rule.moveFix w f.kind s.name := by
  cases h with
  | @move w kind s separated walked moves side => exact ⟨w, walked, s, side, rfl⟩
  | @retype role w played refused => exact nomatch (Rule.isMove_shapeFix role w).symm.trans moves

theorem Suggests.exists_of_not_move (h : k.Suggests f) (retypes : f.kind.isMove = false) :
    ∃ role, ∃ w ∈ k.methodsOf role, f = Rule.shapeFix role w := by
  cases h with
  | move separated walked moves side => exact absurd moves (Bool.eq_false_iff.mp retypes)
  | retype played refused => exact ⟨_, _, played, rfl⟩

-- A method is moved to the side that its kind of fix says.
theorem Suggests.target_eq_of_move (h : k.Suggests f) (moves : f.kind.isMove) :
    (k.sideFor f.kind).map (·.name) = some f.target := by
  obtain ⟨w, -, s, side, fix⟩ := h.exists_of_move moves
  rw [side, fix]
  rfl

theorem eq_of_mem_methodsOf {role : Role} {w w' : WalkedMethod} (mem : w ∈ k.methodsOf role)
    (mem' : w' ∈ k.methodsOf role) (same : w.signatureKey = w'.signatureKey) : w = w' := by
  rw [methodsOf_eq] at mem mem'
  have first := Distinct.find?_of_mem_kept mem
  rw [same, Distinct.find?_of_mem_kept mem'] at first
  exact (Option.some.inj first).symm

-- Within one contract there is one fix of a kind for a signature.
theorem Suggests.target_eq (h : k.Suggests f) (h' : k.Suggests f') (kinds : f.kind = f'.kind)
    (methods : f.method = f'.method) : f.target = f'.target := by
  cases moves : f.kind.isMove with
  | true =>
    have side := h.target_eq_of_move moves
    rw [kinds, h'.target_eq_of_move (kinds ▸ moves)] at side
    exact (Option.some.inj side).symm
  | false =>
    obtain ⟨role, w, played, rfl⟩ := h.exists_of_not_move moves
    obtain ⟨role', w', played', rfl⟩ := h'.exists_of_not_move (kinds ▸ moves)
    rw [Rule.method_shapeFix, Rule.method_shapeFix] at methods
    refine Rule.target_shapeFix_congr kinds fun invoke invoke' => ?_
    subst invoke invoke'
    rw [eq_of_mem_methodsOf played played' methods]

end Contract

end HubContract
