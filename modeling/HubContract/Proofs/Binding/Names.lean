import HubContract.Proofs.Client.Serving
import HubContract.Proofs.Naming.Shape

namespace HubContract

open HubContract.Text

namespace Naming

variable {base : String}

theorem isIdentifier_slotName (snake : ∀ c ∈ base.toList, isSnake c) :
    isIdentifier (slotName base) ∧ ∀ c ∈ (slotName base).toList, c.toNat < 128 := by
  have name := isIdentifier_around "on_" "" (by decide) snake (by decide) (by decide) (by decide)
  rwa [String.append_empty] at name

theorem isIdentifier_invokeName (snake : ∀ c ∈ base.toList, isSnake c) :
    isIdentifier (invokeName base) ∧ ∀ c ∈ (invokeName base).toList, c.toNat < 128 := by
  have name := isIdentifier_around "invoke_" "" (by decide) snake (by decide) (by decide) (by decide)
  rwa [String.append_empty] at name

theorem isIdentifier_thunkName (snake : ∀ c ∈ base.toList, isSnake c) :
    isIdentifier (thunkName base) ∧ ∀ c ∈ (thunkName base).toList, c.toNat < 128 :=
  isIdentifier_around "_" "_handler" (by decide) snake (by decide) (by decide) (by decide)

-- Nothing that all clients have, or assign to themselves, looks like a name of a member.
theorem not_common_of_isOfMember {name : String} (member : isOfMember name) :
    name ∉ (Blueprint.clientLayer ++ Blueprint.objectLayer).map Prod.fst ∧
      name ∉ Client.ownNames := by
  have others : ∀ n ∈ (Blueprint.clientLayer ++ Blueprint.objectLayer).map Prod.fst,
      isOfMember n = false := by decide
  refine ⟨fun inside => ?_, Client.not_mem_ownNames member⟩
  rw [others name inside] at member
  cases member

end Naming

namespace ClientBinding

-- Whatever the methods of a contract are called, each push method has a slot and a thunk and each invoke
-- method a wrapper. Their names are all distinct, usable as names and written in ASCII, and none of them
-- is one that all clients have.
theorem names_of_members (v : Validated) (o : Options) :
    let b := synthesize v o
    let names := b.push.map (·.slotName) ++ b.invoke.map (·.methodName) ++ b.push.map (·.thunkName)
    b.push.length = v.push.length ∧ b.invoke.length = v.invoke.length ∧ names.Nodup ∧
    ∀ name ∈ names, isIdentifier name ∧ (∀ c ∈ name.toList, c.toNat < 128) ∧
      name ∉ (Blueprint.clientLayer ++ Blueprint.objectLayer).map Prod.fst ∧
      name ∉ Client.ownNames := by
  intro b names
  have attributes : names = b.manifest.attributes := by
    simp [names, b, synthesize, Manifest.attributes, pushDescriptor, invokeDescriptor, Function.comp_def]
  rw [attributes]
  refine ⟨by simp [b, synthesize, based], by simp [b, synthesize, based],
    nodup_attributes_synthesize v o, fun name inside => ?_⟩
  have common := Naming.not_common_of_isOfMember (isOfMember_of_mem_attributes v o inside)
  suffices shaped : isIdentifier name ∧ ∀ c ∈ name.toList, c.toNat < 128 from
    ⟨shaped.1, shaped.2, common⟩
  rw [attributes_synthesize, List.append_assoc] at inside
  obtain slot | rest := List.mem_append.mp inside
  · obtain ⟨base, given, rfl⟩ := List.mem_map.mp slot
    exact Naming.isIdentifier_slotName fun c => Naming.isSnake_of_mem_uniqueBases given
  · obtain wrapper | thunk := List.mem_append.mp rest
    · obtain ⟨base, given, rfl⟩ := List.mem_map.mp wrapper
      exact Naming.isIdentifier_invokeName fun c => Naming.isSnake_of_mem_uniqueBases given
    · obtain ⟨base, given, rfl⟩ := List.mem_map.mp thunk
      exact Naming.isIdentifier_thunkName fun c => Naming.isSnake_of_mem_uniqueBases given

end ClientBinding

end HubContract
