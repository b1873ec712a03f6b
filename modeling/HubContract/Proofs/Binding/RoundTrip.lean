import HubContract.Binding.Origin
import HubContract.Proofs.Contract.RoundTrip

namespace HubContract

open HubContract.Data

theorem Parameter.nesting_toJson_le (p : Parameter) : p.toJson.nesting ≤ 1 :=
  Json.nesting_object_le (by simp)

theorem MemberDescriptor.restores (d : MemberDescriptor) : Restores check toJson d := by
  have role := d.role.restores
  have handler := Restores.optionalString d.handler
  have parameters := Parameter.restores_list d.parameters
  have result := Restores.optionalString d.resultType
  exact ⟨by simp [toJson, handler.plain, parameters.plain, result.plain],
    by simp [check, toJson, role.back, handler.back, parameters.back, result.back]⟩

theorem MemberDescriptor.nesting_toJson_le (d : MemberDescriptor) : d.toJson.nesting ≤ 3 := by
  have text (o : Option String) : (Json.ofOption .str o).nesting ≤ 2 :=
    Json.nesting_ofOption_le o fun _ => Nat.zero_le 2
  have parameters := Json.nesting_ofList_le d.parameters Parameter.nesting_toJson_le
  exact Json.nesting_object_le (by simp [text, parameters])

theorem Manifest.restores (m : Manifest) : Restores check toJson m := by
  have members (ds : List MemberDescriptor) :
      Restores (checkList MemberDescriptor.check) (.ofList MemberDescriptor.toJson) ds :=
    .list fun d _ => d.restores
  exact ⟨by simp [toJson, (members m.push).plain, (members m.invoke).plain],
    by simp [check, toJson, (members m.push).back, (members m.invoke).back]⟩

theorem Manifest.nesting_toJson_le (m : Manifest) : m.toJson.nesting ≤ 5 := by
  have push := Json.nesting_ofList_le m.push MemberDescriptor.nesting_toJson_le
  have invoke := Json.nesting_ofList_le m.invoke MemberDescriptor.nesting_toJson_le
  exact Json.nesting_object_le (by simp [push, invoke])

-- The text of a manifest is read back, with any indent.
theorem Manifest.parse?_render (m : Manifest) (indent : Option Nat) :
    Json.parse? (m.toJson.render indent) Json.maxNesting = some m.toJson := by
  obtain ⟨finite, short⟩ := Json.isPlain_iff.mp m.restores.plain
  have deep : m.toJson.nesting ≤ Json.maxNesting := Nat.le_trans m.nesting_toJson_le (by decide)
  rw [Json.parse?_render finite, if_pos ⟨short, deep⟩]

theorem Manifest.checkText_render (m : Manifest) (indent : Option Nat) :
    checkText (m.toJson.render indent) = .ok m := by
  rw [checkText, m.parse?_render]
  exact m.restores.back

theorem ManifestOrigin.load_render (m : Manifest) (indent : Option Nat) :
    load (.data (.str (m.toJson.render indent))) = .ok m := by
  rw [load, m.checkText_render, ofCheck]

theorem PushMember.restores (m : PushMember) : Restores check toJson m := by
  have parameters := Parameter.restores_list m.parameters
  exact ⟨by simp [toJson, parameters.plain], by simp [check, toJson, parameters.back]⟩

theorem InvokeMember.restores (m : InvokeMember) : Restores check toJson m := by
  have parameters := Parameter.restores_list m.parameters
  have result := Restores.optionalString m.resultType
  exact ⟨by simp [toJson, parameters.plain, result.plain],
    by simp [check, toJson, parameters.back, result.back]⟩

theorem Registration.restores (r : Registration) : Restores check toJson r :=
  ⟨by simp [toJson], by simp [check, toJson]⟩

theorem ClientBinding.restores (b : ClientBinding) : Restores check toJson b := by
  have push : Restores (checkList PushMember.check) (.ofList PushMember.toJson) b.push :=
    .list fun m _ => m.restores
  have invoke : Restores (checkList InvokeMember.check) (.ofList InvokeMember.toJson) b.invoke :=
    .list fun m _ => m.restores
  have registrations : Restores (checkList Registration.check) (.ofList Registration.toJson)
      b.registrations := .list fun r _ => r.restores
  have manifest := b.manifest.restores
  exact ⟨by simp [toJson, push.plain, invoke.plain, registrations.plain, manifest.plain],
    by simp [check, toJson, push.back, invoke.back, registrations.back, manifest.back]⟩

theorem RegistrationEntry.restores (e : RegistrationEntry) : Restores check toJson e :=
  ⟨by simp [toJson], by simp [check, toJson]⟩

theorem FakeInvokeMember.restores (m : FakeInvokeMember) : Restores check toJson m := by
  have parameters := Parameter.restores_list m.parameters
  exact ⟨by simp [toJson, parameters.plain], by simp [check, toJson, parameters.back]⟩

theorem FakeInvokeMember.nesting_toJson_le (m : FakeInvokeMember) : m.toJson.nesting ≤ 3 := by
  have parameters := Json.nesting_ofList_le m.parameters Parameter.nesting_toJson_le
  exact Json.nesting_object_le (by simp [parameters])

theorem FakePushMember.restores (m : FakePushMember) : Restores check toJson m := by
  have parameters := Parameter.restores_list m.parameters
  exact ⟨by simp [toJson, parameters.plain], by simp [check, toJson, parameters.back]⟩

theorem FakePushMember.nesting_toJson_le (m : FakePushMember) : m.toJson.nesting ≤ 3 := by
  have parameters := Json.nesting_ofList_le m.parameters Parameter.nesting_toJson_le
  exact Json.nesting_object_le (by simp [parameters])

theorem FakeBinding.restores (f : FakeBinding) : Restores check toJson f := by
  have invoke : Restores (checkList FakeInvokeMember.check) (.ofList FakeInvokeMember.toJson)
      f.invoke := .list fun m _ => m.restores
  have push : Restores (checkList FakePushMember.check) (.ofList FakePushMember.toJson) f.push :=
    .list fun m _ => m.restores
  exact ⟨by simp [toJson, invoke.plain, push.plain], by simp [check, toJson, invoke.back, push.back]⟩

theorem FakeBinding.nesting_toJson_le (f : FakeBinding) : f.toJson.nesting ≤ 5 := by
  have invoke := Json.nesting_ofList_le f.invoke FakeInvokeMember.nesting_toJson_le
  have push := Json.nesting_ofList_le f.push FakePushMember.nesting_toJson_le
  exact Json.nesting_object_le (by simp [invoke, push])

-- The same of a fake.
theorem FakeBinding.parse?_render (f : FakeBinding) (indent : Option Nat) :
    Json.parse? (f.toJson.render indent) Json.maxNesting = some f.toJson := by
  obtain ⟨finite, short⟩ := Json.isPlain_iff.mp f.restores.plain
  have deep : f.toJson.nesting ≤ Json.maxNesting := Nat.le_trans f.nesting_toJson_le (by decide)
  rw [Json.parse?_render finite, if_pos ⟨short, deep⟩]

end HubContract
