import HubContract.Proofs.Binding.Payload
import HubContract.Proofs.Reconnect
import HubContract.Proofs.Source.Import

namespace HubContract

open HubContract.Text HubContract.Source

namespace Source

variable {s t : String}

theorem isWord_append : IsWord (s ++ t) ↔ IsWord s ∧ IsWord t := by
  simp only [IsWord, String.toList_append, List.forall_mem_append]

theorem isIdentifierPart_of_isIdentifierStart {c : Char} (start : isIdentifierStart c) :
    isIdentifierPart c := by
  rw [isIdentifierStart] at start
  rw [isIdentifierPart]
  split
  · rename_i ascii
    rw [if_pos ascii] at start
    simp only [decide_eq_true_eq] at start ⊢
    exact start.imp_right .inl
  · rename_i other
    rw [if_neg other] at start
    rw [start, Bool.true_or]

theorem IsWord.of_isIdentifier (name : isIdentifier s) : IsWord s := by
  have shaped : isName s.toList := by
    rw [isIdentifier, Bool.and_eq_true] at name
    exact name.1
  unfold IsWord
  cases chars : s.toList with
  | nil => exact List.forall_mem_nil _
  | cons c cs =>
    rw [chars, isName, Bool.and_eq_true, List.all_eq_true] at shaped
    exact List.forall_mem_cons.mpr ⟨isIdentifierPart_of_isIdentifierStart shaped.1, shaped.2⟩

theorem IsWord.of_isPlain (plain : ∀ c ∈ s.toList, Naming.isPlain c) : IsWord s := fun c inside =>
  Naming.isIdentifierPart_of_isPlain (plain c inside)

theorem IsWord.of_isSnake (snake : ∀ c ∈ s.toList, Naming.isSnake c) : IsWord s :=
  .of_isPlain fun c inside => Naming.isPlain_of_isSnake (snake c inside)

theorem isWord_snakeCase (name : String) : IsWord (Naming.snakeCase name) :=
  .of_isSnake fun _ => Naming.isSnake_of_mem_snakeCase

theorem isWord_natural (n : Nat) : IsWord (natural n) :=
  .of_isPlain fun c inside => by
    rw [natural, String.toList_ofList] at inside
    simp [Naming.isPlain, isDigit_of_mem_digits inside]

theorem isWord_suffixed (word : IsWord s) (k : Nat) : IsWord (Naming.suffixed s k) :=
  isWord_append.mpr ⟨isWord_append.mpr ⟨word, by decide⟩, isWord_natural k⟩

theorem IsWord.dropLead (word : IsWord s) (lead : String) : IsWord (Naming.dropLead s lead) := by
  unfold Naming.dropLead
  split
  · intro c inside
    rw [String.toList_ofList] at inside
    exact word c (List.drop_subset _ _ inside)
  · exact word

end Source

-- Parameters that carry payload have names.
theorem isWord_of_mem_payloadParameters {ct : String} {ps : List Parameter} {p : Parameter}
    (inside : p ∈ payloadParameters ps ct) : IsWord p.name :=
  .of_isPlain (isParameterName_of_mem ct ps inside).plain

namespace Options

-- Names that options give are names.
structure IsPlain (o : Options) : Prop where
  function : isIdentifier o.registrationFunction
  builder : isIdentifier o.registrationBuilder
  lead : o.fakePrefix = "" ∨ isIdentifier o.fakePrefix
  cancellation : isIdentifier o.cancellationType

theorem isIdentifier_of_checkIdentifier {d : Data} (read : checkIdentifier d = .ok s) : isIdentifier s := by
  obtain ⟨t, -, checked⟩ := Check.bind_eq_ok_iff.mp read
  split at checked
  · rename_i name
    exact Check.ok.inj checked ▸ name
  · cases checked

theorem of_checkLead {d : Data} (read : checkLead d = .ok s) : s = "" ∨ isIdentifier s := by
  obtain ⟨t, -, checked⟩ := Check.bind_eq_ok_iff.mp read
  split at checked
  · rename_i lead
    exact Check.ok.inj checked ▸ lead
  · cases checked

theorem isPlain_of_ofData {d : Data} {o : Options} (read : ofData d = .ok o) : o.IsPlain := by
  obtain ⟨entries, checked⟩ := exists_check_of_ofData read
  obtain ⟨es, checked⟩ := Data.exists_of_checkRecord checked
  simp only [Check.seq_eq_ok_iff, Check.map_eq_ok_iff] at checked
  -- the names are the third to the sixth of seven fields
  obtain ⟨_, _, ⟨_, _, ⟨_, _, ⟨_, _, ⟨_, _, ⟨_, _, ⟨_, -, rfl⟩, -, rfl⟩, function, rfl⟩, builder, rfl⟩,
    lead, rfl⟩, cancellation, rfl⟩, -, rfl⟩ := checked
  have identifier {name : String} {absent s : String} {d : Data} (default : isIdentifier absent)
      (field : d.fieldOr name absent checkIdentifier = .ok s) : isIdentifier s :=
    Data.of_fieldOr (P := fun s => isIdentifier s) (fun _ _ => isIdentifier_of_checkIdentifier) default field
  exact ⟨identifier (by decide) function, identifier (by decide +kernel) builder,
    Data.of_fieldOr (P := fun lead => lead = "" ∨ isIdentifier lead) (fun _ _ => of_checkLead)
      (by decide) lead,
    identifier (by decide) cancellation⟩

end Options

namespace RegistrationHelper

theorem isWord_methodName (used : List String) (binding : String) : IsWord (methodName used binding) := by
  have base : IsWord (Naming.builderMethodName binding) :=
    isWord_append.mpr ⟨by decide, isWord_snakeCase binding⟩
  unfold methodName
  dsimp only
  split
  · exact isWord_suffixed base _
  · exact base

-- Every entry is one of a binding.
theorem of_mem_entriesFrom {used : List String} {bindings : List ClientBinding} {e : RegistrationEntry}
    (inside : e ∈ entriesFrom used bindings) : ∃ b ∈ bindings,
      e.bindingName = b.name ∧ e.bindingModule = b.moduleName ∧ IsWord e.methodName := by
  induction bindings generalizing used with
  | nil => cases inside
  | cons b bindings ih =>
    obtain rfl | later := List.mem_cons.mp inside
    · exact ⟨b, List.mem_cons_self, rfl, rfl, isWord_methodName used b.name⟩
    · obtain ⟨b', there, entry⟩ := ih later
      exact ⟨b', List.mem_cons_of_mem _ there, entry⟩

theorem isPlain_synthesize {bindings : List ClientBinding} {o : Options} (plain : o.IsPlain)
    (bound : ∀ b ∈ bindings, IsWord b.name ∧ IsWord b.moduleName) : (synthesize bindings o).IsPlain where
  builder := .of_isIdentifier plain.builder
  function := .of_isIdentifier plain.function
  modules e inside := by
    obtain ⟨b, there, -, module, -⟩ := of_mem_entriesFrom inside
    exact module ▸ (bound b there).2
  names e inside := by
    obtain ⟨b, there, name, -, -⟩ := of_mem_entriesFrom inside
    exact name ▸ (bound b there).1
  methods e inside := by
    obtain ⟨b, -, -, -, method⟩ := of_mem_entriesFrom inside
    exact method

end RegistrationHelper

namespace ClientBinding

variable {v : Validated} {o : Options} {f : FakeBinding}

theorem isWord_of_mem_attributes {name : String} (inside : name ∈ (synthesize v o).manifest.attributes) :
    IsWord name := by
  have word {names : List String} {base : String} (given : base ∈ Naming.uniqueBases names) : IsWord base :=
    .of_isSnake fun c => Naming.isSnake_of_mem_uniqueBases given
  rw [attributes_synthesize, List.mem_append, List.mem_append, List.mem_map, List.mem_map,
    List.mem_map] at inside
  obtain (⟨base, given, rfl⟩ | ⟨base, given, rfl⟩) | ⟨base, given, rfl⟩ := inside
  · exact isWord_append.mpr ⟨by decide, word given⟩
  · exact isWord_append.mpr ⟨by decide, word given⟩
  · exact isWord_append.mpr ⟨isWord_append.mpr ⟨by decide, word given⟩, by decide⟩

-- What is recorded of a member are parameters that carry payload.
theorem isWord_of_mem_recordedParameters {d : MemberDescriptor} {p : Parameter}
    (inside : d ∈ (synthesize v o).manifest.push ++ (synthesize v o).manifest.invoke)
    (listed : p ∈ (synthesize v o).manifest.recordedParameters d) : IsWord p.name := by
  obtain push | invoke := List.mem_append.mp inside
  · obtain ⟨m, there, rfl⟩ := List.mem_map.mp push
    obtain ⟨k, base, rfl⟩ := exists_of_mem_push there
    have listed : p ∈ withoutCancellation o.cancellationType _ := listed
    rw [payload_pushDescriptor] at listed
    exact isWord_of_mem_payloadParameters listed
  · obtain ⟨m, there, rfl⟩ := List.mem_map.mp invoke
    obtain ⟨k, base, rfl⟩ := exists_of_mem_invoke there
    have listed : p ∈ withoutCancellation o.cancellationType _ := listed
    rw [payload_invokeDescriptor] at listed
    exact isWord_of_mem_payloadParameters listed

theorem isOneLine_literal (v : EmptyValue) : IsOneLine v.literal := by
  cases v <;> decide

-- A fake has plain names however the methods of the contract are called.
theorem isPlain_of_synthesizeFake (plain : o.IsPlain) (name : isIdentifier v.contract.bindingName)
    (made : (synthesize v o).manifest.synthesizeFake o.fakePrefix = .ok f) : f.IsPlain := by
  obtain ⟨rfl, -⟩ := Manifest.of_synthesizeFake made
  have lead : IsWord o.fakePrefix := by
    obtain empty | name := plain.lead
    · rw [empty]
      decide
    · exact .of_isIdentifier name
  have member {d : MemberDescriptor}
      (inside : d ∈ (synthesize v o).manifest.push ++ (synthesize v o).manifest.invoke) :
      IsWord d.attributeName :=
    isWord_of_mem_attributes (List.mem_append_left _ (List.mem_map_of_mem inside))
  have push {d : MemberDescriptor} (inside : d ∈ (synthesize v o).manifest.push) :=
    List.mem_append_left (synthesize v o).manifest.invoke inside
  have invoke {d : MemberDescriptor} (inside : d ∈ (synthesize v o).manifest.invoke) :=
    List.mem_append_right (synthesize v o).manifest.push inside
  refine ⟨isWord_append.mpr ⟨lead, .of_isIdentifier name⟩, .of_isIdentifier name, isWord_snakeCase _,
    List.forall_mem_map.mpr fun d inside => ⟨member (invoke inside), fun p listed => ?_, isOneLine_literal _⟩,
    List.forall_mem_map.mpr fun d inside => ⟨?_, ?_, fun p listed => ?_⟩⟩
  · exact isWord_of_mem_recordedParameters (invoke inside) listed
  · exact isWord_append.mpr ⟨by decide, (member (push inside)).dropLead "on_"⟩
  · exact isWord_append.mpr ⟨by decide, (member (push inside)).dropLead "on_"⟩
  · exact isWord_of_mem_recordedParameters (push inside) listed

end ClientBinding

end HubContract
