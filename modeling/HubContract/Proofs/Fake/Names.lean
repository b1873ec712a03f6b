import HubContract.Proofs.Binding.Plain
import HubContract.Proofs.Naming.Module
import HubContract.Proofs.Pipeline.Errors

namespace HubContract

open HubContract.Text

namespace Naming

variable {name base tail : String}

-- Whether the first letter or digit of a name is a digit, only ASCII ones being such.
def opensWithDigit (name : String) : Bool :=
  (name.toList.find? fun c => isAsciiLetter c || isDigit c).any isDigit

theorem head?_stem (name : String) :
    (stem name).head? = name.toList.find? fun c => isAsciiLetter c || isDigit c := by
  have kept (c : Char) : (!decide (clean c = '_')) = (isAsciiLetter c || isDigit c) := by
    rw [Bool.eq_iff_iff, ← isAlphanumeric, ← clean_ne_underscore_iff]
    simp
  rw [stem, head?_trimWhere_eq]
  simp only [kept]

theorem isName_snakeCase_iff (name : String) :
    isName (snakeCase name).toList ↔ opensWithDigit name = false := by
  rw [snakeCase, String.toList_ofList, isName_snakeChars_iff, head?_stem, opensWithDigit]
  cases name.toList.find? fun c => isAsciiLetter c || isDigit c <;> simp

theorem snakeCase_ne_nil (name : String) : (snakeCase name).toList ≠ [] := by
  simpa using (isSnakeName_snakeCase name).filled

namespace IsBase

theorem filled (given : IsBase name base) : base.toList ≠ [] := by
  obtain rfl | ⟨k, rfl⟩ := given
  · exact snakeCase_ne_nil name
  · simp [toList_suffixed]

-- Suffixes do not change how a base begins.
theorem isName_iff (given : IsBase name base) : isName base.toList ↔ opensWithDigit name = false := by
  obtain rfl | ⟨k, rfl⟩ := given
  · exact isName_snakeCase_iff name
  · have parts : ∀ c ∈ '_' :: digits k, isIdentifierPart c := fun c inside =>
      isIdentifierPart_of_isPlain (isPlain_of_isSnake (isSnake_of_mem_suffix k c inside))
    rw [toList_suffixed, isName_append_iff (snakeCase_ne_nil name) parts, isName_snakeCase_iff]

-- In front of a tail, a base makes a name if it could be one.
theorem isIdentifier_append_iff (given : IsBase name base) (marked : '_' ∈ tail.toList)
    (parts : tail.toList.all isIdentifierPart) : isIdentifier (base ++ tail) ↔ opensWithDigit name = false := by
  have whole : '_' ∈ (base ++ tail).toList := by simp [marked]
  rw [isIdentifier, isKeyword_eq_false whole, Bool.not_false, Bool.and_true, String.toList_append,
    isName_append_iff given.filled (List.all_eq_true.mp parts), given.isName_iff]

-- Behind a lead-in, any base does.
theorem isIdentifier_lead (given : IsBase name base) (lead : String) (front : lead.toList.all Naming.isSnake)
    (marked : '_' ∈ lead.toList) (shaped : isName lead.toList) : isIdentifier (lead ++ base) := by
  have around := (isIdentifier_around lead "" front given.isSnake (by decide) marked shaped).1
  rwa [String.append_empty] at around

end IsBase

-- The base that a name of a member was made of is found again.

theorem dropLead_append (lead : String) (filled : base.toList ≠ []) : dropLead (lead ++ base) lead = base := by
  have longer : lead.length < (lead ++ base).length := by
    rw [String.length_append]
    exact Nat.lt_add_of_pos_right (by simpa [String.length_toList] using List.length_pos_iff.mpr filled)
  have leads : lead.toList.isPrefixOf (lead ++ base).toList := by simp
  rw [dropLead, leads, Bool.true_and, if_pos (decide_eq_true longer), String.toList_append, ← String.length_toList,
    List.drop_left, String.ofList_toList]

theorem dropLead_invokeName (given : IsBase name base) : dropLead (invokeName base) "invoke_" = base :=
  dropLead_append "invoke_" given.filled

theorem dropLead_slotName (given : IsBase name base) : dropLead (slotName base) "on_" = base :=
  dropLead_append "on_" given.filled

-- A name that is put together from two is one, unless it is a keyword.
theorem isIdentifier_append_iff_of_lead {lead : String} (front : lead = "" ∨ isIdentifier lead)
    (named : isIdentifier name) : isIdentifier (lead ++ name) ↔ isKeyword (lead ++ name) = false := by
  have shaped : isName (lead ++ name).toList := by
    rw [String.toList_append]
    obtain rfl | front := front
    · exact (Bool.and_eq_true_iff.mp named).1
    · exact isName_append (Bool.and_eq_true_iff.mp front).1 (Source.IsWord.of_isIdentifier named)
  rw [isIdentifier, shaped, Bool.true_and, Bool.not_eq_true']

end Naming

-- Where members in the same place agree, so do the lists.
theorem forall_mem_iff_of_forall₂ {α β : Type} {P : α → Prop} {Q : β → Prop} {as : List α} {bs : List β}
    (each : List.Forall₂ (fun a b => P a ↔ Q b) as bs) : (∀ a ∈ as, P a) ↔ ∀ b ∈ bs, Q b := by
  induction each with
  | nil => simp
  | cons first _ ih => rw [List.forall_mem_cons, List.forall_mem_cons, first, ih]

namespace ClientBinding

variable {v : Validated} {o : Options} {f : FakeBinding}

theorem isBase_of_mem_based {ws : List WalkedMethod} {k : Method} {base : String}
    (inside : (k, base) ∈ based ws) : Naming.IsBase k.name base := by
  have given : List.Forall₂ (fun (k : Method) base => Naming.IsBase k.name base) (ws.map (·.method))
      (Naming.uniqueBases (ws.map (·.method.name))) := by
    have names := Naming.forall₂_uniqueBases (ws.map (·.method.name))
    rw [List.forall₂_map_left_iff] at names ⊢
    exact names
  exact List.forall₂_zip given inside

-- The names that a fake has for an invoke method.
structure InvokeNames (w : WalkedMethod) (m : FakeInvokeMember) : Prop where
  wireName : m.wireName = w.method.name
  calls : isIdentifier m.callsAttribute ↔ Naming.opensWithDigit w.method.name = false
  behavior : isIdentifier m.behaviorAttribute ↔ Naming.opensWithDigit w.method.name = false

-- The names that it has for a push method.
structure PushNames (w : WalkedMethod) (m : FakePushMember) : Prop where
  wireName : m.wireName = w.method.name
  events : isIdentifier m.eventsAttribute ↔ Naming.opensWithDigit w.method.name = false
  simulate : isIdentifier m.simulateName
  wait : isIdentifier m.waitName

variable {w : WalkedMethod}

theorem InvokeNames.forall_iff {m : FakeInvokeMember} (names : InvokeNames w m) :
    Naming.opensWithDigit w.method.name = false ↔
      ∀ name ∈ [m.callsAttribute, m.behaviorAttribute], isIdentifier name := by
  simp [names.calls, names.behavior]

theorem PushNames.forall_iff {m : FakePushMember} (names : PushNames w m) :
    Naming.opensWithDigit w.method.name = false ↔
      ∀ name ∈ [m.eventsAttribute, m.simulateName, m.waitName], isIdentifier name := by
  simp [names.events, names.simulate, names.wait]

theorem forall₂_invokeNames (made : (synthesize v o).manifest.synthesizeFake o.fakePrefix = .ok f) :
    List.Forall₂ InvokeNames v.invoke f.invoke := by
  obtain ⟨rfl, -⟩ := Manifest.of_synthesizeFake made
  simp only [synthesize, List.map_map]
  refine forall₂_based fun w base inside => ?_
  have given := isBase_of_mem_based inside
  have found := Naming.dropLead_invokeName given
  refine ⟨rfl, ?_, ?_⟩
  all_goals
    simp only [Function.comp, Manifest.fakeInvokeMember, invokeDescriptor, invokeMember, found]
    exact given.isIdentifier_append_iff (by decide) (by decide)

theorem forall₂_pushNames (made : (synthesize v o).manifest.synthesizeFake o.fakePrefix = .ok f) :
    List.Forall₂ PushNames v.push f.push := by
  obtain ⟨rfl, -⟩ := Manifest.of_synthesizeFake made
  simp only [synthesize, List.map_map]
  refine forall₂_based fun w base inside => ?_
  have given := isBase_of_mem_based inside
  have found := Naming.dropLead_slotName given
  refine ⟨rfl, ?_, ?_, ?_⟩
  all_goals simp only [Function.comp, Manifest.fakePushMember, pushDescriptor, pushMember, found]
  · exact given.isIdentifier_append_iff (by decide) (by decide)
  · exact given.isIdentifier_lead "simulate_" (by decide) (by decide) (by decide)
  · exact given.isIdentifier_lead "wait_for_" (by decide) (by decide) (by decide)

-- The binding of a validated contract has an identifier for a name, and so is a prefix that options have, unless it
-- is empty. The class of a fake is then an identifier, unless both together are a keyword. What simulates an event
-- or waits for it always has one; a log or a behavior has one if and only if the first letter or digit in the name
-- of its method is no digit.
theorem fake_names_iff (lead : o.fakePrefix = "" ∨ isIdentifier o.fakePrefix)
    (binding : isIdentifier v.contract.bindingName)
    (made : (synthesize v o).manifest.synthesizeFake o.fakePrefix = .ok f) :
    (isIdentifier f.name ↔ isKeyword (o.fakePrefix ++ v.contract.bindingName) = false) ∧
    List.Forall₂ InvokeNames v.invoke f.invoke ∧ List.Forall₂ PushNames v.push f.push ∧
    ((∀ name ∈ f.name :: f.attributeNames, isIdentifier name) ↔
      isKeyword (o.fakePrefix ++ v.contract.bindingName) = false ∧
        ∀ w ∈ v.invoke ++ v.push, Naming.opensWithDigit w.method.name = false) := by
  have name : f.name = o.fakePrefix ++ v.contract.bindingName := by
    rw [(Manifest.of_synthesizeFake made).1]
    rfl
  have ofClass := Naming.isIdentifier_append_iff_of_lead lead binding
  rw [← name] at ofClass ⊢
  have invoke := forall₂_invokeNames made
  have push := forall₂_pushNames made
  refine ⟨ofClass, invoke, push, ?_⟩
  have calls := forall_mem_iff_of_forall₂ (invoke.imp fun _ _ names => names.forall_iff)
  have events := forall_mem_iff_of_forall₂ (push.imp fun _ _ names => names.forall_iff)
  rw [List.forall_mem_cons, ofClass, FakeBinding.attributeNames, List.forall_mem_append, List.forall_mem_append,
    List.forall_mem_flatMap, List.forall_mem_flatMap, calls, events]

-- A clock with an event and a command.
def clock (event command : String) : Contract where
  name := "IClock"
  uri := "clock"
  pushSet := some ⟨"IEvents", [{ name := event }], []⟩
  invokeSet := some ⟨"ICommands", [{ name := command }], []⟩

def clockFake (event command : String) : FakeBinding :=
  let m := (synthesize (clock event command).validated {}).manifest
  ⟨"FakeClockClient", "ClockClient", "clock_client", m.invoke.map m.fakeInvokeMember,
    m.push.map m.fakePushMember⟩

theorem fake_names_iff_struck :
    (synthesize (clock "Struck" "Wind").validated {}).manifest.synthesizeFake "Fake" =
      .ok (clockFake "Struck" "Wind") ∧
    ∀ name ∈ "FakeClockClient" :: (clockFake "Struck" "Wind").attributeNames, isIdentifier name := by
  have made : (synthesize (clock "Struck" "Wind").validated {}).manifest.synthesizeFake "Fake" =
      .ok (clockFake "Struck" "Wind") := by rfl
  obtain ⟨-, -, -, all⟩ := fake_names_iff (.inr (by decide)) (by decide +kernel) made
  exact ⟨made, all.mpr ⟨by decide +kernel, by decide +kernel⟩⟩

-- A hub with a name of one letter.
def brief : Contract where
  name := "IHub"
  uri := "hub"
  friendlyName := some "f"

-- Neither of them has an error. But the fake of the clock has logs that cannot be written as attributes, and the
-- one of the hub has a class that is called like a keyword, if the prefix is one letter too.
theorem fake_names_iff_first :
    (clock "1st" "2nd").errors = [] ∧
    (synthesize (clock "1st" "2nd").validated {}).manifest.synthesizeFake "Fake" = .ok (clockFake "1st" "2nd") ∧
    (∀ name ∈ ["2nd_calls", "2nd_behavior", "1st_events"],
      name ∈ (clockFake "1st" "2nd").attributeNames ∧ isIdentifier name = false) ∧
    brief.errors = [] ∧ isIdentifier "i" ∧
    (synthesize brief.validated { fakePrefix := "i" }).manifest.synthesizeFake "i" =
      .ok ⟨"if", "f", "f", [], []⟩ ∧
    isIdentifier "if" = false :=
  ⟨by decide +kernel, by rfl, by decide +kernel, by decide +kernel, by decide, by rfl, by decide⟩

end ClientBinding

end HubContract
