import HubContract.Proofs.Fake.Recording

namespace HubContract

namespace FakeClass

variable {c : FakeClass} {cls : ClientClass} {f : FakeBinding} {name : String} {a : Attribute}

-- The machinery is what all fakes define besides what any class has, and what they assign.
theorem mem_machinery_iff : name ∈ machinery ↔
    name ∈ Blueprint.fakeLayer.map Prod.fst ∧ name ∉ Blueprint.classEntries.map Prod.fst ∨
      name ∈ Fake.ownNames := by
  have same : machinery.Perm ((Blueprint.fakeLayer.map Prod.fst).filter
      (· ∉ Blueprint.classEntries.map Prod.fst) ++ Fake.ownNames) := by decide
  rw [same.mem_iff, List.mem_append, List.mem_filter, decide_eq_true_iff]

-- What a fake has whatever its members are: what its class says about itself, in front of what all fakes have.
def ownLayer (f : FakeBinding) : Table Attribute := headEntries f ++ Blueprint.fakeLayer

-- None of that looks like what a fake makes for its members.

theorem isOfFake_of_machinery (inside : name ∈ machinery) : Naming.isOfFake name = false := by
  have none : ∀ n ∈ machinery, Naming.isOfFake n = false := by decide
  exact none name inside

theorem isOfFake_of_ownLayer (inside : (name, a) ∈ ownLayer f) : Naming.isOfFake name = false := by
  have none : ∀ n ∈ Blueprint.fakeLayer.map Prod.fst, Naming.isOfFake n = false := by decide
  obtain head | layer := List.mem_append.mp inside
  · exact not_isOfFake_of_head (mem_headNames_of_mem head)
  · exact none name (List.mem_map_of_mem (f := Prod.fst) layer)

theorem ne_answer_of_ownLayer (inside : (name, a) ∈ ownLayer f) (m : FakeInvokeMember) :
    a ≠ .routine (.answer m) := by
  rintro rfl
  simp [ownLayer, headEntries, Blueprint.fakeLayer, Blueprint.classEntries] at inside

-- The class has what a wrapper, a simulation or a wait put under a name, and else what it says about itself.
theorem get?_members (stands : ofFake cls f = .ok c) (unpushed : name ∉ (f.push.flatMap pushEntries).map Prod.fst) :
    c.members.get? name =
      (Table.get? (f.invoke.map invokeEntry).reverse name).or (Table.get? (headEntries f) name) := by
  obtain rfl := eq_of_ofFake stands
  have absent : Table.get? (f.push.flatMap pushEntries).reverse name = none := by
    rw [Table.get?_eq_none_iff, List.map_reverse, List.mem_reverse]
    exact unpushed
  have once : ((headEntries f).map Prod.fst).Nodup := (by decide : headNames.Nodup)
  rw [Table.get?_setAll, entries, List.reverse_append, List.reverse_append, Table.get?_append, absent,
    Table.get?_append, Table.get?_reverse once, Table.get?_nil, Option.none_or, Option.or_none]

-- What a fake has by itself is what its class has, unless a wrapper is called like it.
theorem find?_ownLayer_iff (stands : ofFake cls f = .ok c) (own : (ownLayer f).get? name = some a)
    (unpushed : name ∉ (f.push.flatMap pushEntries).map Prod.fst) :
    c.blueprint.find? name = some a ↔ name ∉ f.invoke.map (·.methodName) := by
  have names : (f.invoke.map invokeEntry).reverse.map Prod.fst = (f.invoke.map (·.methodName)).reverse := by
    simp [invokeEntry, Function.comp_def]
  rw [find?_eq, get?_members stands unpushed]
  cases wrapper : Table.get? (f.invoke.map invokeEntry).reverse name with
  | none =>
    rw [Table.get?_eq_none_iff, names, List.mem_reverse] at wrapper
    refine iff_of_true ?_ wrapper
    rw [ownLayer, Table.get?_append] at own
    rw [Option.none_or, ← Option.or_assoc, own, Option.some_or]
  | some b =>
    obtain ⟨m, member, same⟩ := List.mem_map.mp (List.mem_reverse.mp (Table.mem_of_get? wrapper))
    obtain ⟨rfl, rfl⟩ := Prod.mk.inj same
    refine iff_of_false (fun found => ?_) (not_not.mpr (List.mem_map_of_mem (f := (·.methodName)) member))
    exact ne_answer_of_ownLayer (Table.mem_of_get? own) m (Option.some.inj found).symm

end FakeClass

namespace Manifest

open FakeClass

variable {m : Manifest} {lead name : String} {f : FakeBinding} {a : Attribute}

-- What the fake adds is apart from the machinery, and so from what it has by itself.

theorem not_mem_machinery (made : m.synthesizeFake lead = .ok f) (added : name ∈ f.attributeNames) :
    name ∉ machinery := fun inside => by
  have fake := isOfFake_of_mem_attributeNames made added
  rw [isOfFake_of_machinery inside] at fake
  cases fake

theorem not_mem_pushEntries (made : m.synthesizeFake lead = .ok f) (own : (ownLayer f).get? name = some a) :
    name ∉ (f.push.flatMap pushEntries).map Prod.fst := fun pushed => by
  have added : name ∈ f.attributeNames := by
    simp only [pushEntries, List.map_flatMap, List.map_cons, List.map_nil, List.mem_flatMap] at pushed
    obtain ⟨p, member, named⟩ := pushed
    exact List.mem_append_right _ (List.mem_flatMap.mpr ⟨p, member, List.mem_cons_of_mem _ named⟩)
  have fake := isOfFake_of_mem_attributeNames made added
  rw [isOfFake_of_ownLayer (Table.mem_of_get? own)] at fake
  cases fake

-- A wire name leads to its own member on either side.

theorem invokeMember?_of_mem (made : m.synthesizeFake lead = .ok f) {d : MemberDescriptor} (inside : d ∈ m.invoke) :
    f.invokeMember? d.wireName = some (m.fakeInvokeMember d) := by
  obtain ⟨rfl, -, -, invoke⟩ := of_synthesizeFake made
  have once : ((m.invoke.map m.fakeInvokeMember).map (·.wireName)).Nodup := by
    simpa [fakeInvokeMember, Function.comp_def] using invoke
  exact FakeBinding.find?_of_nodup once (List.mem_map_of_mem inside)

theorem pushMember?_of_mem (made : m.synthesizeFake lead = .ok f) {d : MemberDescriptor} (inside : d ∈ m.push) :
    f.pushMember? d.wireName = some (m.fakePushMember d) := by
  obtain ⟨rfl, -, push, -⟩ := of_synthesizeFake made
  have once : ((m.push.map m.fakePushMember).map (·.wireName)).Nodup := by
    simpa [fakePushMember, Function.comp_def] using push
  exact FakeBinding.find?_of_nodup once (List.mem_map_of_mem inside)

-- However the members of a manifest are called, the fake of it keeps them apart: all attributes are distinct,
-- and a wire name leads to its own member on either side. What the fake adds is apart from the machinery too, but
-- the members need not be. Whatever binding the fake stands in front of, what it has by itself is what its class
-- has, unless a wrapper is called like it.
theorem machinery_kept_iff (made : m.synthesizeFake lead = .ok f) :
    (f.attributeNames ++ m.attributes).Nodup ∧
    (∀ d ∈ m.invoke, f.invokeMember? d.wireName = some (m.fakeInvokeMember d)) ∧
    (∀ d ∈ m.push, f.pushMember? d.wireName = some (m.fakePushMember d)) ∧
    (∀ name ∈ f.attributeNames, name ∉ machinery) ∧
    ((∀ name ∈ f.attributeNames ++ m.attributes, name ∉ machinery) ↔
      ∀ name ∈ m.attributes, name ∉ machinery) ∧
    ∀ cls c, ofFake cls f = .ok c → ∀ name a, (ownLayer f).get? name = some a →
      (c.blueprint.find? name = some a ↔ name ∉ m.invoke.map (·.attributeName)) := by
  have apart : ∀ name ∈ f.attributeNames, name ∉ machinery := fun name => not_mem_machinery made
  obtain ⟨fake, distinct, -⟩ := of_synthesizeFake made
  refine ⟨distinct, fun d => invokeMember?_of_mem made, fun d => pushMember?_of_mem made, apart, ?_,
    fun cls c stands name a own => ?_⟩
  · rw [List.forall_mem_append]
    exact and_iff_right apart
  · have wrappers : f.invoke.map (·.methodName) = m.invoke.map (·.attributeName) := by
      rw [fake, List.map_map]
      rfl
    rw [← wrappers]
    exact find?_ownLayer_iff stands own (not_mem_pushEntries made own)

-- A board that is wiped by a command, whose wrapper is called as it may be.
def wipe (wrapper : String) : MemberDescriptor where
  identifier := "Wipe"
  wireName := "Wipe"
  role := .invoke
  attributeName := wrapper

def board (wrapper : String) : Manifest where
  bindingName := "BoardClient"
  bindingModule := "board_client"
  contractName := "IBoard"
  hubUri := "board"
  push := [⟨"Drawn", "Drawn", .push, "drawn", some "when_drawn", [], none⟩]
  invoke := [wipe wrapper]

def boardFake (wrapper : String) : FakeBinding where
  name := "FakeBoardClient"
  bindingName := "BoardClient"
  bindingModule := "board_client"
  invoke := [(board wrapper).fakeInvokeMember (wipe wrapper)]
  push := (board wrapper).push.map (board wrapper).fakePushMember

def boardClass (wrapper : String) : FakeClass where
  fake := boardFake wrapper
  binding := ClientClass.ofSound (board wrapper)
  members := Table.setAll [] (entries (boardFake wrapper))

theorem machinery_kept_iff_wipe :
    (board "wipe").synthesizeFake "Fake" = .ok (boardFake "wipe") ∧
    ClientClass.ofManifest (board "wipe") = .ok (boardClass "wipe").binding ∧
    ofFake (boardClass "wipe").binding (boardFake "wipe") = .ok (boardClass "wipe") ∧
    (∀ name ∈ (boardFake "wipe").attributeNames ++ (board "wipe").attributes, name ∉ machinery) ∧
    (boardClass "wipe").blueprint.find? "reset" = some (.prompt .reset) := by
  have made : (board "wipe").synthesizeFake "Fake" = .ok (boardFake "wipe") := by rfl
  have stands : ofFake (boardClass "wipe").binding (boardFake "wipe") = .ok (boardClass "wipe") := by rfl
  obtain ⟨-, -, -, -, kept, own⟩ := machinery_kept_iff made
  exact ⟨made, by rfl, stands, kept.mpr (by decide), (own _ _ stands "reset" _ (by rfl)).mpr (by decide)⟩

-- A fake is made as well where the wrapper is called reset. Who resets that fake calls the wrapper instead, and
-- nothing is cleared.
theorem machinery_kept_iff_reset :
    (board "reset").synthesizeFake "Fake" = .ok (boardFake "reset") ∧
    ClientClass.ofManifest (board "reset") = .ok (boardClass "reset").binding ∧
    ofFake (boardClass "reset").binding (boardFake "reset") = .ok (boardClass "reset") ∧
    "reset" ∈ (board "reset").attributes ∧ "reset" ∈ machinery ∧
    Blueprint.fakeLayer.get? "reset" = some (.prompt .reset) ∧
    (boardClass "reset").blueprint.find? "reset" =
      some (.routine (.answer ((board "reset").fakeInvokeMember (wipe "reset")))) ∧
    ∀ e : Endpoint, e.blueprint = (boardClass "reset").blueprint → e.fields.get? "reset" = none →
      (Fake.reset.run e).2 = e := by
  have found : (boardClass "reset").blueprint.find? "reset" =
      some (.routine (.answer ((board "reset").fakeInvokeMember (wipe "reset")))) := by rfl
  refine ⟨by rfl, by rfl, by rfl, by decide, by decide, by rfl, found, fun e same unset => ?_⟩
  rw [← same] at found
  have shows : e.look "reset" = .ok (.routine (.answer ((board "reset").fakeInvokeMember (wipe "reset")))) := by
    rw [Endpoint.look, found, Endpoint.lookField, unset, found]
    rfl
  have called := (Act.run_callName shows [] none).trans (Act.run_call_routine rfl)
  rw [Fake.reset, Act.run_bind_ok called]
  rfl

end Manifest

end HubContract
