import HubContract.Fake.Class
import HubContract.Proofs.Binding.Fake
import HubContract.Proofs.Client.Asking

namespace HubContract

open HubContract.Text

namespace Naming

-- Whether a name looks like one that a fake adds or assigns, or like one of a slot or a wrapper.
def isOfFake (name : String) : Bool :=
  ["on_", "invoke_", "simulate_", "wait_for_"].any (fun s => s.toList.isPrefixOf name.toList) ||
    ["_calls", "_behavior", "_events"].any (fun s => s.toList.isSuffixOf name.toList)

theorem isOfFake_lead {lead : String} (known : lead ∈ ["on_", "invoke_", "simulate_", "wait_for_"])
    (base : String) : isOfFake (lead ++ base) := by
  have starts : lead.toList.isPrefixOf (lead ++ base).toList := by simp
  rw [isOfFake, Bool.or_eq_true, List.any_eq_true]
  exact .inl ⟨lead, known, starts⟩

theorem isOfFake_tail {tail : String} (known : tail ∈ ["_calls", "_behavior", "_events"])
    (base : String) : isOfFake (base ++ tail) := by
  have stops : tail.toList.isSuffixOf (base ++ tail).toList := by simp
  rw [isOfFake, Bool.or_eq_true, List.any_eq_true (l := ["_calls", "_behavior", "_events"])]
  exact .inr ⟨tail, known, stops⟩

end Naming

namespace FakeBinding

-- What members of a fake have names for. Logs, behaviors and slots are assigned.
inductive Part where
  | calls (member : FakeInvokeMember)
  | behavior (member : FakeInvokeMember)
  | wrapper (member : FakeInvokeMember)
  | events (member : FakePushMember)
  | simulator (member : FakePushMember)
  | waiter (member : FakePushMember)
  | slot (member : FakePushMember)
  deriving DecidableEq, Repr

namespace Part

def name : Part → String
  | calls m => m.callsAttribute
  | behavior m => m.behaviorAttribute
  | wrapper m => m.methodName
  | events p => p.eventsAttribute
  | simulator p => p.simulateName
  | waiter p => p.waitName
  | slot p => p.slotName

def isLog : Part → Bool
  | calls _ | events _ => true
  | _ => false

-- Whether a callback may be put there.
def isVacant : Part → Bool
  | behavior _ | slot _ => true
  | _ => false

-- What the class has for it.
def routine? : Part → Option Routine
  | wrapper m => some (.answer m)
  | simulator p => some (.simulator p)
  | waiter p => some (.waiter p)
  | _ => none

theorem isVacant_of_isLog {part : Part} (isLog : part.isLog) : part.isVacant = false := by
  cases part with
  | calls | events => rfl
  | behavior | wrapper | simulator | waiter | slot => cases isLog

-- What is assigned is not what the class has.
theorem routine?_eq_none {part : Part} (assigned : part.isLog || part.isVacant) :
    part.routine? = none := by
  cases part with
  | calls | behavior | events | slot => rfl
  | wrapper | simulator | waiter => simp [isLog, isVacant] at assigned

end Part

variable {f : FakeBinding} {m : FakeInvokeMember} {p : FakePushMember} {a b : Part}

def parts (f : FakeBinding) : List Part :=
  (f.invoke.flatMap fun m => [.calls m, .behavior m]) ++
    (f.push.flatMap fun p => [.events p, .simulator p, .waiter p]) ++
    f.push.map .slot ++ f.invoke.map .wrapper

theorem calls_mem_parts (inside : m ∈ f.invoke) : .calls m ∈ f.parts := by
  simp [parts, inside]

theorem behavior_mem_parts (inside : m ∈ f.invoke) : .behavior m ∈ f.parts := by
  simp [parts, inside]

theorem wrapper_mem_parts (inside : m ∈ f.invoke) : .wrapper m ∈ f.parts := by
  simp [parts, inside]

theorem events_mem_parts (inside : p ∈ f.push) : .events p ∈ f.parts := by
  simp [parts, inside]

theorem simulator_mem_parts (inside : p ∈ f.push) : .simulator p ∈ f.parts := by
  simp [parts, inside]

theorem waiter_mem_parts (inside : p ∈ f.push) : .waiter p ∈ f.parts := by
  simp [parts, inside]

theorem slot_mem_parts (inside : p ∈ f.push) : .slot p ∈ f.parts := by
  simp [parts, inside]

theorem map_name_parts (f : FakeBinding) : f.parts.map Part.name =
    f.attributeNames ++ (f.push.map (·.slotName) ++ f.invoke.map (·.methodName)) := by
  simp [parts, attributeNames, List.map_flatMap, Part.name, Function.comp_def]

-- What makes a fake work as it says: its names are distinct and look like such, and each wire name
-- belongs to one member of its side.
structure IsSound (f : FakeBinding) : Prop where
  distinct : (f.parts.map Part.name).Nodup
  named : ∀ a ∈ f.parts, Naming.isOfFake a.name
  push : (f.push.map (·.wireName)).Nodup
  invoke : (f.invoke.map (·.wireName)).Nodup

theorem IsSound.name_inj (sound : f.IsSound) (ha : a ∈ f.parts) (hb : b ∈ f.parts)
    (same : a.name = b.name) : a = b :=
  List.inj_on_of_nodup_map sound.distinct ha hb same

theorem find?_of_nodup {β : Type} {xs : List β} {key : β → String} (distinct : (xs.map key).Nodup)
    {x : β} (inside : x ∈ xs) : (xs.find? fun y => key y = key x) = some x := by
  induction xs with
  | nil => cases inside
  | cons y ys ih =>
    rw [List.map_cons, List.nodup_cons] at distinct
    obtain rfl | later := List.mem_cons.mp inside
    · rw [List.find?_cons_of_pos (by simp)]
    · have other : key y ≠ key x := fun same =>
        distinct.1 (same ▸ List.mem_map_of_mem later)
      rw [List.find?_cons_of_neg (by simpa using other)]
      exact ih distinct.2 later

theorem IsSound.invokeMember? (sound : f.IsSound) (inside : m ∈ f.invoke) :
    f.invokeMember? m.wireName = some m := find?_of_nodup sound.invoke inside

theorem IsSound.pushMember? (sound : f.IsSound) (inside : p ∈ f.push) :
    f.pushMember? p.wireName = some p := find?_of_nodup sound.push inside

-- The channels of a fake, by wire name.
def numbers (f : FakeBinding) : Table Nat :=
  Table.setAll [] ((f.push.map (·.wireName)).mapIdx fun i name => (name, i))

theorem getElem?_of_numbers {name : String} {n : Nat} (found : f.numbers.get? name = some n) :
    (f.push.map (·.wireName))[n]? = some name := by
  unfold numbers at found
  obtain ⟨i, within, same⟩ := List.mem_mapIdx.mp (Table.mem_of_get?_setAll found)
  obtain ⟨rfl, rfl⟩ := Prod.mk.inj same
  exact List.getElem?_eq_getElem within

-- Every push member has a channel, which no other one has.

theorem exists_number (inside : p ∈ f.push) : ∃ n, f.numbers.get? p.wireName = some n := by
  obtain ⟨n, within, same⟩ := List.getElem_of_mem (List.mem_map_of_mem (f := (·.wireName)) inside)
  refine Option.isSome_iff_exists.mp (Table.isSome_get?_setAll (v := n) ?_)
  exact List.mem_mapIdx.mpr ⟨n, within, by rw [same]⟩

theorem IsSound.eq_of_number (sound : f.IsSound) {p' : FakePushMember} (inside : p ∈ f.push)
    (inside' : p' ∈ f.push) {n : Nat} (own : f.numbers.get? p.wireName = some n)
    (other : f.numbers.get? p'.wireName = some n) : p = p' := by
  have same := (getElem?_of_numbers own).symm.trans (getElem?_of_numbers other)
  exact List.inj_on_of_nodup_map sound.push inside inside' (Option.some.inj same)

end FakeBinding

-- What a fake adds to the attributes of its manifest shows that, however those are called.
theorem Manifest.isOfFake_of_mem_attributeNames {m : Manifest} {lead name : String} {f : FakeBinding}
    (made : m.synthesizeFake lead = .ok f) (inside : name ∈ f.attributeNames) : Naming.isOfFake name := by
  obtain ⟨rfl, -⟩ := of_synthesizeFake made
  simp only [FakeBinding.attributeNames, List.flatMap_map, List.mem_append, List.mem_flatMap, List.mem_cons,
    List.not_mem_nil, or_false] at inside
  obtain ⟨d, -, rfl | rfl⟩ | ⟨d, -, rfl | rfl | rfl⟩ := inside
  · exact Naming.isOfFake_tail (by decide) _
  · exact Naming.isOfFake_tail (by decide) _
  · exact Naming.isOfFake_tail (by decide) _
  · exact Naming.isOfFake_lead (by decide) _
  · exact Naming.isOfFake_lead (by decide) _

-- The fake of a binding.
theorem ClientBinding.isSound_fake {v : Validated} {o : Options} {lead : String} {f : FakeBinding}
    (made : (synthesize v o).manifest.synthesizeFake lead = .ok f) : f.IsSound := by
  have added {name : String} (inside : name ∈ f.attributeNames) : Naming.isOfFake name :=
    Manifest.isOfFake_of_mem_attributeNames made inside
  obtain ⟨rfl, apart, push, invoke⟩ := Manifest.of_synthesizeFake made
  have slots : ∀ d ∈ (synthesize v o).manifest.push, ∃ base, d.attributeName = "on_" ++ base := by
    intro d inside
    simp only [synthesize, List.mem_map] at inside
    obtain ⟨_, ⟨b, -, rfl⟩, rfl⟩ := inside
    exact ⟨b.2, rfl⟩
  have wrappers : ∀ d ∈ (synthesize v o).manifest.invoke, ∃ base,
      d.attributeName = "invoke_" ++ base := by
    intro d inside
    simp only [synthesize, List.mem_map] at inside
    obtain ⟨_, ⟨b, -, rfl⟩, rfl⟩ := inside
    exact ⟨b.2, rfl⟩
  refine ⟨?_, fun a inside => ?_, ?_, ?_⟩
  · rw [FakeBinding.map_name_parts]
    refine apart.sublist (List.Sublist.append_left ?_ _)
    rw [Manifest.attributes, List.map_append]
    refine List.Sublist.trans ?_ (List.sublist_append_left ..)
    simp [Manifest.fakePushMember, Manifest.fakeInvokeMember, Function.comp_def]
  · have inside := List.mem_map_of_mem (f := FakeBinding.Part.name) inside
    rw [FakeBinding.map_name_parts, List.mem_append, List.mem_append, List.map_map, List.map_map,
      List.mem_map, List.mem_map] at inside
    obtain own | ⟨d, member, same⟩ | ⟨d, member, same⟩ := inside
    · exact added own
    · obtain ⟨base, slot⟩ := slots d member
      rw [← same]
      exact (congrArg Naming.isOfFake slot).trans (Naming.isOfFake_lead (by decide) base)
    · obtain ⟨base, wrapper⟩ := wrappers d member
      rw [← same]
      exact (congrArg Naming.isOfFake wrapper).trans (Naming.isOfFake_lead (by decide) base)
  · simpa [Manifest.fakePushMember, Function.comp_def] using push
  · simpa [Manifest.fakeInvokeMember, Function.comp_def] using invoke

namespace FakeClass

open FakeBinding

-- What the class of a fake says.
def entries (f : FakeBinding) : List (String × Attribute) :=
  headEntries f ++ f.invoke.map invokeEntry ++ f.push.flatMap pushEntries

def headNames : List String := ["__module__", "__doc__", "__fake__"]

-- Names that are shown or set in a way of their own.
def boundNames : List String :=
  ["connection", "url", "started", "__class__", "__dict__", "__weakref__"]

-- What makes the class of a fake work as it says: the fake does, it stands in front of a class that has
-- its slots, and no member of that class takes away how objects are made, read or written.
structure IsSound (c : FakeClass) : Prop where
  fake : c.fake.IsSound
  members : c.members = Table.setAll [] (entries c.fake)
  ordinary : c.binding.IsOrdinary
  slots : ∀ p ∈ c.fake.push, c.binding.members.get? p.slotName = some (.value .null)
  vital : ∀ name ∈ ["__new__", "__getattribute__", "__setattr__", "started"],
    c.binding.members.get? name = none

variable {c : FakeClass} {name : String} {a : Attribute} {part : Part}

theorem find?_eq (c : FakeClass) (name : String) : c.blueprint.find? name =
    (c.members.get? name).or ((Blueprint.fakeLayer.get? name).or (c.binding.blueprint.find? name)) := by
  simp only [blueprint, ClientClass.blueprint, Blueprint.find?, List.findSome?_cons]
  cases c.members.get? name <;> cases Blueprint.fakeLayer.get? name <;> rfl

-- The class of a fake, if there is one, stands for what the fake says.
theorem eq_of_ofFake {cls : ClientClass} {f : FakeBinding} (stands : ofFake cls f = .ok c) :
    c = ⟨f, cls, Table.setAll [] (entries f)⟩ := by
  unfold ofFake at stands
  dsimp only at stands
  split at stands
  case h_1 => cases stands
  case h_2 => exact (Except.ok.inj stands).symm

-- What the class says is about itself, or it is a routine of a member.
theorem of_mem_entries {f : FakeBinding} (inside : (name, a) ∈ entries f) :
    (name, a) ∈ headEntries f ∨
      ∃ part ∈ f.parts, ∃ r, part.routine? = some r ∧ part.name = name ∧ a = .routine r := by
  simp only [entries, List.mem_append, List.mem_map, List.mem_flatMap, invokeEntry, pushEntries,
    List.mem_cons, List.not_mem_nil, or_false] at inside
  obtain (head | ⟨m, member, same⟩) | ⟨p, member, same | same⟩ := inside
  · exact .inl head
  · obtain ⟨rfl, rfl⟩ := Prod.mk.inj same
    exact .inr ⟨.wrapper m, wrapper_mem_parts member, _, rfl, rfl, rfl⟩
  · obtain ⟨rfl, rfl⟩ := Prod.mk.inj same
    exact .inr ⟨.simulator p, simulator_mem_parts member, _, rfl, rfl, rfl⟩
  · obtain ⟨rfl, rfl⟩ := Prod.mk.inj same
    exact .inr ⟨.waiter p, waiter_mem_parts member, _, rfl, rfl, rfl⟩

theorem mem_entries {f : FakeBinding} (inside : part ∈ f.parts) {r : Routine}
    (has : part.routine? = some r) : (part.name, .routine r) ∈ entries f := by
  cases part with
  | wrapper m =>
    obtain rfl := Option.some.inj has
    have member : m ∈ f.invoke := by simpa [parts] using inside
    refine List.mem_append_left _ (List.mem_append_right _ ?_)
    exact List.mem_map_of_mem (f := invokeEntry) member
  | simulator p =>
    obtain rfl := Option.some.inj has
    have member : p ∈ f.push := by simpa [parts] using inside
    refine List.mem_append_right _ (List.mem_flatMap.mpr ⟨p, member, ?_⟩)
    exact List.mem_cons_self
  | waiter p =>
    obtain rfl := Option.some.inj has
    have member : p ∈ f.push := by simpa [parts] using inside
    refine List.mem_append_right _ (List.mem_flatMap.mpr ⟨p, member, ?_⟩)
    exact List.mem_cons_of_mem _ List.mem_cons_self
  | calls | behavior | events | slot => cases has

theorem mem_headNames_of_mem {f : FakeBinding} (inside : (name, a) ∈ headEntries f) :
    name ∈ headNames := List.mem_map_of_mem (f := Prod.fst) inside

theorem not_isOfFake_of_head (head : name ∈ headNames) : Naming.isOfFake name = false := by
  have none : ∀ n ∈ headNames, Naming.isOfFake n = false := by decide
  exact none name head

namespace IsSound

-- What the class says under a name: which of the two it is can be seen from the name.

theorem of_member (sound : c.IsSound) (found : c.members.get? name = some a) :
    (name, a) ∈ headEntries c.fake ∨
      ∃ part ∈ c.fake.parts, ∃ r, part.routine? = some r ∧ part.name = name ∧ a = .routine r := by
  rw [sound.members] at found
  exact of_mem_entries (Table.mem_of_get?_setAll found)

theorem part_of_member (sound : c.IsSound) (named : Naming.isOfFake name)
    (found : c.members.get? name = some a) :
    ∃ part ∈ c.fake.parts, ∃ r, part.routine? = some r ∧ part.name = name ∧ a = .routine r := by
  obtain head | part := sound.of_member found
  · rw [not_isOfFake_of_head (mem_headNames_of_mem head)] at named
    cases named
  · exact part

theorem head_of_member (sound : c.IsSound) (other : Naming.isOfFake name = false)
    (found : c.members.get? name = some a) : (name, a) ∈ headEntries c.fake := by
  obtain head | ⟨part, inside, r, -, rfl, -⟩ := sound.of_member found
  · exact head
  · rw [sound.fake.named part inside] at other
    cases other

theorem exists_member (sound : c.IsSound) (there : (name, a) ∈ entries c.fake) :
    ∃ a', c.members.get? name = some a' := by
  rw [sound.members]
  exact Option.isSome_iff_exists.mp (Table.isSome_get?_setAll there)

-- Each routine of a member is found under its name.
theorem find?_routine (sound : c.IsSound) (inside : part ∈ c.fake.parts) {r : Routine}
    (has : part.routine? = some r) : c.blueprint.find? part.name = some (.routine r) := by
  obtain ⟨a, found⟩ := sound.exists_member (mem_entries inside has)
  obtain ⟨part', inside', r', has', same, rfl⟩ :=
    sound.part_of_member (sound.fake.named part inside) found
  obtain rfl := sound.fake.name_inj inside' inside same
  obtain rfl := Option.some.inj (has'.symm.trans has)
  rw [find?_eq, found]
  rfl

-- Names that do not look like those of members are left to what all fakes have.
theorem members_eq_none (sound : c.IsSound) (other : Naming.isOfFake name = false)
    (notHead : name ∉ headNames) : c.members.get? name = none := by
  cases found : c.members.get? name with
  | none => rfl
  | some a => exact absurd (mem_headNames_of_mem (sound.head_of_member other found)) notHead

theorem find?_layer (sound : c.IsSound) (other : Naming.isOfFake name = false)
    (notHead : name ∉ headNames) (layer : Blueprint.fakeLayer.get? name = some a) :
    c.blueprint.find? name = some a := by
  rw [find?_eq, sound.members_eq_none other notHead, layer]
  rfl

theorem find?_fake (sound : c.IsSound) : c.blueprint.find? "__fake__" = some (.model c.fake) := by
  have there : ("__fake__", .model c.fake) ∈ entries c.fake :=
    List.mem_append_left _ (List.mem_append_left _ (by simp [headEntries]))
  obtain ⟨a, found⟩ := sound.exists_member there
  have model : a = .model c.fake := by
    simpa [headEntries] using sound.head_of_member (by decide) found
  rw [find?_eq, found, model]
  rfl

-- Slots are those of the binding.
theorem find?_slot (sound : c.IsSound) {p : FakePushMember} (inside : p ∈ c.fake.push) :
    c.blueprint.find? p.slotName = some (.value .null) := by
  have member : .slot p ∈ c.fake.parts := slot_mem_parts inside
  have named : Naming.isOfFake p.slotName := by
    simpa only [Part.name] using sound.fake.named _ member
  have front : c.members.get? p.slotName = none := by
    cases found : c.members.get? p.slotName with
    | none => rfl
    | some a =>
      obtain ⟨part, inside', r, has, same, -⟩ := sound.part_of_member named found
      obtain rfl := sound.fake.name_inj inside' member same
      cases has
  have layer : Blueprint.fakeLayer.get? p.slotName = none := by
    cases found : Blueprint.fakeLayer.get? p.slotName with
    | none => rfl
    | some a =>
      have others : ∀ n ∈ Blueprint.fakeLayer.map Prod.fst, Naming.isOfFake n = false := by decide
      rw [others _ (List.mem_map_of_mem (Table.mem_of_get? found))] at named
      cases named
  rw [find?_eq, front, layer, ClientClass.find?_of_member (sound.slots p inside)]
  rfl

-- But for a few, names show their field and can be assigned.
theorem isFree_of_find? (sound : c.IsSound) (unbound : name ∉ boundNames)
    (found : c.blueprint.find? name = some a) : a.isFree := by
  have layers : ∀ t ∈ [Blueprint.fakeLayer, Blueprint.clientLayer, Blueprint.objectLayer],
      ∀ x ∈ t, x.1 ∉ boundNames → x.2.isFree := by decide
  rw [find?_eq, ClientClass.find?_eq] at found
  obtain own | ⟨-, rest⟩ := Option.or_eq_some_iff.mp found
  · obtain head | ⟨part, -, r, -, -, rfl⟩ := sound.of_member own
    · have heads : ∀ x ∈ headEntries c.fake, x.2.isFree := by simp [headEntries, Attribute.isFree]
      exact heads _ head
    · rfl
  obtain layer | ⟨-, rest⟩ := Option.or_eq_some_iff.mp rest
  · exact layers _ (by simp) _ (Table.mem_of_get? layer) unbound
  obtain member | ⟨-, rest⟩ := Option.or_eq_some_iff.mp rest
  · exact (sound.ordinary name a member).1
  obtain layer | ⟨-, layer⟩ := Option.or_eq_some_iff.mp rest
  · exact layers _ (by simp) _ (Table.mem_of_get? layer) unbound
  · exact layers _ (by simp) _ (Table.mem_of_get? layer) unbound

theorem find?_vital (sound : c.IsSound)
    (vital : name ∈ ["__new__", "__getattribute__", "__setattr__", "started"]) :
    c.blueprint.find? name = (Blueprint.clientLayer.get? name).or (Blueprint.objectLayer.get? name) := by
  have others : ∀ n ∈ ["__new__", "__getattribute__", "__setattr__", "started"],
      Naming.isOfFake n = false ∧ n ∉ headNames ∧ n ∉ Blueprint.fakeLayer.map Prod.fst := by decide
  obtain ⟨other, notHead, layer⟩ := others name vital
  rw [find?_eq, sound.members_eq_none other notHead, Table.get?_of_not_mem layer,
    ClientClass.find?_eq, sound.vital name vital]
  rfl

theorem buildFault? (sound : c.IsSound) : c.blueprint.buildFault? = none := by
  rw [Blueprint.buildFault?, sound.find?_vital (by simp), sound.find?_vital (by simp),
    sound.find?_vital (by simp)]
  rfl

-- A fake shows whether it is started.
theorem find?_started (sound : c.IsSound) :
    c.blueprint.find? "started" = some (.property "_started") := sound.find?_vital (by simp)

end IsSound

-- Where a binding has a class, its manifest is as that class needs it.
theorem isSound_of_ofManifest {v : Validated} {o : Options} {cls : ClientClass}
    (binding : ClientClass.ofManifest (ClientBinding.synthesize v o).manifest = .ok cls) :
    (ClientBinding.synthesize v o).manifest.IsSound where
  handled d inside := by
    simp only [ClientBinding.synthesize, List.mem_map] at inside
    obtain ⟨member, -, rfl⟩ := inside
    rfl
  distinct := ClientBinding.nodup_attributes_synthesize v o
  named n inside := ClientBinding.isOfMember_of_mem_attributes v o inside
  nameable := by
    by_contra unnameable
    have fault (members : Table Attribute) : Blueprint.classFault?
        (ClientBinding.synthesize v o).manifest.bindingName members = some .value := by
      simp [Blueprint.classFault?, unnameable]
    unfold ClientClass.ofManifest at binding
    split at binding
    case h_1 => cases binding
    case h_2 =>
      dsimp only at binding
      rw [fault] at binding
      cases binding

-- The fake of a binding, in front of the class of that binding.
theorem isSound_ofFake {v : Validated} {o : Options} {lead : String} {f : FakeBinding}
    {cls : ClientClass} (made : (ClientBinding.synthesize v o).manifest.synthesizeFake lead = .ok f)
    (binding : ClientClass.ofManifest (ClientBinding.synthesize v o).manifest = .ok cls)
    (stands : ofFake cls f = .ok c) : c.IsSound ∧ c.fake = f := by
  have manifest := isSound_of_ofManifest binding
  have ordinary := (ClientClass.IsMade.ofManifest binding).isOrdinary
  obtain rfl := Except.ok.inj (binding.symm.trans (ClientClass.ofManifest_of_isSound manifest))
  obtain rfl := eq_of_ofFake stands
  refine ⟨⟨ClientBinding.isSound_fake made, rfl, ordinary, ?_, ?_⟩, rfl⟩
  · intro p inside
    obtain ⟨rfl, -⟩ := Manifest.of_synthesizeFake made
    obtain ⟨d, member, rfl⟩ := List.mem_map.mp inside
    refine Table.get?_setAll_of_mem (ClientClass.nodup_entries manifest) ?_
    refine List.mem_append_left _ (List.mem_append_right _ (List.mem_flatMap.mpr ⟨d, member, ?_⟩))
    exact List.mem_cons_self
  · have others : ∀ name ∈ ["__new__", "__getattribute__", "__setattr__", "started"],
        Naming.isOfMember name = false ∧ name ∉ ClientClass.headNames := by decide
    intro name inside
    exact ClientClass.members_eq_none manifest (others name inside).1 (others name inside).2

end FakeClass

end HubContract
