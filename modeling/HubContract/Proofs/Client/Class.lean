import HubContract.Binding.Synthesis
import HubContract.Client.Class
import HubContract.Proofs.Naming.Distinct
import Mathlib.Data.List.Forall2

namespace HubContract

open HubContract.Text

namespace Manifest

-- What makes a class of a manifest work as it says: every push member has a handler, and all names of
-- members are distinct and look like such.
structure IsSound (m : Manifest) : Prop where
  handled : ∀ d ∈ m.push, d.handler.isSome
  distinct : m.attributes.Nodup
  named : ∀ n ∈ m.attributes, Naming.isOfMember n
  nameable : Blueprint.isNameable m.bindingName

end Manifest

namespace ClientBinding

variable (v : Validated) (o : Options)

theorem map_fst_based (ws : List WalkedMethod) : (based ws).map Prod.fst = ws.map (·.method) := by
  refine List.map_fst_zip ?_
  simp

theorem map_snd_based (ws : List WalkedMethod) :
    (based ws).map Prod.snd = Naming.uniqueBases (ws.map (·.method.name)) := by
  refine List.map_snd_zip ?_
  simp

theorem map_name_based (ws : List WalkedMethod) :
    (based ws).map (·.1.name) = ws.map (·.method.name) := by
  have names := congrArg (List.map Method.name) (map_fst_based ws)
  rwa [List.map_map, List.map_map] at names

-- The members of a binding stand for the methods in turn.
theorem forall₂_based {α : Type} {R : WalkedMethod → α → Prop} {ws : List WalkedMethod}
    {member : Method × String → α}
    (each : ∀ w base, (w.method, base) ∈ based ws → R w (member (w.method, base))) :
    List.Forall₂ R ws ((based ws).map member) := by
  have aligned {ws : List WalkedMethod} {bases : List String} (length : ws.length = bases.length)
      (each : ∀ w base, (w.method, base) ∈ (ws.map (·.method)).zip bases →
        R w (member (w.method, base))) :
      List.Forall₂ R ws (((ws.map (·.method)).zip bases).map member) := by
    induction ws generalizing bases with
    | nil => exact .nil
    | cons w ws ih =>
      cases bases with
      | nil => cases length
      | cons base bases =>
        refine .cons (each w base List.mem_cons_self) (ih (by simpa using length) ?_)
        exact fun w' base' inside => each w' base' (List.mem_cons_of_mem _ inside)
  exact aligned (by simp) each

-- The wire names of all members, which are the names of their methods.

theorem map_wireName_push :
    (synthesize v o).manifest.push.map (·.wireName) = v.push.map (·.method.name) := by
  rw [← map_name_based]
  simp [synthesize, pushDescriptor, pushMember]

theorem map_wireName_invoke :
    (synthesize v o).manifest.invoke.map (·.wireName) = v.invoke.map (·.method.name) := by
  rw [← map_name_based]
  simp [synthesize, invokeDescriptor, invokeMember]

-- The names of all members, by the bases that their methods were given.
theorem attributes_synthesize : (synthesize v o).manifest.attributes =
    (Naming.uniqueBases (v.push.map (·.method.name))).map Naming.slotName ++
      (Naming.uniqueBases (v.invoke.map (·.method.name))).map Naming.invokeName ++
      (Naming.uniqueBases (v.push.map (·.method.name))).map Naming.thunkName := by
  rw [← map_snd_based, ← map_snd_based]
  simp [Manifest.attributes, synthesize, pushDescriptor, pushMember, invokeDescriptor, invokeMember,
    Function.comp_def]

theorem nodup_attributes_synthesize : (synthesize v o).manifest.attributes.Nodup := by
  rw [attributes_synthesize]
  have push := Naming.nodup_uniqueBases (v.push.map (·.method.name))
  have invoke := Naming.nodup_uniqueBases (v.invoke.map (·.method.name))
  refine List.nodup_append.mpr ⟨List.nodup_append.mpr ⟨push.map Naming.slotName_injective,
    invoke.map Naming.invokeName_injective, ?_⟩, push.map Naming.thunkName_injective, ?_⟩
  · intro n slot n' wrapper
    obtain ⟨a, -, rfl⟩ := List.mem_map.mp slot
    obtain ⟨b, -, rfl⟩ := List.mem_map.mp wrapper
    exact Naming.slotName_ne_invokeName a b
  · intro n member n' thunk
    obtain ⟨b, -, rfl⟩ := List.mem_map.mp thunk
    obtain slot | wrapper := List.mem_append.mp member
    · obtain ⟨a, -, rfl⟩ := List.mem_map.mp slot
      exact Naming.slotName_ne_thunkName a b
    · obtain ⟨a, -, rfl⟩ := List.mem_map.mp wrapper
      exact Naming.invokeName_ne_thunkName a b

theorem isOfMember_of_mem_attributes {n : String} (inside : n ∈ (synthesize v o).manifest.attributes) :
    Naming.isOfMember n := by
  rw [attributes_synthesize, List.append_assoc] at inside
  obtain slot | rest := List.mem_append.mp inside
  · obtain ⟨base, -, rfl⟩ := List.mem_map.mp slot
    exact Naming.isOfMember_slotName base
  · obtain wrapper | thunk := List.mem_append.mp rest
    · obtain ⟨base, -, rfl⟩ := List.mem_map.mp wrapper
      exact Naming.isOfMember_invokeName base
    · obtain ⟨base, -, rfl⟩ := List.mem_map.mp thunk
      exact Naming.isOfMember_thunkName base

-- An identifier has no character that a class cannot have in its name.
theorem isNameable_of_isIdentifier {name : String} (identifier : isIdentifier name) :
    Blueprint.isNameable name := by
  have shaped : isName name.toList := (Bool.and_eq_true_iff.mp identifier).1
  unfold Blueprint.isNameable
  cases chars : name.toList with
  | nil => rfl
  | cons c rest =>
    rw [chars, isName, Bool.and_eq_true, List.all_eq_true] at shaped
    have notFirst : c ≠ '\x00' := by
      rintro rfl
      exact absurd shaped.1 (by decide)
    have notLater : '\x00' ∉ rest := fun inside => absurd (shaped.2 _ inside) (by decide)
    simp [notFirst.symm, notLater]

theorem isSound_synthesize (identifier : isIdentifier v.contract.bindingName) :
    (synthesize v o).manifest.IsSound where
  handled d inside := by
    simp only [synthesize, List.mem_map] at inside
    obtain ⟨member, -, rfl⟩ := inside
    rfl
  distinct := nodup_attributes_synthesize v o
  named n inside := isOfMember_of_mem_attributes v o inside
  nameable := isNameable_of_isIdentifier identifier

end ClientBinding

namespace ClientClass

variable {m : Manifest} {d : MemberDescriptor} {name : String} {a : Attribute}

-- What the class of a manifest says.
def entries (m : Manifest) : List (String × Attribute) :=
  headEntries m ++ m.push.flatMap (fun d => pushEntries d (d.handler.getD "")) ++
    m.invoke.map (invokeEntry m.cancellationType)

def headNames : List String := ["__module__", "__doc__", "hub_uri", "__manifest__"]

theorem handled?_eq {ds : List MemberDescriptor} (handled : ∀ d ∈ ds, d.handler.isSome) :
    handled? ds = some (ds.map fun d => (d, d.handler.getD "")) := by
  unfold handled?
  induction ds with
  | nil => rfl
  | cons d ds ih =>
    obtain ⟨h, has⟩ := Option.isSome_iff_exists.mp (handled d List.mem_cons_self)
    have rest := ih fun d' inside => handled d' (List.mem_cons_of_mem _ inside)
    rw [List.mapM_cons, rest, has]
    simp [has]

theorem handlers_eq {ds : List MemberDescriptor} (handled : ∀ d ∈ ds, d.handler.isSome) :
    ds.filterMap (·.handler) = ds.map (·.handler.getD "") := by
  rw [← List.filterMap_eq_map]
  refine List.filterMap_congr fun d inside => ?_
  obtain ⟨h, has⟩ := Option.isSome_iff_exists.mp (handled d inside)
  simp [has]

-- The class defines what all classes do and the names of the members.
theorem names_entries_perm (sound : m.IsSound) :
    ((entries m).map Prod.fst).Perm (headNames ++ m.attributes) := by
  have pairs : (m.push.flatMap fun d => [d.attributeName, d.handler.getD ""]).Perm
      (m.push.map (·.attributeName) ++ m.push.map (·.handler.getD "")) := by
    have split := List.flatMap_append_perm m.push (fun d => [d.attributeName])
      (fun d => [d.handler.getD ""])
    rw [← List.map_eq_flatMap, ← List.map_eq_flatMap] at split
    exact split.symm
  have names : (entries m).map Prod.fst = headNames ++
      ((m.push.flatMap fun d => [d.attributeName, d.handler.getD ""]) ++
        m.invoke.map (·.attributeName)) := by
    simp [entries, headEntries, headNames, pushEntries, invokeEntry, List.map_flatMap,
      Function.comp_def]
  have attributes : m.attributes = m.push.map (·.attributeName) ++ (m.invoke.map (·.attributeName) ++
      m.push.map (·.handler.getD "")) := by
    rw [Manifest.attributes, handlers_eq sound.handled, List.map_append, List.append_assoc]
  rw [names, attributes]
  refine List.Perm.append_left headNames ?_
  refine (pairs.append_right _).trans ?_
  rw [List.append_assoc]
  exact List.Perm.append_left _ List.perm_append_comm

-- What all classes say is texts, but for the manifest.
theorem of_mem_headEntries (head : (name, a) ∈ headEntries m) :
    (∃ s, a = .value (.ofText s)) ∨ a = .manifest m := by
  simp only [headEntries, List.mem_cons, List.not_mem_nil, or_false, Prod.mk.injEq] at head
  obtain ⟨-, rfl⟩ | ⟨-, rfl⟩ | ⟨-, rfl⟩ | ⟨-, rfl⟩ := head
  · exact .inl ⟨_, rfl⟩
  · exact .inl ⟨_, rfl⟩
  · exact .inl ⟨_, rfl⟩
  · exact .inr rfl

theorem not_mem_headNames (member : Naming.isOfMember name) : name ∉ headNames := by
  intro inside
  have none : ∀ n ∈ headNames, Naming.isOfMember n = false := by decide
  rw [none name inside] at member
  cases member

theorem nodup_entries (sound : m.IsSound) : ((entries m).map Prod.fst).Nodup := by
  refine (names_entries_perm sound).nodup_iff.mpr ?_
  refine List.nodup_append.mpr ⟨by decide, sound.distinct, ?_⟩
  rintro n head n' member rfl
  exact not_mem_headNames (sound.named n member) head

def ofSound (m : Manifest) : ClientClass := ⟨m.bindingName, Table.setAll [] (entries m)⟩

-- What the class says is what its blueprint says.
theorem find?_of_mem (sound : m.IsSound) (there : (name, a) ∈ entries m) :
    (ofSound m).blueprint.find? name = some a := by
  have own : (ofSound m).members.get? name = some a :=
    Table.get?_setAll_of_mem (nodup_entries sound) there
  simp [blueprint, Blueprint.find?, own]

-- Other names are left to what all clients have.
theorem members_eq_none (sound : m.IsSound) (other : Naming.isOfMember name = false)
    (notHead : name ∉ headNames) : (ofSound m).members.get? name = none := by
  refine Table.get?_setAll_of_not_mem fun inside => ?_
  obtain head | member := List.mem_append.mp ((names_entries_perm sound).mem_iff.mp inside)
  · exact notHead head
  · rw [sound.named name member] at other
    cases other

theorem find?_of_other (sound : m.IsSound) (other : Naming.isOfMember name = false)
    (notHead : name ∉ headNames) : (ofSound m).blueprint.find? name =
      (Blueprint.clientLayer.get? name).or (Blueprint.objectLayer.get? name) := by
  have own := members_eq_none sound other notHead
  simp only [blueprint, Blueprint.find?, List.findSome?_cons, own, List.findSome?_nil]
  cases Blueprint.clientLayer.get? name <;> cases Blueprint.objectLayer.get? name <;> rfl

theorem find?_manifest (sound : m.IsSound) :
    (ofSound m).blueprint.find? "__manifest__" = some (.manifest m) :=
  find?_of_mem sound (by simp [entries, headEntries])

theorem find?_slot (sound : m.IsSound) (inside : d ∈ m.push) :
    (ofSound m).blueprint.find? d.attributeName = some (.value .null) := by
  refine find?_of_mem sound ?_
  refine List.mem_append_left _ (List.mem_append_right _ (List.mem_flatMap.mpr ⟨d, inside, ?_⟩))
  exact List.mem_cons_self

theorem find?_thunk (sound : m.IsSound) (inside : d ∈ m.push) :
    (ofSound m).blueprint.find? (d.handler.getD "") =
      some (.routine (.thunk (d.handler.getD "") d.attributeName)) := by
  refine find?_of_mem sound ?_
  refine List.mem_append_left _ (List.mem_append_right _ (List.mem_flatMap.mpr ⟨d, inside, ?_⟩))
  exact List.mem_cons_of_mem _ List.mem_cons_self

theorem find?_wrapper (sound : m.IsSound) (inside : d ∈ m.invoke) :
    (ofSound m).blueprint.find? d.attributeName =
      some (.routine (.wrapper d.attributeName d.wireName (d.payloadArity m.cancellationType))) :=
  find?_of_mem sound (List.mem_append_right _ (List.mem_map.mpr ⟨d, inside, rfl⟩))

theorem ofManifest_of_isSound (sound : m.IsSound) : ofManifest m = .ok (ofSound m) := by
  have fault : Blueprint.classFault? m.bindingName (ofSound m).members = none := by
    have unclaimed : ∀ n ∈ Blueprint.claimed, (ofSound m).members.get? n = none := by
      intro n claimed
      have others : ∀ n ∈ Blueprint.claimed, Naming.isOfMember n = false ∧ n ∉ headNames := by decide
      exact members_eq_none sound (others n claimed).1 (others n claimed).2
    have free : (Blueprint.claimed.any fun n => ((ofSound m).members.get? n).isSome) = false := by
      refine List.any_eq_false.mpr fun n claimed => ?_
      simp [unclaimed n claimed]
    simp [Blueprint.classFault?, sound.nameable, free]
  rw [ofManifest, handled?_eq sound.handled]
  dsimp only
  rw [List.flatMap_map]
  split
  case h_1 f faulty => cases faulty.symm.trans fault
  case h_2 => rfl

theorem buildFault?_ofSound (sound : m.IsSound) : (ofSound m).blueprint.buildFault? = none := by
  rw [Blueprint.buildFault?, find?_of_other sound (by decide) (by decide),
    find?_of_other sound (by decide) (by decide), find?_of_other sound (by decide) (by decide)]
  rfl

end ClientClass

end HubContract
