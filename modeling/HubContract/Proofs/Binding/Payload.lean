import HubContract.Proofs.Binding.Fake
import HubContract.Proofs.Naming.Shape
import Mathlib.Data.List.DropRight

namespace HubContract

-- What is left of declared types without the longest run of one type at their end.
structure IsPayload (cancellationType : String) (declared payload : List String) : Prop where
  split : ∃ n, declared = payload ++ List.replicate n cancellationType
  longest : payload.getLast? ≠ some cancellationType

variable (cancellationType : String) (ps : List Parameter)

theorem withoutCancellation_eq_rdropWhile :
    withoutCancellation cancellationType ps = ps.rdropWhile (·.type = cancellationType) := rfl

theorem isPayload_withoutCancellation : IsPayload cancellationType (ps.map (·.type))
    ((withoutCancellation cancellationType ps).map (·.type)) where
  split := by
    let run := ps.rtakeWhile (·.type = cancellationType)
    have same : run.map (·.type) = List.replicate run.length cancellationType := by
      refine List.map_eq_replicate_iff.mpr fun p inside => ?_
      simpa using List.mem_rtakeWhile_imp inside
    refine ⟨run.length, ?_⟩
    rw [← same, ← List.map_append, withoutCancellation_eq_rdropWhile, List.rdropWhile_append_rtakeWhile]
  longest := by
    intro last
    obtain ⟨p, ends, type⟩ := Option.map_eq_some_iff.mp ((List.getLast?_map ..).symm.trans last)
    obtain ⟨some, rfl⟩ := List.mem_getLast?_eq_getLast ends
    exact List.rdropWhile_last_not (fun p : Parameter => p.type = cancellationType) ps some
      (decide_eq_true type)

-- Nothing is dropped twice.
theorem withoutCancellation_eq_self {ps : List Parameter}
    (longest : (ps.map (·.type)).getLast? ≠ some cancellationType) :
    withoutCancellation cancellationType ps = ps := by
  refine List.rdropWhile_eq_self_iff.mpr fun some type => longest ?_
  rw [List.getLast?_map, List.getLast?_eq_some_getLast some]
  simpa using type

theorem withoutCancellation_concat (name : String) :
    withoutCancellation cancellationType (ps ++ [⟨name, cancellationType⟩]) =
      withoutCancellation cancellationType ps :=
  List.rdropWhile_concat_pos _ _ _ (by simp)

-- The names that they have in generated code.
def payloadNames : List String :=
  Naming.uniqueNames (((withoutCancellation cancellationType ps).map (·.name)).map Naming.safeIdentifier)

theorem length_payloadNames :
    (payloadNames cancellationType ps).length = (withoutCancellation cancellationType ps).length := by
  simp [payloadNames]

theorem payloadParameters_eq_map : payloadParameters ps cancellationType =
    ((payloadNames cancellationType ps).zip (withoutCancellation cancellationType ps)).map
      fun (name, p) => ⟨name, p.type⟩ := by
  rw [payloadParameters, payloadNames, List.map_map]
  exact (List.map_uncurry_zip_eq_zipWith ..).symm

theorem map_type_payloadParameters :
    (payloadParameters ps cancellationType).map (·.type) =
      (withoutCancellation cancellationType ps).map (·.type) := by
  have kept := List.map_snd_zip (Nat.le_of_eq (length_payloadNames cancellationType ps).symm)
  rw [payloadParameters_eq_map, List.map_map]
  conv_rhs => rw [← kept, List.map_map]
  rfl

-- They are told apart by these names, and none of them has one that wrappers use themselves.

theorem map_name_payloadParameters :
    (payloadParameters ps cancellationType).map (·.name) = payloadNames cancellationType ps := by
  rw [payloadParameters_eq_map, List.map_map]
  exact List.map_fst_zip (Nat.le_of_eq (length_payloadNames cancellationType ps))

theorem nodup_name_payloadParameters :
    ((payloadParameters ps cancellationType).map (·.name)).Nodup := by
  rw [map_name_payloadParameters]
  exact Naming.nodup_uniqueNames _

theorem isParameterName_of_mem {p : Parameter} (inside : p ∈ payloadParameters ps cancellationType) :
    Naming.IsParameterName p.name := by
  have given := List.mem_map_of_mem (f := Parameter.name) inside
  rw [map_name_payloadParameters] at given
  exact Naming.isParameterName_of_mem_uniqueNames given

theorem name_not_mem_reserved {p : Parameter} (inside : p ∈ payloadParameters ps cancellationType) :
    p.name ∉ Naming.reserved := (isParameterName_of_mem cancellationType ps inside).free.2

-- Such a name is taken from a parameter that is declared with it, unless it could be one that was made.
theorem mem_payloadNames_iff {s : String} (unmarked : '_' ∉ s.toList) (kept : Naming.safeIdentifier s = s) :
    s ∈ payloadNames cancellationType ps ↔ ∃ p ∈ withoutCancellation cancellationType ps, p.name = s := by
  rw [payloadNames, Naming.mem_uniqueNames_iff unmarked]
  simp only [List.mem_map, exists_exists_and_eq_and, Naming.safeIdentifier_eq_iff unmarked kept]

theorem isPayload_payloadParameters : IsPayload cancellationType (ps.map (·.type))
    ((payloadParameters ps cancellationType).map (·.type)) := by
  rw [map_type_payloadParameters]
  exact isPayload_withoutCancellation cancellationType ps

-- Each stands for a declared one and is called like that one, but for repairs and for a suffix.
theorem forall₂_payloadParameters :
    List.Forall₂ (fun p q : Parameter => q.type = p.type ∧ (q.name = Naming.safeIdentifier p.name ∨
        ∃ k, q.name = Naming.suffixed (Naming.safeIdentifier p.name) k))
      (withoutCancellation cancellationType ps) (payloadParameters ps cancellationType) := by
  have zipped {payload : List Parameter} {names : List String} {R : Parameter → String → Prop}
      (each : List.Forall₂ R payload names) :
      List.Forall₂ (fun p q : Parameter => q.type = p.type ∧ R p q.name) payload
        (List.zipWith (fun name p => (⟨name, p.type⟩ : Parameter)) names payload) := by
    induction each with
    | nil => exact .nil
    | cons first _ ih => exact .cons ⟨rfl, first⟩ ih
  exact zipped (List.forall₂_map_left_iff.mp (Naming.forall₂_uniqueNames _))

-- Whatever parameters are declared, those of the cancellation type at their end are left out, and of the others
-- each is handed on with its type, in order. The names that they get for that are distinct, and each is an ASCII
-- identifier, no keyword and nothing that wrappers use themselves.
theorem payloadParameters_wellNamed (cancellationType : String) (ps : List Parameter) :
    let payload := payloadParameters ps cancellationType
    (∃ declared trailing, ps = declared ++ trailing ∧ (∀ p ∈ trailing, p.type = cancellationType) ∧
      (∀ p ∈ declared.getLast?, p.type ≠ cancellationType) ∧
      List.Forall₂ (fun p q : Parameter => q.type = p.type ∧ (q.name = Naming.safeIdentifier p.name ∨
        ∃ k, q.name = Naming.suffixed (Naming.safeIdentifier p.name) k)) declared payload) ∧
    (payload.map (·.name)).Nodup ∧
    ∀ q ∈ payload, Text.isIdentifier q.name ∧ (∀ c ∈ q.name.toList, c.toNat < 128) ∧
      Text.isKeyword q.name = false ∧ q.name ∉ Naming.reserved := by
  intro payload
  refine ⟨⟨withoutCancellation cancellationType ps, ps.rtakeWhile (·.type = cancellationType), ?_, ?_, ?_,
    forall₂_payloadParameters cancellationType ps⟩, nodup_name_payloadParameters cancellationType ps,
    fun q inside => ?_⟩
  · rw [withoutCancellation_eq_rdropWhile, List.rdropWhile_append_rtakeWhile]
  · exact fun p inside => by simpa using List.mem_rtakeWhile_imp inside
  · intro p last type
    refine (isPayload_withoutCancellation cancellationType ps).longest ?_
    rw [List.getLast?_map, last, Option.map_some, type]
  · have fit := isParameterName_of_mem cancellationType ps inside
    refine ⟨?_, fun c there => Naming.toNat_lt_of_isPlain (fit.plain c there), fit.free⟩
    rw [Text.isIdentifier, fit.shaped, fit.free.1]
    rfl

-- Repairs can make names alike.
example : payloadParameters [⟨"from", "str"⟩, ⟨"from_", "str"⟩, ⟨"1st", "int"⟩, ⟨"self", "Token"⟩,
    ⟨"token", "Token"⟩] "Token" = [⟨"from_", "str"⟩, ⟨"from__2", "str"⟩, ⟨"_1st", "int"⟩] := by
  decide +kernel

namespace ClientBinding

variable (k : Method) (base : String)

-- What a descriptor has besides payload is what was put behind it.

theorem payload_pushDescriptor : withoutCancellation cancellationType
    (pushDescriptor (pushMember cancellationType k base)).parameters =
      (pushMember cancellationType k base).parameters :=
  withoutCancellation_eq_self _ (isPayload_payloadParameters cancellationType k.parameters).longest

theorem payload_invokeDescriptor : withoutCancellation cancellationType
    (invokeDescriptor cancellationType (invokeMember cancellationType k base)).parameters =
      (invokeMember cancellationType k base).parameters :=
  (withoutCancellation_concat cancellationType _ "cancellation").trans
    (withoutCancellation_eq_self _ (isPayload_payloadParameters cancellationType k.parameters).longest)

-- What a wrapper counts is what its method was declared with, less the cancellation at its end.
theorem payloadArity_invokeDescriptor :
    (invokeDescriptor cancellationType (invokeMember cancellationType k base)).payloadArity
      cancellationType = (withoutCancellation cancellationType k.parameters).length := by
  have types := congrArg List.length (map_type_payloadParameters cancellationType k.parameters)
  rw [List.length_map, List.length_map] at types
  rw [MemberDescriptor.payloadArity, payload_invokeDescriptor]
  exact types

variable {v : Validated} {o : Options}

-- Every member is made of a method.

theorem exists_of_mem_push {m : PushMember} (inside : m ∈ (synthesize v o).push) :
    ∃ k base, m = pushMember o.cancellationType k base := by
  obtain ⟨⟨k, base⟩, -, rfl⟩ := List.mem_map.mp inside
  exact ⟨k, base, rfl⟩

theorem exists_of_mem_invoke {m : InvokeMember} (inside : m ∈ (synthesize v o).invoke) :
    ∃ k base, m = invokeMember o.cancellationType k base := by
  obtain ⟨⟨k, base⟩, -, rfl⟩ := List.mem_map.mp inside
  exact ⟨k, base, rfl⟩

-- A class counts the parameters that the member has.
theorem payloadArity_of_mem_invoke {m : InvokeMember} (inside : m ∈ (synthesize v o).invoke) :
    (invokeDescriptor o.cancellationType m).payloadArity o.cancellationType = m.parameters.length := by
  obtain ⟨k, base, rfl⟩ := exists_of_mem_invoke inside
  rw [MemberDescriptor.payloadArity, payload_invokeDescriptor]

end ClientBinding

-- The parameters that a class counts are the payload ones.
theorem MemberDescriptor.take_payloadArity (d : MemberDescriptor) :
    d.parameters.take (d.payloadArity cancellationType) =
      withoutCancellation cancellationType d.parameters :=
  (List.prefix_iff_eq_take.mp (List.rdropWhile_prefix ..)).symm

namespace ClientBinding

-- Each method has a member, whose parameters are the payload of that method; and these are the parameters
-- that a class counts in its descriptor, and the ones that a fake records, if there is a fake.
theorem payload_throughout (v : Validated) (o : Options) :
    let b := synthesize v o
    List.Forall₂ (fun (w : WalkedMethod) (m : PushMember) => m.wireName = w.method.name ∧
      IsPayload o.cancellationType w.method.parameterTypes (m.parameters.map (·.type))) v.push b.push ∧
    List.Forall₂ (fun (w : WalkedMethod) (m : InvokeMember) => m.wireName = w.method.name ∧
      IsPayload o.cancellationType w.method.parameterTypes (m.parameters.map (·.type)))
      v.invoke b.invoke ∧
    b.manifest.push.map (fun d => (d.wireName,
        d.parameters.take (d.payloadArity b.manifest.cancellationType))) =
      b.push.map (fun m => (m.wireName, m.parameters)) ∧
    b.manifest.invoke.map (fun d => (d.wireName,
        d.parameters.take (d.payloadArity b.manifest.cancellationType))) =
      b.invoke.map (fun m => (m.wireName, m.parameters)) ∧
    ∀ lead f, b.manifest.synthesizeFake lead = .ok f →
      f.push.map (fun p => (p.wireName, p.parameters)) =
        b.push.map (fun m => (m.wireName, m.parameters)) ∧
      f.invoke.map (fun p => (p.wireName, p.parameters)) =
        b.invoke.map (fun m => (m.wireName, m.parameters)) := by
  intro b
  have push (recorded : MemberDescriptor → String × List Parameter)
      (payload : ∀ d, recorded d = (d.wireName, withoutCancellation o.cancellationType d.parameters)) :
      b.manifest.push.map recorded = b.push.map fun m => (m.wireName, m.parameters) := by
    have members : b.manifest.push = b.push.map pushDescriptor := rfl
    rw [members, List.map_map]
    refine List.map_congr_left fun m inside => ?_
    obtain ⟨k, base, rfl⟩ := exists_of_mem_push inside
    exact (payload _).trans (congrArg (Prod.mk _) (payload_pushDescriptor ..))
  have invoke (recorded : MemberDescriptor → String × List Parameter)
      (payload : ∀ d, recorded d = (d.wireName, withoutCancellation o.cancellationType d.parameters)) :
      b.manifest.invoke.map recorded = b.invoke.map fun m => (m.wireName, m.parameters) := by
    have members : b.manifest.invoke = b.invoke.map (invokeDescriptor o.cancellationType) := rfl
    rw [members, List.map_map]
    refine List.map_congr_left fun m inside => ?_
    obtain ⟨k, base, rfl⟩ := exists_of_mem_invoke inside
    exact (payload _).trans (congrArg (Prod.mk _) (payload_invokeDescriptor ..))
  refine ⟨forall₂_based fun w base _ => ⟨rfl, isPayload_payloadParameters ..⟩,
    forall₂_based fun w base _ => ⟨rfl, isPayload_payloadParameters ..⟩,
    push _ fun d => by rw [MemberDescriptor.take_payloadArity]; rfl,
    invoke _ fun d => by rw [MemberDescriptor.take_payloadArity]; rfl, fun lead f made => ?_⟩
  obtain ⟨rfl, -⟩ := Manifest.of_synthesizeFake made
  dsimp only
  rw [List.map_map, List.map_map]
  exact ⟨push _ fun d => rfl, invoke _ fun d => rfl⟩

-- A cancellation parameter that other parameters follow is payload; those at the end are not.
def pier : Validated where
  contract := { name := "IPier" }
  push := [{ role := .push, provenance := "IPier", method := { name := "Moored", parameters := [
    ⟨"token", "CancellationToken"⟩, ⟨"berth", "int"⟩, ⟨"first", "CancellationToken"⟩,
    ⟨"second", "CancellationToken"⟩] } }]
  invoke := [{ role := .invoke, provenance := "IPier", method := { name := "Guide", parameters := [
    ⟨"ship", "str"⟩, ⟨"token", "CancellationToken"⟩] } }]

theorem payload_throughout_pier : ∃ f, (synthesize pier {}).manifest.synthesizeFake "Fake" = .ok f ∧
    f.push.map (fun p => (p.wireName, p.parameters)) =
      [("Moored", [⟨"token", "CancellationToken"⟩, ⟨"berth", "int"⟩])] ∧
    f.invoke.map (fun p => (p.wireName, p.parameters)) = [("Guide", [⟨"ship", "str"⟩])] := by
  cases made : (synthesize pier {}).manifest.synthesizeFake "Fake" with
  | ok f =>
    obtain ⟨push, invoke⟩ := (payload_throughout pier {}).2.2.2.2 "Fake" f made
    refine ⟨f, rfl, push.trans ?_, invoke.trans ?_⟩ <;> decide +kernel
  | error e =>
    have accepted : ((synthesize pier {}).manifest.synthesizeFake "Fake").isOk := by decide +kernel
    rw [made] at accepted
    cases accepted

end ClientBinding

end HubContract
