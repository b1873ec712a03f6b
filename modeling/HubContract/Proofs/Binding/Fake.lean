import HubContract.Proofs.Client.Class
import HubContract.Text.Order
import Mathlib.Data.List.Nodup

namespace HubContract

namespace Text

variable {xs : List String} {x : String}

-- Texts that occur repeatedly: there are none exactly if all are distinct.
theorem mem_distinct_iff : x ∈ distinct xs ↔ x ∈ xs := by
  have all (acc : List String) :
      x ∈ xs.foldl (fun acc x => if acc.contains x then acc else acc ++ [x]) acc ↔
        x ∈ acc ∨ x ∈ xs := by
    induction xs generalizing acc with
    | nil => simp
    | cons y ys ih =>
      rw [List.foldl_cons, ih]
      by_cases known : y ∈ acc <;> by_cases same : x = y <;> simp_all
  exact (all []).trans (by simp)

theorem sorted_eq_nil_iff : sorted xs = [] ↔ xs = [] := by
  cases xs with
  | nil => simp [sorted]
  | cons x xs =>
    have grows (s : String) (ts : List String) : insertSorted s ts ≠ [] := by
      cases ts with
      | nil => simp [insertSorted]
      | cons t ts =>
        rw [insertSorted]
        split <;> simp
    exact iff_of_false (grows x _) (List.cons_ne_nil _ _)

theorem isEmpty_repeated_iff : (repeated xs).isEmpty ↔ xs.Nodup := by
  rw [repeated, List.isEmpty_iff, sorted_eq_nil_iff, List.filter_eq_nil_iff, List.nodup_iff_count_le_one]
  simp only [mem_distinct_iff, decide_eq_true_eq, Nat.not_lt]
  refine ⟨fun few x => ?_, fun few x _ => few x⟩
  by_cases inside : x ∈ xs
  · exact few x inside
  · simp [List.count_eq_zero_of_not_mem inside]

end Text

open HubContract.Text

namespace Manifest

variable {m : Manifest} {lead : String} {f : FakeBinding}

-- What is known of a manifest for which a fake was made.
theorem of_synthesizeFake (made : m.synthesizeFake lead = .ok f) :
    f = ⟨lead ++ m.bindingName, m.bindingName, m.bindingModule, m.invoke.map m.fakeInvokeMember,
      m.push.map m.fakePushMember⟩ ∧
    (f.attributeNames ++ m.attributes).Nodup ∧ (m.push.map (·.wireName)).Nodup ∧
    (m.invoke.map (·.wireName)).Nodup := by
  unfold synthesizeFake at made
  cases checked : m.verify with
  | error e =>
    rw [checked] at made
    cases made
  | ok _ =>
    rw [checked] at made
    simp only [bind, Except.bind] at made
    split at made
    case isFalse => cases made
    case isTrue apart =>
      cases made
      refine ⟨rfl, isEmpty_repeated_iff.mp apart, ?_⟩
      simp only [verify, bind, Except.bind] at checked
      split at checked
      case isTrue => cases checked
      split at checked
      case h_1 => cases checked
      split at checked
      case h_1 => cases checked
      split at checked
      case isTrue => cases checked
      split at checked
      case isTrue => cases checked
      case isFalse known =>
        obtain ⟨push, invoke⟩ := not_or.mp known
        exact ⟨isEmpty_repeated_iff.mp (by simpa using push),
          isEmpty_repeated_iff.mp (by simpa using invoke)⟩

theorem forM_eq_ok {ds : List MemberDescriptor} {check : MemberDescriptor → Except ManifestError Unit}
    (each : ∀ d ∈ ds, check d = .ok ()) : ds.forM check = .ok () := by
  induction ds with
  | nil => rfl
  | cons d ds ih =>
    show (check d >>= fun _ => ds.forM check) = .ok ()
    rw [each d List.mem_cons_self]
    exact ih fun d' later => each d' (List.mem_cons_of_mem _ later)

-- Where nothing else is wrong, only wire names can be.
theorem verify_eq (version : m.version = manifestVersion)
    (push : ∀ d ∈ m.push, m.checkMember .push d = .ok ())
    (invoke : ∀ d ∈ m.invoke, m.checkMember .invoke d = .ok ()) (distinct : m.attributes.Nodup) :
    m.verify = if (m.push.map (·.wireName)).Nodup ∧ (m.invoke.map (·.wireName)).Nodup then .ok ()
      else .error (.duplicateWireNames m.bindingName) := by
  have once : (repeated m.attributes).isEmpty := isEmpty_repeated_iff.mpr distinct
  simp only [verify, version, forM_eq_ok push, forM_eq_ok invoke, once, bind, Except.bind]
  simp only [← isEmpty_repeated_iff]
  cases (repeated (m.push.map (·.wireName))).isEmpty <;>
    cases (repeated (m.invoke.map (·.wireName))).isEmpty <;> rfl

end Manifest

namespace ClientBinding

variable (v : Validated) (o : Options)

theorem thunkName_ne_empty (base : String) : Naming.thunkName base ≠ "" := by
  intro empty
  have first := Naming.ends_thunkName base
  rw [empty] at first
  nomatch first

-- Whatever methods are called, a synthesized manifest is taken for what it is: it is accepted if the
-- push methods have distinct names and so do the invoke methods, and else it is refused because of
-- their wire names, never because of its version, or the side, the handler or the attribute of a member.
theorem verify_synthesize : (synthesize v o).manifest.verify =
    if (v.push.map (·.method.name)).Nodup ∧ (v.invoke.map (·.method.name)).Nodup then .ok ()
    else .error (.duplicateWireNames v.contract.bindingName) := by
  rw [← map_wireName_push v o, ← map_wireName_invoke v o]
  refine Manifest.verify_eq rfl (fun d inside => ?_) (fun d inside => ?_)
    (nodup_attributes_synthesize v o)
  · simp only [synthesize, List.mem_map] at inside
    obtain ⟨_, ⟨b, -, rfl⟩, rfl⟩ := inside
    simp [Manifest.checkMember, pushDescriptor, pushMember, thunkName_ne_empty]
  · simp only [synthesize, List.mem_map] at inside
    obtain ⟨_, ⟨b, -, rfl⟩, rfl⟩ := inside
    simp [Manifest.checkMember, invokeDescriptor]

end ClientBinding

end HubContract
