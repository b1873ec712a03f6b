import HubContract.Contract.Interchange
import HubContract.Proofs.Data.Reading

namespace HubContract

open HubContract.Data

theorem Parameter.restores (p : Parameter) : Restores check toJson p where
  plain := by simp [toJson]
  back := by simp [check, toJson]

theorem Parameter.restores_list (ps : List Parameter) :
    Restores (checkList check) (.ofList toJson) ps := .list fun p _ => p.restores

theorem ReturnType.restores (r : ReturnType) : Restores check toJson r := by
  have kind : Restores (checkWord (namesOf ReturnKind.all ReturnKind.name)) (.str ·.name) r.kind :=
    .word (by cases r.kind <;> rfl)
  have name := Restores.optionalString r.typeName
  exact ⟨by simp [toJson, name.plain], by simp [check, toJson, kind.back, name.back]⟩

theorem Method.restores (m : Method) : Restores check toJson m := by
  have parameters := Parameter.restores_list m.parameters
  have returns := m.returns.restores
  exact ⟨by simp [toJson, parameters.plain, returns.plain],
    by simp [check, toJson, parameters.back, returns.back]⟩

theorem Method.restores_list (ms : List Method) : Restores (checkList check) (.ofList toJson) ms :=
  .list fun m _ => m.restores

theorem Role.restores (r : Role) : Restores check (.str ·.name) r := .word (by cases r <;> rfl)

theorem WalkedMethod.restores (w : WalkedMethod) : Restores check toJson w := by
  have method := w.method.restores
  exact ⟨by simp [toJson, method.plain], by simp [check, toJson, method.back, w.role.restores.back]⟩

theorem WalkedMethod.restores_list (ws : List WalkedMethod) :
    Restores (checkList check) (.ofList toJson) ws := .list fun w _ => w.restores

theorem Location.restores (l : Location) : Restores check toJson l := by
  have method := Restores.optionalString l.method
  exact ⟨by simp [toJson, method.plain], by simp [check, toJson, method.back]⟩

theorem Fix.restores (f : Fix) : Restores check toJson f := by
  have kind : Restores (checkWord (namesOf FixKind.all FixKind.name)) (.str ·.name) f.kind :=
    .word (by cases f.kind <;> rfl)
  exact ⟨by simp [toJson], by simp [check, toJson, kind.back]⟩

theorem Diagnostic.restores (d : Diagnostic) : Restores check toJson d := by
  have code : Restores (checkWord (namesOf Code.all Code.name)) (.str ·.name) d.code :=
    .word (by cases d.code <;> rfl)
  have level : Restores (checkWord (namesOf Level.all Level.name)) (.str ·.name) d.level :=
    .word (by cases d.level <;> rfl)
  have location : Restores (checkOptional Location.check) (.ofOption Location.toJson) d.location :=
    .option (fun _ h => by cases h) fun l _ => l.restores
  have fixes : Restores (checkList Fix.check) (.ofList Fix.toJson) d.fixes :=
    .list fun f _ => f.restores
  exact ⟨by simp [toJson, location.plain, fixes.plain],
    by simp [check, toJson, code.back, level.back, location.back, fixes.back]⟩

theorem Diagnostic.restores_list (ds : List Diagnostic) :
    Restores (checkList check) (.ofList toJson) ds := .list fun d _ => d.restores

theorem TraceEntry.restores (t : TraceEntry) : Restores check toJson t := by
  have before := Restores.optionalString t.before
  have after := Restores.optionalString t.after
  have ids := Restores.strings t.affectedIds
  exact ⟨by simp [toJson, before.plain, after.plain, ids.plain],
    by simp [check, toJson, before.back, after.back, ids.back]⟩

namespace MethodSet

mutual

-- Whether every method in a set, and in those that it extends, keeps its owner when it is claimed.
def IsClaimed : MethodSet → Prop
  | ⟨name, methods, ancestors⟩ =>
    (∀ m ∈ methods, m.claimedBy name = m) ∧ AllClaimed ancestors

def AllClaimed : List MethodSet → Prop
  | [] => True
  | s :: rest => IsClaimed s ∧ AllClaimed rest

end

theorem map_claimedBy {name : String} {ms : List Method}
    (claimed : ∀ m ∈ ms, m.claimedBy name = m) : ms.map (Method.claimedBy name) = ms := by
  rw [List.map_congr_left claimed, List.map_id']

mutual

theorem isPlain_toJson : (s : MethodSet) → s.toJson.isPlain = true
  | ⟨name, methods, ancestors⟩ => by
    have own := (Method.restores_list methods).plain
    have others := isPlain_allToJson ancestors
    simp [toJson, own, others]

theorem isPlain_allToJson : (sets : List MethodSet) → (Json.array (allToJson sets)).isPlain = true
  | [] => rfl
  | s :: rest => by
    obtain ⟨finite, short⟩ := Json.isPlain_iff.mp (isPlain_toJson s)
    obtain ⟨finite', short'⟩ := Json.isPlain_iff.mp (isPlain_allToJson rest)
    exact Json.isPlain_iff.mpr
      ⟨Bool.and_eq_true_iff.mpr ⟨finite, finite'⟩, Bool.and_eq_true_iff.mpr ⟨short, short'⟩⟩

end

mutual

-- A set is read with as much room as it is nested.
theorem checkWithin_toJson : (s : MethodSet) → (room : Nat) → s.IsClaimed → s.nesting ≤ room →
    checkWithin room (ofJson s.toJson) = .ok s
  | ⟨name, methods, ancestors⟩, room, claimed, deep => by
    rw [nesting] at deep
    obtain ⟨room, rfl⟩ : ∃ n, room = n + 1 := ⟨room - 1, by omega⟩
    have own := map_claimedBy claimed.1
    have others : checkList (checkWithin room) (ofJson (.array (allToJson ancestors))) =
        .ok ancestors := each_toJson ancestors room 0 claimed.2 (Nat.le_of_succ_le_succ deep)
    have methods := (Method.restores_list methods).back
    simp [checkWithin, checkFields, toJson, methods, others, owned, own]

theorem each_toJson : (sets : List MethodSet) → (room n : Nat) → AllClaimed sets →
    nestingAll sets ≤ room → Check.each (checkWithin room) n (ofJsonItems (allToJson sets)) = .ok sets
  | [], _, _, _, _ => rfl
  | s :: rest, room, n, claimed, deep => by
    have ⟨first, others⟩ := Nat.max_le.mp deep
    rw [allToJson, ofJsonItems, Check.each, checkWithin_toJson s room claimed.1 first,
      each_toJson rest room (n + 1) claimed.2 others]
    rfl

end

mutual

-- Each set that stands inside of another one also stands deeper in what is written.
theorem nesting_le_toJson : (s : MethodSet) → s.nesting ≤ s.toJson.nesting
  | ⟨name, methods, ancestors⟩ => by
    have inside : (Json.array (allToJson ancestors)).nesting <
        (toJson ⟨name, methods, ancestors⟩).nesting := by
      rw [toJson]
      exact Json.nesting_lt_object (m := ("ancestors", _)) (by simp)
    have others := nestingAll_le_allToJson ancestors
    rw [nesting]
    omega

theorem nestingAll_le_allToJson : (sets : List MethodSet) →
    nestingAll sets ≤ (Json.array (allToJson sets)).nesting
  | [] => Nat.le_refl 0
  | s :: rest => by
    have first := nesting_le_toJson s
    have others := nestingAll_le_allToJson rest
    have below : (Json.array (allToJson rest)).nesting ≤ Json.nestingItems (allToJson rest) + 1 := by
      cases allToJson rest with
      | nil => exact Nat.zero_le _
      | cons x xs => exact Nat.le_refl _
    rw [nestingAll, allToJson, Json.nesting, Json.nestingItems]
    omega

end

theorem restores {s : MethodSet} (claimed : s.IsClaimed) (deep : s.nesting ≤ maxNesting) :
    Restores checkNested toJson s :=
  ⟨s.isPlain_toJson, s.checkWithin_toJson maxNesting claimed deep⟩

end MethodSet

namespace Contract

-- All sets that stand in a contract.
def sets (c : Contract) : List MethodSet := c.pushSet.toList ++ c.invokeSet.toList ++ c.ancestors

-- The same of a contract: of its own methods and of all its sets.
structure IsClaimed (c : Contract) : Prop where
  own : ∀ m ∈ c.methods, m.claimedBy c.name = m
  sets : ∀ s ∈ c.sets, s.IsClaimed

variable {c : Contract}

theorem isPlain_toJson (c : Contract) : c.toJson.isPlain = true := by
  have side (o : Option MethodSet) : (Json.ofOption MethodSet.toJson o).isPlain = true :=
    Json.isPlain_ofOption fun s _ => s.isPlain_toJson
  have ancestors : (Json.ofList MethodSet.toJson c.ancestors).isPlain = true :=
    Json.isPlain_ofList fun s _ => s.isPlain_toJson
  have friendly := (Restores.optionalString c.friendlyName).plain
  have methods := (Method.restores_list c.methods).plain
  simp [toJson, friendly, side, methods, ancestors]

theorem restores (claimed : c.IsClaimed) (writable : c.isWritable = true) :
    Restores check toJson c := by
  have set (s : MethodSet) (mem : s ∈ c.sets) : Restores MethodSet.checkNested MethodSet.toJson s :=
    MethodSet.restores (claimed.sets s mem) (of_decide_eq_true (List.all_eq_true.mp writable s mem))
  have side (o : Option MethodSet) (sub : ∀ s ∈ o, s ∈ c.sets) :
      Restores (checkOptional MethodSet.checkNested) (.ofOption MethodSet.toJson) o :=
    .option (fun s h => by cases s; cases h) fun s mem => set s (sub s mem)
  have push := side c.pushSet fun s mem => by simp [sets, Option.mem_def.mp mem]
  have invoke := side c.invokeSet fun s mem => by simp [sets, Option.mem_def.mp mem]
  have ancestors : Restores (checkList MethodSet.checkNested) (.ofList MethodSet.toJson) c.ancestors :=
    .list fun s mem => set s (by simp [sets, mem])
  have friendly := Restores.optionalString c.friendlyName
  have methods := Method.restores_list c.methods
  have own := MethodSet.map_claimedBy claimed.own
  refine ⟨c.isPlain_toJson, ?_⟩
  simp [check, toJson, friendly.back, push.back, invoke.back, methods.back, ancestors.back, owned, own]

-- No set in a contract is nested deeper than the contract is when it is written.
theorem isWritable_of_nesting (deep : c.toJson.nesting ≤ MethodSet.maxNesting) :
    c.isWritable = true := by
  have push : (Json.ofOption MethodSet.toJson c.pushSet).nesting < c.toJson.nesting := by
    rw [toJson]
    exact Json.nesting_lt_object (m := ("push_set", .ofOption MethodSet.toJson c.pushSet)) (by simp)
  have invoke : (Json.ofOption MethodSet.toJson c.invokeSet).nesting < c.toJson.nesting := by
    rw [toJson]
    exact Json.nesting_lt_object (m := ("invoke_set", .ofOption MethodSet.toJson c.invokeSet)) (by simp)
  have ancestors : (Json.ofList MethodSet.toJson c.ancestors).nesting < c.toJson.nesting := by
    rw [toJson]
    exact Json.nesting_lt_object (m := ("ancestors", .ofList MethodSet.toJson c.ancestors)) (by simp)
  refine List.all_eq_true.mpr fun s mem => decide_eq_true ?_
  have set := s.nesting_le_toJson
  rcases List.mem_append.mp mem with mem | mem
  · rcases List.mem_append.mp mem with mem | mem
    · have same := Json.nesting_of_mem_option (f := MethodSet.toJson) (Option.mem_toList.mp mem)
      omega
    · have same := Json.nesting_of_mem_option (f := MethodSet.toJson) (Option.mem_toList.mp mem)
      omega
  · have inside := Json.nesting_lt_ofList (f := MethodSet.toJson) mem
    omega

end Contract

end HubContract
