import HubContract.Data.Check
import HubContract.Proofs.Json.Plain

namespace HubContract

namespace Check

@[simp]
theorem map_ok (f : α → β) (a : α) : f <$> Check.ok a = .ok (f a) := rfl

@[simp]
theorem seq_ok (f : α → β) (a : α) : (Check.ok f <*> Check.ok a : Check β) = .ok (f a) := rfl

@[simp]
theorem under_ok (s : Step) (a : α) : (Check.ok a).under s = .ok a := rfl

-- Whether a check found nothing wrong.
def isOk : Check α → Bool
  | .ok _ => true
  | .bad _ => false

@[simp]
theorem isOk_map (f : α → β) (x : Check α) : (f <$> x).isOk = x.isOk := by
  cases x <;> rfl

-- A record is read only if every field of it is.
@[simp]
theorem isOk_seq (f : Check (α → β)) (x : Check α) : (f <*> x).isOk = (f.isOk && x.isOk) := by
  cases f <;> cases x <;> rfl

@[simp]
theorem isOk_under (s : Step) (x : Check α) : (x.under s).isOk = x.isOk := by
  cases x <;> rfl

end Check

namespace Json

@[simp]
theorem get?_nil (key : String) : (Json.object []).get? key = none := rfl

-- A later member of the same name hides an earlier one.
@[simp]
theorem get?_cons (k : String) (v : Json) (ms : List (String × Json)) (key : String) :
    (Json.object ((k, v) :: ms)).get? key =
      ((Json.object ms).get? key).or (if k = key then some v else none) := by
  rw [get?, get?, List.reverse_cons, List.find?_append, Option.map_or]
  by_cases same : k = key <;> simp [same]

end Json

namespace Data

variable {key name : String} {read : Data → Check α} {write : α → Json}

theorem eq_str_of_sameKey {d : Data} (same : sameKey d (.str key) = true) : d = .str key := by
  cases d <;> simp_all [sameKey, sameKey.number?]

theorem lookup_insertEntry (k : String) (v : Data) (entries : List (Data × Data)) :
    lookup key (insertEntry entries (.str k) v) =
      if k = key then some v else lookup key entries := by
  induction entries with
  | nil => simp [insertEntry, lookup, sameKey]
  | cons e rest ih =>
    obtain ⟨d, w⟩ := e
    rw [insertEntry]
    by_cases met : sameKey d (.str k) = true
    · obtain rfl := eq_str_of_sameKey met
      rw [if_pos met]
      by_cases same : k = key <;> simp [lookup, sameKey, same]
    · rw [if_neg met]
      by_cases here : sameKey d (.str key) = true
      · obtain rfl := eq_str_of_sameKey here
        have other : k ≠ key := fun h => met (by simp [sameKey, h])
        simp [lookup, sameKey, other]
      · simp only [lookup, List.find?_cons, here] at ih ⊢
        exact ih

-- What a record holds under a name is what was written there last.
theorem get?_ofJson (j : Json) (key : String) : (ofJson j).get? key = (j.get? key).map ofJson := by
  cases j with
  | object ms =>
    have found (entries : List (Data × Data)) :
        lookup key ((ofJsonMembers ms).foldl (fun acc m => insertEntry acc m.1 m.2) entries) =
          (((Json.object ms).get? key).map ofJson).or (lookup key entries) := by
      induction ms generalizing entries with
      | nil => rfl
      | cons m ms ih =>
        obtain ⟨k, v⟩ := m
        rw [ofJsonMembers, List.foldl_cons, ih, lookup_insertEntry, Json.get?_cons]
        cases (Json.object ms).get? key with
        | some j => rfl
        | none => by_cases same : k = key <;> simp [same]
    have nothing : lookup key [] = none := rfl
    have all := found []
    rw [nothing, Option.or_none] at all
    exact all
  | _ => rfl

@[simp]
theorem checkRecord_object (f : Data → Check α) (ms : List (String × Json)) :
    checkRecord f (ofJson (.object ms)) = f (ofJson (.object ms)) := rfl

@[simp]
theorem field_ofJson (j : Json) : (ofJson j).field name read =
    (match j.get? name with
      | some v => read (ofJson v)
      | none => .fail .missing).under (.field name) := by
  rw [field, get?_ofJson]
  cases j.get? name <;> rfl

@[simp]
theorem fieldOr_ofJson (j : Json) (absent : α) : (ofJson j).fieldOr name absent read =
    match j.get? name with
    | some v => (read (ofJson v)).under (.field name)
    | none => .ok absent := by
  rw [fieldOr, get?_ofJson]
  cases j.get? name <;> rfl

@[simp]
theorem checkString_str (s : String) : checkString (ofJson (.str s)) = .ok s := rfl

@[simp]
theorem checkBool_bool (b : Bool) : checkBool (ofJson (.bool b)) = .ok b := rfl

theorem checkWord_str {table : List (String × α)} {s : String} {a : α}
    (known : table.lookup s = some a) : checkWord table (ofJson (.str s)) = .ok a := by
  simp [checkWord, checkWritten, written?, ofJson, known]

theorem ofJsonItems_eq_map (xs : List Json) : ofJsonItems xs = xs.map ofJson := by
  induction xs with
  | nil => rfl
  | cons x xs ih => rw [ofJsonItems, ih, List.map_cons]

theorem ofJson_eq_null_iff {j : Json} : ofJson j = .null ↔ j = .null := by
  cases j with
  | null => exact ⟨fun _ => rfl, fun _ => rfl⟩
  | _ =>
    constructor
    · intro h
      cases h
    · intro h
      cases h

-- The values of a list are read in turn.
theorem checkList_ofList (as : List α) :
    checkList read (ofJson (.ofList write as)) = Check.each read 0 ((as.map write).map ofJson) := by
  rw [Json.ofList, ofJson, ofJsonItems_eq_map]
  rfl

theorem checkOptional_ofJson {j : Json} (given : j ≠ .null) :
    checkOptional read (ofJson j) = some <$> read (ofJson j) := by
  rw [checkOptional.eq_def]
  split
  next null => exact absurd (ofJson_eq_null_iff.mp null) given
  next => rfl

end Data

open Data

-- A value that is written without numbers out of reach, and of which reading restores all.
structure Restores (read : Data → Check α) (write : α → Json) (a : α) : Prop where
  plain : (write a).isPlain = true
  back : read (ofJson (write a)) = .ok a

namespace Restores

variable {read : Data → Check α} {write : α → Json} {as : List α} {o : Option α}

theorem finite {a : α} (h : Restores read write a) : (write a).isFinite = true :=
  (Json.isPlain_iff.mp h.plain).1

theorem short {a : α} (h : Restores read write a) : (write a).isShort = true :=
  (Json.isPlain_iff.mp h.plain).2

theorem string (s : String) : Restores checkString .str s := ⟨rfl, rfl⟩

theorem each_map (all : ∀ a ∈ as, read (ofJson (write a)) = .ok a) (n : Nat) :
    Check.each read n ((as.map write).map ofJson) = .ok as := by
  induction as generalizing n with
  | nil => rfl
  | cons a as ih =>
    obtain ⟨first, rest⟩ := List.forall_mem_cons.mp all
    rw [List.map_cons, List.map_cons, Check.each, first, ih rest]
    rfl

theorem list (all : ∀ a ∈ as, Restores read write a) :
    Restores (checkList read) (.ofList write) as where
  plain := Json.isPlain_ofList fun a mem => (all a mem).plain
  back := by
    rw [checkList_ofList]
    exact each_map (fun a mem => (all a mem).back) 0

-- No value may be written as null, which is what stands for none.
theorem option (given : ∀ a, write a ≠ .null) (all : ∀ a ∈ o, Restores read write a) :
    Restores (checkOptional read) (.ofOption write) o where
  plain := Json.isPlain_ofOption fun a mem => (all a mem).plain
  back := by
    cases o with
    | none => rfl
    | some a => rw [Json.ofOption, checkOptional_ofJson (given a), (all a rfl).back, Check.map_ok]

theorem strings (xs : List String) : Restores (checkList checkString) Json.strings xs :=
  list fun s _ => string s

theorem optionalString (o : Option String) :
    Restores (checkOptional checkString) (.ofOption .str) o :=
  option (fun _ h => by cases h) fun s _ => string s

theorem word {table : List (String × α)} {name : α → String} {a : α}
    (known : table.lookup (name a) = some a) :
    Restores (checkWord table) (fun a => .str (name a)) a :=
  ⟨rfl, checkWord_str known⟩

end Restores

-- A value whose numbers have digits, and of which reading restores all under a condition. Otherwise
-- what is written for it cannot be read.
structure RestoresIf (condition : Prop) (read : Data → Check α) (write : α → Json) (a : α) : Prop where
  finite : (write a).isFinite = true
  kept : condition → Restores read write a
  lost : ¬ condition → ((write a).isShort && (read (ofJson (write a))).isOk) = false

namespace RestoresIf

variable {condition : α → Prop} {read : Data → Check α} {write : α → Json} {as : List α} {o : Option α}

theorem isOk_each (n : Nat) : (Check.each read n ((as.map write).map ofJson)).isOk =
    as.all fun a => (read (ofJson (write a))).isOk := by
  induction as generalizing n with
  | nil => rfl
  | cons a as ih =>
    have both : (Check.each read n (((a :: as).map write).map ofJson)) =
        List.cons <$> (read (ofJson (write a))).under (.index n) <*>
          Check.each read (n + 1) ((as.map write).map ofJson) := rfl
    rw [both, Check.isOk_seq, Check.isOk_map, Check.isOk_under, ih, List.all_cons]

theorem list (all : ∀ a ∈ as, RestoresIf (condition a) read write a) :
    RestoresIf (∀ a ∈ as, condition a) (checkList read) (.ofList write) as where
  finite := by
    rw [Json.isFinite_ofList, List.all_eq_true]
    exact fun a mem => (all a mem).finite
  kept holds := .list fun a mem => (all a mem).kept (holds a mem)
  lost fails := by
    push Not at fails
    obtain ⟨a, mem, fails⟩ := fails
    rw [checkList_ofList, isOk_each, Json.isShort_ofList, Bool.and_eq_false_iff, List.all_eq_false,
      List.all_eq_false]
    rcases Bool.and_eq_false_iff.mp ((all a mem).lost fails) with long | bad
    · exact .inl ⟨a, mem, by simp [long]⟩
    · exact .inr ⟨a, mem, by simp [bad]⟩

theorem option (given : ∀ a, write a ≠ .null) (all : ∀ a ∈ o, RestoresIf (condition a) read write a) :
    RestoresIf (∀ a ∈ o, condition a) (checkOptional read) (.ofOption write) o where
  finite := by
    cases o with
    | none => rfl
    | some a => exact (all a rfl).finite
  kept holds := .option given fun a mem => (all a mem).kept (holds a mem)
  lost fails := by
    push Not at fails
    obtain ⟨a, rfl, fails⟩ := fails
    rw [Json.ofOption, checkOptional_ofJson (given a), Check.isOk_map]
    exact (all a rfl).lost fails

end RestoresIf

end HubContract
