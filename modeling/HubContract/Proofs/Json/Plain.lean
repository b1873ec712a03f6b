import HubContract.Proofs.Json.RoundTrip

namespace HubContract.Json

open HubContract.Text

-- Whether every number has digits, and not too many of them.
def isPlain (j : Json) : Bool := j.isFinite && j.isShort

variable {j v : Json} {k : String} {ms : List (String × Json)} {f : α → Json} {n : Nat}

theorem isPlain_iff : j.isPlain = true ↔ j.isFinite = true ∧ j.isShort = true := Bool.and_eq_true_iff

@[simp]
theorem isPlain_bool (b : Bool) : isPlain (.bool b) = true := rfl

@[simp]
theorem isPlain_str (s : String) : isPlain (.str s) = true := rfl

@[simp]
theorem isFinite_str (s : String) : isFinite (.str s) = true := rfl

@[simp]
theorem isFinite_nil : isFinite (.object []) = true := rfl

@[simp]
theorem isFinite_cons :
    isFinite (.object ((k, v) :: ms)) = (v.isFinite && isFinite (.object ms)) := rfl

@[simp]
theorem isShort_nil : isShort (.object []) = true := rfl

@[simp]
theorem isShort_cons :
    isShort (.object ((k, v) :: ms)) = (v.isShort && isShort (.object ms)) := rfl

@[simp]
theorem isPlain_nil : isPlain (.object []) = true := rfl

@[simp]
theorem isPlain_cons :
    isPlain (.object ((k, v) :: ms)) = (v.isPlain && isPlain (.object ms)) := by
  rw [isPlain, isPlain, isPlain, isFinite_cons, isShort_cons, Bool.and_assoc, Bool.and_assoc,
    Bool.and_left_comm (isFinite (.object ms))]

@[simp]
theorem isFinite_ofList (as : List α) : (ofList f as).isFinite = as.all fun a => (f a).isFinite := by
  rw [ofList, isFinite]
  induction as with
  | nil => rfl
  | cons a as ih => rw [List.map_cons, isFiniteItems, ih, List.all_cons]

@[simp]
theorem isShort_ofList (as : List α) : (ofList f as).isShort = as.all fun a => (f a).isShort := by
  rw [ofList, isShort]
  induction as with
  | nil => rfl
  | cons a as ih => rw [List.map_cons, isShortItems, ih, List.all_cons]

theorem isPlain_ofList {as : List α} (all : ∀ a ∈ as, (f a).isPlain = true) :
    (ofList f as).isPlain = true := by
  rw [isPlain_iff, isFinite_ofList, isShort_ofList, List.all_eq_true, List.all_eq_true]
  exact ⟨fun a mem => (isPlain_iff.mp (all a mem)).1, fun a mem => (isPlain_iff.mp (all a mem)).2⟩

theorem isPlain_ofOption {o : Option α} (all : ∀ a ∈ o, (f a).isPlain = true) :
    (ofOption f o).isPlain = true := by
  cases o with
  | none => rfl
  | some a => exact all a rfl

theorem isFinite_ofFloat (x : Number.Binary64) : (ofFloat x).isFinite = true := by
  cases x <;> rfl

theorem isShort_ofFloat (x : Number.Binary64) : (ofFloat x).isShort = true := by
  cases x <;> rfl

@[simp]
theorem nesting_str (s : String) : nesting (.str s) = 0 := rfl

theorem nestingItems_le_iff {xs : List Json} : nestingItems xs ≤ n ↔ ∀ x ∈ xs, x.nesting ≤ n := by
  induction xs with
  | nil => simp [nestingItems]
  | cons x xs ih => rw [nestingItems, Nat.max_le, ih, List.forall_mem_cons]

theorem nestingMembers_le_iff : nestingMembers ms ≤ n ↔ ∀ m ∈ ms, m.2.nesting ≤ n := by
  induction ms with
  | nil => simp [nestingMembers]
  | cons m ms ih => rw [nestingMembers, Nat.max_le, ih, List.forall_mem_cons]

-- A record is one level deeper than what is in it, and so is a list.
theorem nesting_object_le (all : ∀ m ∈ ms, m.2.nesting ≤ n) : nesting (.object ms) ≤ n + 1 := by
  cases ms with
  | nil => exact Nat.zero_le _
  | cons m ms => exact Nat.succ_le_succ (nestingMembers_le_iff.mpr all)

theorem nesting_lt_object {m : String × Json} (mem : m ∈ ms) :
    m.2.nesting < nesting (.object ms) := by
  have inside := nestingMembers_le_iff.mp (Nat.le_refl _) m mem
  cases ms with
  | nil => cases mem
  | cons m' ms => exact Nat.lt_succ_of_le inside

theorem nesting_ofList_le (as : List α) (all : ∀ a, (f a).nesting ≤ n) :
    (ofList f as).nesting ≤ n + 1 := by
  have items : nestingItems (as.map f) ≤ n :=
    nestingItems_le_iff.mpr (List.forall_mem_map.mpr fun a _ => all a)
  cases as with
  | nil => exact Nat.zero_le _
  | cons a as => exact Nat.succ_le_succ items

theorem nesting_lt_ofList {as : List α} {a : α} (mem : a ∈ as) :
    (f a).nesting < (ofList f as).nesting := by
  have inside := nestingItems_le_iff.mp (Nat.le_refl _) (f a) (List.mem_map_of_mem mem)
  cases as with
  | nil => cases mem
  | cons b as => exact Nat.lt_succ_of_le inside

theorem nesting_ofOption_le (o : Option α) (all : ∀ a, (f a).nesting ≤ n) :
    (ofOption f o).nesting ≤ n := by
  cases o with
  | none => exact Nat.zero_le n
  | some a => exact all a

theorem nesting_of_mem_option {o : Option α} {a : α} (mem : a ∈ o) :
    (f a).nesting = (ofOption f o).nesting := by
  rw [Option.mem_def.mp mem, ofOption]

end HubContract.Json
