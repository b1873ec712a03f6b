import HubContract.Data.Literal
import HubContract.Proofs.Document.Hurdle

namespace HubContract

namespace Data

variable {name : Nat} {whole d : Data} {key : String}

mutual

-- What is put in for a collection is written where that is.
theorem isShowable_unroll (fine : whole.isShowable = true) (d : Data) :
    d.isShowable = true → (unroll name whole d).isShowable = true := by
  intro h
  cases d with
  | knot n body =>
    rw [unroll]
    split
    next => exact h
    next =>
      rw [isShowable] at h ⊢
      exact isShowable_unroll fine body h
  | again n kind =>
    rw [unroll]
    split
    next => exact fine
    next => exact h
  | list xs | tuple xs =>
    rw [isShowable] at h
    rw [unroll, isShowable]
    exact areShowable_unroll fine xs h
  | mapping es =>
    rw [isShowable] at h
    rw [unroll, isShowable]
    exact entriesShowable_unroll fine es h
  | _ => simpa only [unroll] using h

theorem areShowable_unroll (fine : whole.isShowable = true) (xs : List Data) :
    areShowable xs = true → areShowable (unrollAll name whole xs) = true := by
  intro h
  cases xs with
  | nil => rfl
  | cons x xs =>
    rw [areShowable, Bool.and_eq_true] at h
    rw [unrollAll, areShowable, Bool.and_eq_true]
    exact ⟨isShowable_unroll fine x h.1, areShowable_unroll fine xs h.2⟩

theorem entriesShowable_unroll (fine : whole.isShowable = true) (es : List (Data × Data)) :
    entriesShowable es = true → entriesShowable (unrollEntries name whole es) = true := by
  intro h
  cases es with
  | nil => rfl
  | cons e es =>
    obtain ⟨k, v⟩ := e
    rw [entriesShowable, Bool.and_eq_true, Bool.and_eq_true] at h
    rw [unrollEntries, entriesShowable, Bool.and_eq_true, Bool.and_eq_true]
    obtain ⟨⟨key, value⟩, rest⟩ := h
    exact ⟨⟨isShowable_unroll fine k key, isShowable_unroll fine v value⟩, entriesShowable_unroll fine es rest⟩

end

theorem isShowable_opened (h : d.isShowable = true) : d.opened.isShowable = true := by
  cases d with
  | knot name body => exact isShowable_unroll h body h
  | _ => exact h

theorem areShowable_eq_all (xs : List Data) : areShowable xs = xs.all isShowable := by
  induction xs with
  | nil => rfl
  | cons x xs ih => rw [areShowable, ih, List.all_cons]

theorem entriesShowable_eq_all (es : List (Data × Data)) :
    entriesShowable es = es.all fun e => e.1.isShowable && e.2.isShowable := by
  induction es with
  | nil => rfl
  | cons e es ih => rw [entriesShowable, ih, List.all_cons]

theorem isShowable_of_mem (all : entriesShowable es = true) (mem : e ∈ es) :
    e.1.isShowable = true ∧ e.2.isShowable = true := by
  rw [entriesShowable_eq_all, List.all_eq_true] at all
  exact Bool.and_eq_true_iff.mp (all e mem)

theorem isShowable_of_get? (h : d.isShowable = true) (found : d.get? key = some v) :
    v.isShowable = true := by
  have seen := isShowable_opened h
  unfold Data.get? at found
  split at found
  next es entries =>
    rw [entries, isShowable] at seen
    obtain ⟨e, there, rfl⟩ := Option.map_eq_some_iff.mp found
    exact (isShowable_of_mem seen (List.mem_of_find?_eq_some there)).2
  next => cases found

-- A byte is no long number.
theorem isShowable_byte (b : UInt8) : (Data.int b.toNat).isShowable = true := by
  have long : 3 ≤ Text.maxDigits := by decide
  have small : b.toNat < 10 ^ 3 := Nat.lt_of_lt_of_le b.toNat_lt (by decide)
  rw [isShowable, isShortInt, decide_eq_true_eq]
  -- the power is left as it stands
  generalize Text.maxDigits = digits at long ⊢
  exact Nat.lt_of_lt_of_le small (Nat.pow_le_pow_right (Nat.succ_pos 9) long)

theorem isShowable_ofWritten (w : Text.Written) : (ofWritten w).isShowable = true := by
  cases w <;> simp [ofWritten, isShowable]

theorem isShowable_of_iterate? (h : d.isShowable = true) (run : d.iterate? = some xs) :
    ∀ x ∈ xs, x.isShowable = true := by
  have seen := isShowable_opened h
  unfold iterate? at run
  split at run
  next =>
    obtain rfl := Option.some.inj run
    simp [isShowable]
  next =>
    obtain rfl := Option.some.inj run
    simp [isShowable_ofWritten]
  next =>
    obtain rfl := Option.some.inj run
    intro x mem
    obtain ⟨b, -, rfl⟩ := List.mem_map.mp mem
    exact isShowable_byte b
  iterate 3
    next items =>
      obtain rfl := Option.some.inj run
      rw [items, isShowable, areShowable_eq_all, List.all_eq_true] at seen
      exact seen
  next es entries =>
    obtain rfl := Option.some.inj run
    rw [entries, isShowable] at seen
    intro x mem
    obtain ⟨e, there, rfl⟩ := List.mem_map.mp mem
    exact (isShowable_of_mem seen there).1
  next => cases run

end Data

namespace Hurdle

open Document Data

-- A value that is shown, unless some number is too long.
def Shows (short : Bool) (d : Data) : Prop := short = true → d.isShowable = true

-- Every fault is one of kind, or one of value where a number is too long to be shown.
def Usual (short : Bool) (hs : List Hurdle) : Prop :=
  ∀ f, .fault f ∈ hs → f = .kind ∨ f = .value ∧ short = false

variable {short : Bool} {hs hs' : List Hurdle} {c : Bool} {h : Hurdle} {field : Option Data}
  {owner method d : Data} {found values : List Data} {known : List String}

namespace Shows

theorem get? {key : String} (whole : Shows short d) : ∀ v ∈ d.get? key, Shows short v :=
  fun _ found is => isShowable_of_get? (whole is) found

theorem getD (each : ∀ v ∈ field, Shows short v) : Shows short (field.getD .null) := by
  cases field with
  | none => exact fun _ => by simp [isShowable]
  | some v => exact each v rfl

theorem named (whole : Shows short d) : Shows short ((named? d).getD .null) := getD whole.get?

theorem present {key : String} (whole : Shows short d) : Shows short (present (d.get? key)) :=
  getD fun v there => whole.get? v (Option.filter_eq_some_iff.mp there).1

-- What a loop goes through.
theorem items {key : String} (whole : Shows short d) : ∀ x ∈ items (d.get? key), Shows short x := by
  intro x mem is
  rw [Hurdle.items] at mem
  cases run : ((d.get? key).filter isTruthy).bind iterate? with
  | none =>
    rw [run] at mem
    cases mem
  | some xs =>
    rw [run] at mem
    obtain ⟨v, there, run⟩ := Option.bind_eq_some_iff.mp run
    exact isShowable_of_iterate? (whole.get? v (Option.filter_eq_some_iff.mp there).1 is) run x mem

end Shows

namespace Usual

theorem append (first : Usual short hs) (rest : Usual short hs') : Usual short (hs ++ hs') := by
  intro f mem
  rcases List.mem_append.mp mem with mem | mem
  · exact first f mem
  · exact rest f mem

theorem flatMap {wrong : α → List Hurdle} {xs : List α} (each : ∀ x ∈ xs, Usual short (wrong x)) :
    Usual short (xs.flatMap wrong) := by
  intro f mem
  obtain ⟨x, there, mem⟩ := List.mem_flatMap.mp mem
  exact each x there f mem

theorem expect (alone : Usual short [h]) : Usual short (expect c h) := by
  cases c with
  | true => exact fun _ mem => by cases mem
  | false => exact alone

theorem refusal : Usual short [.refusal] := by
  intro f mem
  cases List.mem_singleton.mp mem

theorem kind : Usual short [.fault .kind] := by
  intro f mem
  cases List.mem_singleton.mp mem
  exact .inl rfl

theorem value (long : short = false) : Usual short [.fault .value] := by
  intro f mem
  cases List.mem_singleton.mp mem
  exact .inr ⟨rfl, long⟩

theorem showing (shown : ∀ v ∈ values, Shows short v) (last : Usual short [h]) :
    Usual short [showing values h] := by
  rw [Hurdle.showing]
  cases all : values.all isShowable with
  | true => exact last
  | false =>
    refine value (Bool.eq_false_iff.mpr fun is => ?_)
    rw [List.all_eq_true.mpr fun v there => shown v there is] at all
    cases all

theorem refusing (shown : ∀ v ∈ values, Shows short v) :
    Usual short (Hurdle.expect c (Hurdle.showing values .refusal)) := expect (showing shown refusal)

theorem optional (each : ∀ v ∈ field, Shows short v) :
    Usual short (Hurdle.expect (field.all isShowable) (.fault .value)) := by
  cases field with
  | none => exact fun _ mem => by cases mem
  | some v =>
    rw [Option.all_some]
    cases shown : v.isShowable with
    | true => exact fun _ mem => by cases mem
    | false =>
      refine value (Bool.eq_false_iff.mpr fun is => ?_)
      rw [each v rfl is] at shown
      cases shown

theorem loop : Usual short (loop field) := expect kind

theorem unknown (shown : ∀ v ∈ values, Shows short v) : Usual short (unknown found known values) := by
  refine expect (showing shown ?_)
  split
  next => exact refusal
  next => exact kind

theorem ofParameter (owner' : Shows short owner) (method' : Shows short method) (whole : Shows short d) :
    Usual short (ofParameter owner method d) :=
  append (append (refusing (by simp [*])) (optional whole.get?)) (refusing (by simp [*]))

theorem ofMethod (owner' : Shows short owner) (whole : Shows short d) :
    Usual short (ofMethod owner d) := by
  have name := whole.named
  have markers : Usual short (ofMethodMarkers owner ((named? d).getD .null) (d.get? "markers")) :=
    append (append loop (expect kind)) (unknown (by simp [*]))
  have parameters : Usual short
      ((items (d.get? "params")).flatMap (Hurdle.ofParameter owner ((named? d).getD .null))) :=
    flatMap fun x there => ofParameter owner' name (whole.items x there)
  unfold Hurdle.ofMethod
  exact (((((refusing (by simp [*])).append markers).append loop).append parameters).append
    (optional whole.get?)).append (refusing (by simp [*]))

theorem ofDeclaration (whole : Shows short d) : Usual short (ofDeclaration d) := by
  have name := whole.named
  have hubMarker : Usual short (((present (d.get? "markers")).get? "hub_client").toList.flatMap
      (ofHubMarker ((named? d).getD .null))) :=
    flatMap fun x _ => (refusing (by simp [*])).append (refusing (by simp [*]))
  have methods : Usual short
      ((items (d.get? "methods")).flatMap (Hurdle.ofMethod ((named? d).getD .null))) :=
    flatMap fun x there => ofMethod name (whole.items x there)
  unfold Hurdle.ofDeclaration
  exact (((((((refusing (by simp [*])).append (refusing (by simp [*]))).append (unknown (by simp [*]))).append
    hubMarker).append loop).append methods).append loop).append (refusing (by simp [*]))

theorem ofDeclarations {seen : List String} (each : ∀ d ∈ ds, Shows short d) :
    Usual short (ofDeclarations seen ds) := by
  induction ds generalizing seen with
  | nil => exact fun _ mem => by cases mem
  | cons d ds ih =>
    obtain ⟨first, others⟩ := List.forall_mem_cons.mp each
    exact ((ofDeclaration first).append (expect refusal)).append (ih others)

theorem ofDocument (whole : Shows short d) : Usual short (ofDocument d) := by
  unfold Hurdle.ofDocument
  exact ((((expect refusal).append (unknown (by simp))).append loop).append
    (ofDeclarations whole.items)).append (expect refusal)

end Usual

end Hurdle

namespace Document

open Hurdle

-- A reading that gives a document or refuses the shape of the data.
def Graceful (r : Read α) : Prop := (∃ a, r = .ok a) ∨ ∃ e, r = .error (.shape e)

variable {r : Read α} {hs : List Hurdle}

theorem Follows.ok_iff (follows : Follows r hs) : (∃ a, r = .ok a) ↔ hs = [] := by
  cases follows <;> simp

theorem Follows.fault_iff (follows : Follows r hs) (f : Fault) :
    r = .error (.fault f) ↔ hs.head? = some (.fault f) := by
  cases follows <;> simp

theorem Follows.graceful_iff (follows : Follows r hs) :
    Graceful r ↔ ∀ f, hs.head? ≠ some (.fault f) := by
  unfold Graceful
  cases follows <;> simp

-- Data are read gracefully if and only if the first thing that is wrong with them, if anything is, is one
-- that is refused. There is a document if and only if nothing is wrong, and a fault if and only if it is
-- the first thing that is wrong; it is one of kind unless a number is too long to be shown.
theorem graceful_iff_first_hurdle (x : Data) :
    (Graceful (ofData x) ↔ ∀ f, (ofDocument x).head? ≠ some (.fault f)) ∧
    ((∃ d, ofData x = .ok d) ↔ ofDocument x = []) ∧
    (∀ f, ofData x = .error (.fault f) ↔ (ofDocument x).head? = some (.fault f)) ∧
    ∀ f, ofData x = .error (.fault f) → f = .kind ∨ f = .value ∧ x.isShowable = false := by
  have follows := Follows.ofData x
  refine ⟨follows.graceful_iff, follows.ok_iff, follows.fault_iff, fun f fails => ?_⟩
  have usual : Usual x.isShowable (ofDocument x) := .ofDocument fun is => is
  exact usual f (List.mem_of_head? ((follows.fault_iff f).mp fails))

-- A number where the declarations should stand.
theorem graceful_iff_first_hurdle_five :
    ¬Graceful (ofData (.mapping [(.str "declarations", .int 5)])) := by
  rintro (⟨d, read⟩ | ⟨e, refused⟩)
  · nomatch read
  · nomatch refused

end Document

end HubContract
