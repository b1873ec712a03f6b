import HubContract.Proofs.Client.Dispatch
import HubContract.Source.Client
import Mathlib.Data.List.Forall2

namespace HubContract.Source

-- What the parameters of a function stand for when it is called.
def bound (ps : List Parameter) (arguments : List Value) : Table Held :=
  (ps.map (·.name)).zip (arguments.map .value)

-- A name that stands for nothing cannot be used.
def valueOf (scope : Table Held) (name : String) : Act Value :=
  match scope.get? name with
  | some h => pure h.toValue
  | none => Act.fault .key

def valuesOf (scope : Table Held) : List Parameter → Act (List Value)
  | [] => pure []
  | p :: ps => do return (← valueOf scope p.name) :: (← valuesOf scope ps)

-- The slot is read into a variable. What is in there, if anything is, gets the parameters.
def Thunk.act (await : Held → Act Value) (t : Thunk) (arguments : List Value) : Act Value := do
  let callback ← Act.read t.slot
  let scope := (bound t.parameters arguments).set t.callbackVariable callback
  if callback.isNull then pure .null
  else Act.muted do await (← Act.call callback (← valuesOf scope t.parameters) none)

-- The signature has a name for the token, unless there is no type for it.
def Wrapper.scope (w : Wrapper) (arguments : List Value) (token : Value) : Table Held :=
  bound w.parameters arguments ++
    if w.cancellationType = "" then [] else [("cancellation", .value token)]

-- The answer is handed back, or awaited and left.
def Wrapper.act (await : Held → Act Value) (w : Wrapper) (arguments : List Value) (token : Value) :
    Act Value := do
  let scope := w.scope arguments token
  let payload ← valuesOf scope w.parameters
  let cancellation ← valueOf scope "cancellation"
  let invoked := Act.awaitName await "_invoke" [.ofText w.wireName, .tuple payload, cancellation]
  if w.answers then invoked else Act.muted invoked

-- Whether a function does what the one of a class does under the same name, however it is called and
-- whatever comes of it.

def Thunk.Matches (t : Thunk) : Prop :=
  ∀ (await : Held → Act Value) (arguments : List Value), t.parameters.length = arguments.length →
    t.act await arguments = Act.runRoutine await (.thunk t.name t.slot) arguments .null

-- A thunk hands on what it was called with if it does with its slot what a dispatch does.
def Thunk.HandsOn (t : Thunk) : Prop :=
  ∀ (await : Held → Act Value) (arguments : List Value), t.parameters.length = arguments.length →
    t.act await arguments = Act.runSlot await t.slot (.tuple arguments)

def Wrapper.Matches (w : Wrapper) : Prop :=
  ∀ (await : Held → Act Value) (arguments : List Value) (token : Value),
    w.parameters.length = arguments.length → w.act await arguments token =
      Act.runRoutine await (.wrapper w.name w.wireName w.parameters.length) arguments token

variable {ps : List Parameter} {arguments : List Value} {scope : Table Held}

theorem valueOf_eq {name : String} {h : Held} (found : scope.get? name = some h) :
    valueOf scope name = pure h.toValue := by
  rw [valueOf, found]

-- Parameters that stand for something are evaluated without further ado.
theorem valuesOf_eq {vs : List Value}
    (found : List.Forall₂ (fun p v => (scope.get? p.name).map Held.toValue = some v) ps vs) :
    valuesOf scope ps = pure vs := by
  induction found with
  | nil => rfl
  | cons here _ ih =>
    obtain ⟨h, found, rfl⟩ := Option.map_eq_some_iff.mp here
    rw [valuesOf, valueOf_eq found, ih]
    rfl

theorem bound_eq_map (ps : List Parameter) (arguments : List Value) :
    bound ps arguments = (ps.zip arguments).map (Prod.map (·.name) .value) := List.zip_map ..

theorem map_fst_bound (length : ps.length = arguments.length) :
    (bound ps arguments).map Prod.fst = ps.map (·.name) := List.map_fst_zip (by simp [length])

-- Each parameter stands for its argument.
theorem get?_bound (distinct : (ps.map (·.name)).Nodup) (length : ps.length = arguments.length) :
    List.Forall₂ (fun p v => p ∈ ps ∧ (bound ps arguments).get? p.name = some (.value v))
      ps arguments := by
  refine List.forall₂_iff_zip.mpr ⟨length, fun {p v} inside => ⟨(List.of_mem_zip inside).1, ?_⟩⟩
  refine Table.get?_of_mem ?_ ?_
  · rwa [map_fst_bound length]
  · rw [bound_eq_map]
    exact List.mem_map_of_mem (f := Prod.map (·.name) Held.value) inside

namespace Thunk

variable {t : Thunk} {await : Held → Act Value}

-- Where no parameter is called like the variable of the callback, this is what a class does.
theorem act_eq_runSlot (distinct : (t.parameters.map (·.name)).Nodup)
    (length : t.parameters.length = arguments.length)
    (fresh : ∀ p ∈ t.parameters, p.name ≠ t.callbackVariable) :
    t.act await arguments = Act.runSlot await t.slot (.tuple arguments) := by
  have values (callback : Held) : valuesOf ((bound t.parameters arguments).set t.callbackVariable
      callback) t.parameters = pure arguments := by
    refine valuesOf_eq ((get?_bound distinct length).imp fun p v stands => ?_)
    rw [Table.get?_set, if_neg (fresh p stands.1).symm, stands.2]
    rfl
  simp only [act, values, pure_bind]
  rfl

-- A parameter that is called so stands for the callback, whatever the event has for it.
theorem exists_act_ne_runSlot (distinct : (t.parameters.map (·.name)).Nodup) {p : Parameter}
    (inside : p ∈ t.parameters) (captured : p.name = t.callbackVariable) :
    ∃ (await : Held → Act Value) (arguments : List Value), t.parameters.length = arguments.length ∧
      t.act await arguments ≠ Act.runSlot await t.slot (.tuple arguments) := by
  -- a slot that notes what it is given, and an event that has nothing but nulls
  let listener : Callback := { label := some "listener", answer := fun _ => .ok .null }
  let e : Endpoint := { blueprint := ⟨"", []⟩, fields := [(t.slot, .callback listener)] }
  let nulls := t.parameters.map fun _ => Value.null
  let handed := t.parameters.map fun p => if t.callbackVariable = p.name then Value.other else .null
  have length : t.parameters.length = nulls.length := by simp [nulls]
  have slot : e.look t.slot = .ok (.callback listener) := by
    simp [e, Endpoint.look, Endpoint.lookField, Blueprint.find?, Table.get?_cons]
  have notes (given : List Value) :
      ((Act.muted do Act.awaitWithin 0 (← Act.call (.callback listener) given none)).run e).2.notes =
        [⟨"listener", some given⟩] := by
    rw [Act.run_muted, Act.run_call_callback]
    rfl
  have values : valuesOf ((bound t.parameters nulls).set t.callbackVariable (.callback listener))
      t.parameters = pure handed := by
    have stands := List.forall₂_same.mp (List.forall₂_map_right_iff.mp (get?_bound distinct length))
    refine valuesOf_eq (List.forall₂_map_right_iff.mpr (List.forall₂_same.mpr fun p inside => ?_))
    rw [Table.get?_set, (stands p inside).2]
    split <;> rfl
  have written : ((t.act (Act.awaitWithin 0) nulls).run e).2.notes = [⟨"listener", some handed⟩] := by
    rw [act, Act.run_bind_ok (Act.run_read slot)]
    dsimp only
    rw [values]
    exact notes handed
  have built : ((Act.runSlot (Act.awaitWithin 0) t.slot (.tuple nulls)).run e).2.notes =
      [⟨"listener", some nulls⟩] := by
    rw [Act.runSlot, Act.run_bind_ok (Act.run_read slot)]
    exact notes nulls
  refine ⟨Act.awaitWithin 0, nulls, length, fun same => ?_⟩
  have equal : handed = nulls := by
    rw [same] at written
    simpa using written.symm.trans built
  have null := List.map_inj_left.mp equal p inside
  rw [if_pos captured.symm] at null
  cases null

theorem handsOn_iff (distinct : (t.parameters.map (·.name)).Nodup) :
    t.HandsOn ↔ ∀ p ∈ t.parameters, p.name ≠ t.callbackVariable := by
  refine ⟨fun same p inside captured => ?_, fun fresh await arguments length =>
    act_eq_runSlot distinct length fresh⟩
  obtain ⟨await, arguments, length, different⟩ := exists_act_ne_runSlot distinct inside captured
  exact different (same await arguments length)

-- The thunk of a class does the same exactly if no parameter is called like the variable.
theorem matches_iff (distinct : (t.parameters.map (·.name)).Nodup)
    (member : Naming.isOfMember t.name) :
    t.Matches ↔ ∀ p ∈ t.parameters, p.name ≠ t.callbackVariable := by
  have ofObject : (Routine.thunk t.name t.slot).isOfClass = false := Client.isOfClass_eq_false member
  have routine (await : Held → Act Value) (arguments : List Value) :
      Act.runRoutine await (.thunk t.name t.slot) arguments .null =
        Act.runSlot await t.slot (.tuple arguments) := by
    rw [Act.runRoutine, ofObject]
    rfl
  simp only [← handsOn_iff distinct, Matches, HandsOn, routine]

end Thunk

namespace Wrapper

variable {w : Wrapper} {await : Held → Act Value} {token : Value}

theorem act_eq_awaitName (distinct : (w.parameters.map (·.name)).Nodup)
    (length : w.parameters.length = arguments.length)
    (unreserved : ∀ p ∈ w.parameters, p.name ≠ "cancellation") (typed : w.cancellationType ≠ "") :
    w.act await arguments token =
      let invoked := Act.awaitName await "_invoke" [.ofText w.wireName, .tuple arguments, token]
      if w.answers then invoked else Act.muted invoked := by
  have payload : valuesOf (w.scope arguments token) w.parameters = pure arguments := by
    refine valuesOf_eq ((get?_bound distinct length).imp fun p v stands => ?_)
    rw [scope, Table.get?_append, stands.2]
    rfl
  have absent : "cancellation" ∉ (bound w.parameters arguments).map Prod.fst := by
    rw [map_fst_bound length]
    intro called
    obtain ⟨p, inside, called⟩ := List.mem_map.mp called
    exact unreserved p inside called
  have cancellation : valueOf (w.scope arguments token) "cancellation" = pure token := by
    refine valueOf_eq (h := .value token) ?_
    rw [scope, if_neg typed, Table.get?_append, Table.get?_of_not_mem absent]
    rfl
  simp only [act, payload, cancellation, pure_bind]

theorem runRoutine_eq_awaitName (length : w.parameters.length = arguments.length)
    (member : Naming.isOfMember w.name) :
    Act.runRoutine await (.wrapper w.name w.wireName w.parameters.length) arguments token =
      Act.awaitName await "_invoke" [.ofText w.wireName, .tuple arguments, token] := by
  have ofObject : (Routine.wrapper w.name w.wireName w.parameters.length).isOfClass = false :=
    Client.isOfClass_eq_false member
  simp only [Act.runRoutine, Act.checkArity, Act.ofObject, ofObject, if_pos length.symm, pure_bind]
  rfl

-- A call that gives something is told from one whose answer is left.
theorem exists_awaitName_ne_muted (arguments : List Value) :
    ∃ await : Held → Act Value, Act.awaitName await "_invoke" arguments ≠
      Act.muted (Act.awaitName await "_invoke" arguments) := by
  -- something that can be called under this name, and an answer that is there
  let target : Callback := { answer := fun _ => .ok .null }
  let e : Endpoint := { blueprint := ⟨"", []⟩, fields := [("_invoke", .callback target)] }
  let x := Act.awaitName (fun _ => pure .other) "_invoke" arguments
  have given : x.run e = (.ok .other, e) := rfl
  refine ⟨fun _ => pure .other, fun same => ?_⟩
  have left : (Act.muted x).run e = (.ok .null, e) := Act.run_muted_ok given
  nomatch given.symm.trans ((congrArg (·.run e) same).trans left)

-- The wrapper of a class does the same exactly if the written one hands the answer back.
theorem matches_iff (distinct : (w.parameters.map (·.name)).Nodup)
    (unreserved : ∀ p ∈ w.parameters, p.name ≠ "cancellation") (typed : w.cancellationType ≠ "")
    (member : Naming.isOfMember w.name) : w.Matches ↔ w.answers := by
  refine ⟨fun same => ?_, fun answers await arguments token length => ?_⟩
  · by_contra left
    let nulls := w.parameters.map fun _ => Value.null
    have length : w.parameters.length = nulls.length := by simp [nulls]
    obtain ⟨await, different⟩ := exists_awaitName_ne_muted [.ofText w.wireName, .tuple nulls, .null]
    have equal := same await nulls .null length
    rw [act_eq_awaitName distinct length unreserved typed, runRoutine_eq_awaitName length member] at equal
    rw [if_neg left] at equal
    exact different equal.symm
  · rw [act_eq_awaitName distinct length unreserved typed, runRoutine_eq_awaitName length member]
    exact if_pos answers

end Wrapper

end HubContract.Source
