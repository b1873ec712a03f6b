import HubContract.Proofs.Fake.Recording

namespace HubContract.Fake

open FakeBinding FakeClass

variable {c : FakeClass} {log : Part → List Value} {e : Endpoint} {part : Part}

theorem exists_fuel (c : FakeClass) : ∃ fuel, Act.fuel c.blueprint = fuel + 2 := by
  refine ⟨2 * c.blueprint.size - 2, ?_⟩
  have layers : c.blueprint.size = c.members.length + (Blueprint.fakeLayer.length +
      (c.binding.members.length +
        (Blueprint.clientLayer.length + (Blueprint.objectLayer.length + 0)))) := rfl
  have some : 1 ≤ Blueprint.fakeLayer.length := by decide
  unfold Act.fuel
  omega

namespace Records

-- Calling a member by its name and awaiting that runs its routine.
theorem run_member (sound : c.IsSound) (records : Records c log e) (inside : part ∈ c.fake.parts)
    {r : Routine} (has : part.routine? = some r) {arguments bound : List Value} {keyword : Keyword}
    {token : Value} (fits : r.bind arguments keyword = some (bound, token)) :
    ∃ fuel, (Client.invoke (.ofText part.name) arguments keyword).run e =
      (Act.runRoutine (Act.awaitWithin (fuel + 1)) r bound token).run e := by
  obtain ⟨fuel, enough⟩ := exists_fuel c
  rw [← records.blueprint] at enough
  have named : (Act.nameOf (.ofText part.name)).run e = (.ok part.name, e) := rfl
  have called : (Act.callName part.name arguments keyword).run e =
      (.ok (.pending (.routine r bound token)), e) :=
    (Act.run_callName (records.look_routine sound inside has) ..).trans (Act.run_call_routine fits)
  refine ⟨fuel, ?_⟩
  rw [Client.invoke, Act.run_bind_ok named, Act.run_bind_ok called, Act.run_await_routine enough]

-- Arguments that do not fit are refused before anything is done.
theorem run_member_unfit (sound : c.IsSound) (records : Records c log e)
    (inside : part ∈ c.fake.parts) {r : Routine} (has : part.routine? = some r)
    {arguments : List Value} {keyword : Keyword} (unfit : r.bind arguments keyword = none) :
    ((Client.invoke (.ofText part.name) arguments keyword).run e).2 = e := by
  have named : (Act.nameOf (.ofText part.name)).run e = (.ok part.name, e) := rfl
  have refused : (Act.callName part.name arguments keyword).run e =
      (.error (.error (.fault .kind)), e) := by
    rw [Act.run_callName (records.look_routine sound inside has)]
    simp only [Act.call, Act.launch, unfit]
    rfl
  rw [Client.invoke, Act.run_bind_ok named, Act.run_bind_error refused]

theorem run_checkArity_of_ne {name : String} {expected given : Nat} (other : given ≠ expected) :
    (Act.checkArity name expected given).run e =
      (.error (.error (.wrongArity name expected given)), e) := by
  rw [Act.checkArity, if_neg other]
  rfl

theorem run_checkArity {name : String} {expected given : Nat} (same : given = expected) :
    (Act.checkArity name expected given).run e = (.ok (), e) := by
  rw [Act.checkArity, if_pos same]
  rfl

-- Wrappers are asked of objects.
theorem run_ofObject_answer (sound : c.IsSound) {m : FakeInvokeMember} (inside : m ∈ c.fake.invoke) :
    (Act.ofObject (.answer m)).run e = (.ok (), e) := by
  have named : Naming.isOfFake (Routine.answer m).name := by
    simpa only [Part.name, Routine.name] using sound.fake.named _ (wrapper_mem_parts inside)
  have none : ∀ n ∈ ["__init_subclass__", "__class_getitem__"], Naming.isOfFake n = false := by decide
  have ofObject : (Routine.answer m).isOfClass = false := by
    rw [Routine.isOfClass, ← Bool.not_eq_true, List.contains_iff_mem]
    intro inside
    rw [none _ inside] at named
    cases named
  rw [Act.ofObject, ofObject]
  rfl

-- A call is logged whatever becomes of it.
theorem fakeInvoke (sound : c.IsSound) (records : Records c log e) {m : FakeInvokeMember}
    (inside : m ∈ c.fake.invoke) (fuel : Nat) (vs : List Value) (default : Value) :
    (written e (.calls m) (log (.calls m) ++ [.ofArguments vs])).Resembles
      ((Act.fakeInvoke (Act.awaitWithin fuel) (.ofText m.wireName) (.tuple vs) default).run e).2 := by
  have recorded : (Act.recorded (.tuple vs)).run e = (.ok (.ofArguments vs), e) := rfl
  have member : (Act.asInvokeMember (.invokeMember m)).run e = (.ok m, e) := rfl
  have appended : (Act.append m.callsAttribute (Act.recorded (.tuple vs))).run e = (.ok (), _) :=
    records.run_append sound (calls_mem_parts inside) rfl recorded
  have next := records.write sound (calls_mem_parts inside) rfl (log (.calls m) ++ [.ofArguments vs])
  obtain ⟨callback?, shows⟩ : ∃ callback?, Endpoint.look _ m.behaviorAttribute =
      .ok (.ofCallback? callback?) := next.vacant (.behavior m) (behavior_mem_parts inside) rfl
  rw [Act.fakeInvoke, Act.run_bind_ok (records.run_invokeMember sound inside),
    Act.run_bind_ok (records.run_hasLock sound), Act.run_bind_ok member, Act.run_bind_ok appended,
    Act.run_bind_ok (Act.run_read shows)]
  cases callback? with
  | none =>
    have still : Act.IsStill (do
        if (← Act.read "strict").isTruthy then
          Act.refuse (.noBehavior (← Act.className) m.methodName)
        else pure default) := by
      refine (Act.isStill_read _).bind fun h => ?_
      split
      · exact Act.isStill_className.bind fun _ => Act.isStill_refuse _
      · exact Act.isStill_pure _
    exact still.keeps _
  | some callback => exact Act.keeps_behave fuel callback _ _

-- An event is logged and published whatever its slot does.
theorem simulate (sound : c.IsSound) (records : Records c log e) {p : FakePushMember}
    (inside : p ∈ c.fake.push) {n : Nat} (number : c.fake.numbers.get? p.wireName = some n)
    (fuel : Nat) (vs : List Value) :
    ((written e (.events p) (log (.events p) ++ [.ofArguments vs])).onLoop
      (·.publish n (.ofArguments vs))).Resembles
        ((Act.simulate (Act.awaitWithin fuel) (.ofText p.wireName) (.tuple vs)).run e).2 := by
  have recorded : (Act.recorded (.tuple vs)).run e = (.ok (.ofArguments vs), e) := rfl
  have member : (Act.asPushMember (.pushMember p)).run e = (.ok p, e) := rfl
  have appended : (Act.append p.eventsAttribute (pure (Value.ofArguments vs))).run e = (.ok (), _) :=
    records.run_append sound (events_mem_parts inside) rfl (Act.run_pure (Value.ofArguments vs) e)
  have next := records.write sound (events_mem_parts inside) rfl (log (.events p) ++ [.ofArguments vs])
  obtain ⟨callback?, shows⟩ := next.vacant (.slot p) (slot_mem_parts inside) rfl
  -- publishing does not change what the slot shows
  have shows : ((written e (.events p) (log (.events p) ++ [.ofArguments vs])).onLoop
      (·.publish n (.ofArguments vs))).look p.slotName = .ok (.ofCallback? callback?) := shows
  have published : (modify fun e => { e with loop := e.loop.publish n (.ofArguments vs) } :
      Act Unit).run (written e (.events p) (log (.events p) ++ [.ofArguments vs])) =
        (.ok (), Endpoint.onLoop _ (·.publish n (.ofArguments vs))) := rfl
  rw [Act.simulate, Act.run_bind_ok (records.run_pushMember sound inside),
    Act.run_bind_ok recorded, Act.run_bind_ok (records.run_hasLock sound), Act.run_bind_ok member,
    Act.run_bind_ok appended, Act.run_bind_ok (next.run_channelOf sound number),
    Act.run_bind_ok published, Act.runSlot, Act.run_bind_ok (Act.run_read shows)]
  cases callback? with
  | none => exact .refl _
  | some callback =>
    have runs : Act.Keeps (do
        Act.awaitWithin fuel (← Act.call (.callback callback) (← Act.itemsOf (.tuple vs)) none)) :=
      (Act.isStill_itemsOf _).keeps.bind fun items => Act.keeps_call_callback fuel callback items
    exact runs.muted _

-- What calling a member by its name does, by the kind of the member. Arguments of another number are
-- refused before anything is done.

theorem invoke (sound : c.IsSound) (records : Records c log e) {m : FakeInvokeMember}
    (inside : m ∈ c.fake.invoke) (vs : List Value) (token : Keyword) :
    (if vs.length = m.parameters.length then
      written e (.calls m) (log (.calls m) ++ [.ofArguments vs]) else e).Resembles
        ((Client.invoke (.ofText m.methodName) vs token).run e).2 := by
  obtain ⟨fuel, runs⟩ : ∃ fuel, (Client.invoke (.ofText m.methodName) vs token).run e = _ :=
    records.run_member sound (wrapper_mem_parts inside) rfl rfl
  rw [runs]
  simp only [Act.runRoutine]
  by_cases arity : vs.length = m.parameters.length
  · have shows : e.look "_fake_invoke" = .ok (.routine .fakeInvoke) :=
      records.look_shared sound "_fake_invoke" _ (by decide) rfl
    rw [if_pos arity, Act.run_bind_ok (run_checkArity arity),
      Act.run_bind_ok (run_ofObject_answer sound inside), Act.run_awaitName fuel shows rfl]
    exact records.fakeInvoke sound inside fuel vs _
  · rw [if_neg arity, Act.run_bind_error (run_checkArity_of_ne arity)]
    exact .refl e

theorem simulateByName (sound : c.IsSound) (records : Records c log e) {p : FakePushMember}
    (inside : p ∈ c.fake.push) {n : Nat} (number : c.fake.numbers.get? p.wireName = some n)
    (vs : List Value) :
    (if vs.length = p.parameters.length then
      (written e (.events p) (log (.events p) ++ [.ofArguments vs])).onLoop
        (·.publish n (.ofArguments vs)) else e).Resembles
          ((Client.invoke (.ofText p.simulateName) vs none).run e).2 := by
  obtain ⟨fuel, runs⟩ : ∃ fuel, (Client.invoke (.ofText p.simulateName) vs none).run e = _ :=
    records.run_member sound (simulator_mem_parts inside) rfl rfl
  rw [runs]
  simp only [Act.runRoutine]
  by_cases arity : vs.length = p.parameters.length
  · have shows : e.look "_simulate" = .ok (.routine .simulate) :=
      records.look_shared sound "_simulate" _ (by decide) rfl
    rw [if_pos arity, Act.run_bind_ok (run_checkArity arity), Act.run_muted,
      Act.run_awaitName fuel shows rfl]
    exact records.simulate sound inside number fuel vs
  · rw [if_neg arity, Act.run_bind_error (run_checkArity_of_ne arity)]
    exact .refl e

-- A wait begins on its own channel, if it begins at all.
theorem wait (sound : c.IsSound) (records : Records c log e) {p : FakePushMember}
    (inside : p ∈ c.fake.push) {n : Nat} (number : c.fake.numbers.get? p.wireName = some n)
    (vs : List Value) (keyword : Keyword) :
    ∃ action? : Option (Loop.Action Value), (∀ a ∈ action?, ∃ t?, a = .waitNow n t?) ∧
      ((Client.invoke (.ofText p.waitName) vs keyword).run e).2 =
        e.onLoop fun l => action?.elim l l.act := by
  cases fits : (Routine.waiter p).bind vs keyword with
  | none =>
    exact ⟨none, by simp, records.run_member_unfit sound (waiter_mem_parts inside) rfl fits⟩
  | some bound =>
    obtain ⟨bound, token⟩ := bound
    obtain ⟨fuel, runs⟩ : ∃ fuel, (Client.invoke (.ofText p.waitName) vs keyword).run e = _ :=
      records.run_member sound (waiter_mem_parts inside) rfl fits
    have shows : e.look "_wait_for" = .ok (.routine .waitFor) :=
      records.look_shared sound "_wait_for" _ (by decide) rfl
    refine ⟨Act.waitAction? n token, Act.eq_of_mem_waitAction?, ?_⟩
    rw [runs]
    simp only [Act.runRoutine]
    rw [Act.run_awaitName fuel shows rfl]
    simp only [Act.runRoutine]
    rw [Act.run_bind_ok (records.run_channelOf sound number), Act.run_waitOn]

-- Starts and stops of a fake only mark it.
theorem operate (sound : c.IsSound) (records : Records c log e) {name : String} {r : Routine} {b : Bool}
    (shows : e.look name = .ok (.routine r)) (fits : r.bind [] none = some ([], .null))
    (marks : ∀ await, Act.runRoutine await r [] .null =
      (do Act.assign "_started" (.value (.ofBool b)); pure .null)) :
    ((Client.operate name).run e).2 =
      { e with fields := e.fields.set "_started" (.value (.ofBool b)) } := by
  obtain ⟨fuel, enough⟩ := exists_fuel c
  rw [← records.blueprint] at enough
  have marked := run_assign sound records.blueprint (by decide : "_started" ∉ boundNames)
    (.value (.ofBool b))
  have called : (Act.callName name [] none).run e = (.ok (.pending (.routine r [] .null)), e) :=
    (Act.run_callName shows ..).trans (Act.run_call_routine fits)
  rw [Client.operate, Act.run_muted, Act.awaitName, Act.run_bind_ok called,
    Act.run_await_routine enough, marks, Act.run_bind_ok marked]
  rfl

end Records

end HubContract.Fake
