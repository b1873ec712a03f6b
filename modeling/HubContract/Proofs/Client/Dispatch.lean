import HubContract.Endpoint.Task
import HubContract.Proofs.Client.Serving

namespace HubContract

namespace Act

variable {α : Type} {e e' : Endpoint} {c : Callback} {arguments : List Value}

-- What awaiting does that may go so many calls deeper.
def awaitWithin (fuel : Nat) (h : Held) : Act Value :=
  match h with
  | .pending p => runPending fuel p
  | _ => fault .kind

theorem awaitWithin_callback (fuel : Nat) :
    awaitWithin fuel (.pending (.callback c arguments)) = runCallback c arguments := by
  cases fuel <;> rfl

-- Without an answer the same is done.
theorem run_muted (x : Act Value) (e : Endpoint) : ((muted x).run e).2 = (x.run e).2 := by
  rcases ran : x.run e with ⟨outcome, e'⟩
  simp only [muted, ExceptT.run_mk, bind, StateT.bind, ran]
  cases outcome with
  | ok v => rfl
  | error halt => cases halt <;> rfl

theorem run_muted_ok {x : Act Value} {v : Value} (ran : x.run e = (.ok v, e')) :
    (muted x).run e = (.ok .null, e') := by
  simp only [muted, ExceptT.run_mk, bind, StateT.bind, ran]
  rfl

-- All that comes back of an answer that is left is whether there was one.
theorem run_muted_answer {x : Act Value} {answer : Except CallError Value}
    (ran : x.run e = (answer.mapError .error, e')) :
    (muted x).run e = ((answer.map fun _ => .null).mapError .error, e') := by
  cases answer with
  | ok v => exact run_muted_ok ran
  | error c =>
    simp only [muted, ExceptT.run_mk, bind, StateT.bind, ran]
    rfl

-- Calling a callback and awaiting what that gives runs it once, whatever becomes of it.
theorem run_call_callback (fuel : Nat) :
    ((do awaitWithin fuel (← call (.callback c) arguments none) : Act Value).run e).2 =
      { e with notes := e.notes ++ c.noted arguments } := by
  by_cases takes : c.takes arguments.length
  · by_cases awaited : c.isAwaited
    · have pending : (call (.callback c) arguments none).run e =
          (.ok (.pending (.callback c arguments)), e) := by
        simp [call, launch, takes, awaited]
        rfl
      rw [run_bind_ok pending, awaitWithin_callback, run_runCallback takes]
    · -- such a callback has run when it is called, and its answer cannot be awaited
      have called : (call (.callback c) arguments none).run e =
          ((runCallback c arguments >>= fun v => pure (.value v)).run e) := by
        simp [call, launch, takes, awaited]
      have ran := run_runCallback (e := e) takes
      cases answer : c.answer arguments with
      | error f =>
        rw [answer] at ran
        rw [run_bind_error (called.trans (run_bind_error ran))]
      | ok v =>
        rw [answer] at ran
        rw [run_bind_ok (called.trans (run_bind_ok ran))]
        rfl
  · have refused : (call (.callback c) arguments none).run e = (.error (.error (.fault .kind)), e) := by
      simp [call, launch, takes]
      rfl
    rw [run_bind_error refused, Callback.noted, if_neg takes]
    simp

theorem run_await_routine {fuel : Nat} (enough : Act.fuel e.blueprint = fuel + 1) (r : Routine)
    (arguments : List Value) (token : Value) :
    (await (.pending (.routine r arguments token))).run e =
      (runRoutine (awaitWithin fuel) r arguments token).run e := by
  rw [await, run_bind_ok (run_get e), enough]
  rfl

theorem run_call_routine {r : Routine} {arguments bound : List Value} {keyword : Keyword} {token : Value}
    (fits : r.bind arguments keyword = some (bound, token)) :
    (call (.routine r) arguments keyword).run e = (.ok (.pending (.routine r bound token)), e) := by
  simp only [call, launch, fits]
  rfl

theorem run_callName {name : String} {h : Held} (shows : e.look name = .ok h) (arguments : List Value)
    (keyword : Keyword) : (callName name arguments keyword).run e = (call h arguments keyword).run e := by
  rw [callName, run_bind_ok (run_read shows)]

end Act

namespace Client

open ClientClass

-- Hand an event to each handler of its wire name, whatever becomes of the others.
def deliver (wireName : Value) (arguments : List Value) (e : Endpoint) : Endpoint :=
  (handlersFor e wireName).foldl
    (fun e h => (e.perform do Act.await (← Act.call h arguments none)).2) e

variable {m : Manifest} {slots : String → Option Callback} {e : Endpoint} {d : MemberDescriptor}

-- Calls may go deep enough for a wrapper that invokes a method.
theorem exists_fuel (m : Manifest) : ∃ fuel, Act.fuel (ofSound m).blueprint = fuel + 2 := by
  refine ⟨2 * (ofSound m).blueprint.size - 2, ?_⟩
  have layers : (ofSound m).blueprint.size = (ofSound m).members.length +
      (Blueprint.clientLayer.length + (Blueprint.objectLayer.length + 0)) := rfl
  have some : 1 ≤ Blueprint.clientLayer.length := by decide
  unfold Act.fuel
  omega

theorem isOfClass_eq_false {r : Routine} (member : Naming.isOfMember r.name) : r.isOfClass = false := by
  have none : ∀ n ∈ ["__init_subclass__", "__class_getitem__"], Naming.isOfMember n = false := by decide
  rw [Routine.isOfClass, ← Bool.not_eq_true, List.contains_iff_mem]
  intro inside
  rw [none _ inside] at member
  cases member

-- A handler runs what is in its slot.
theorem Serves.run_handler (sound : m.IsSound) (serves : Serves m slots e) (inside : d ∈ m.push)
    (arguments : List Value) :
    (e.perform do Act.await (← Act.call (route d).2 arguments none)).2 =
      { e with notes := e.notes ++ (slots d.attributeName).elim [] (·.noted arguments) } := by
  obtain ⟨fuel, enough⟩ := exists_fuel m
  rw [← serves.blueprint] at enough
  have ofObject : (Routine.thunk (d.handler.getD "") d.attributeName).isOfClass = false :=
    isOfClass_eq_false (isOfMember_thunk sound inside)
  have slot := serves.look_slot sound inside
  have called : (Act.call (route d).2 arguments none).run e = (.ok (.pending (.routine
      (.thunk (d.handler.getD "") d.attributeName) arguments .null)), e) := Act.run_call_routine rfl
  rw [Endpoint.perform, Act.run_bind_ok called, Act.run_await_routine enough, Act.runRoutine, ofObject]
  rw [if_neg (by simp), Act.runSlot, Act.run_bind_ok (Act.run_read slot)]
  cases slots d.attributeName with
  | none => simp [Held.ofCallback?, Held.isNull, Held.null, Value.isNull, Value.null, Act.run_pure]
  | some c =>
    have filled : (Held.ofCallback? (some c)).isNull = false := rfl
    rw [filled, if_neg (by simp), Act.run_muted]
    exact Act.run_call_callback (fuel + 1)

theorem same_ofText (a b : String) : (Value.ofText a).same (.ofText b) = decide (a = b) := by
  unfold Value.ofText Value.same
  by_cases same : a = b <;> simp [same, Data.ofJson, Data.sameKey]

theorem Serves.handlersFor_ofText (serves : Serves m slots e) (wireName : String) :
    handlersFor e (.ofText wireName) =
      (m.push.filter (·.wireName = wireName)).map fun d => (route d).2 := by
  rw [handlersFor, serves.routes, List.filter_map, List.map_map]
  have wanted : ((fun r : Value × Held => r.1.same (.ofText wireName)) ∘ route) =
      fun d => decide (d.wireName = wireName) := by
    funext d
    exact same_ofText ..
  rw [wanted]
  rfl

-- The notes of an event: what is in the slots of its members, in the order of the manifest.
def noted (ds : List MemberDescriptor) (slots : String → Option Callback) (arguments : List Value) :
    List Note :=
  ds.flatMap fun d => (slots d.attributeName).elim [] (·.noted arguments)

theorem noted_eq_flatMap_map (ds : List MemberDescriptor) (arguments : List Value) :
    noted ds slots arguments =
      (ds.map (·.attributeName)).flatMap fun name => (slots name).elim [] (·.noted arguments) := by
  rw [noted, List.flatMap_map]

-- An event runs its own slots and does nothing else.
theorem Serves.deliver_ofText (sound : m.IsSound) (serves : Serves m slots e) (wireName : String)
    (arguments : List Value) : deliver (.ofText wireName) arguments e =
      { e with notes := e.notes ++
          noted (m.push.filter (·.wireName = wireName)) slots arguments } := by
  have all {ds : List MemberDescriptor} (inside : ds ⊆ m.push) {e : Endpoint}
      (serves : Serves m slots e) : (ds.map fun d => (route d).2).foldl
        (fun e h => (e.perform do Act.await (← Act.call h arguments none)).2) e =
          { e with notes := e.notes ++ noted ds slots arguments } := by
    induction ds generalizing e with
    | nil => simp [noted]
    | cons d ds ih =>
      have first := serves.run_handler sound (inside List.mem_cons_self) arguments
      rw [List.map_cons, List.foldl_cons, first]
      have rest := ih (fun d' later => inside (List.mem_cons_of_mem _ later))
        (e := { e with notes := e.notes ++ (slots d.attributeName).elim [] (·.noted arguments) })
        (serves.congr rfl rfl rfl)
      rw [rest]
      simp [noted]
  rw [deliver, serves.handlersFor_ofText]
  exact all (fun d inside => (List.mem_filter.mp inside).1) serves

-- Where no handler fails, this is how an event arrives.
theorem eq_deliver_of_emit {wireName v : Value} {arguments : List Value} {e' : Endpoint}
    (arrives : (emit wireName arguments).run e = (.ok v, e')) : e' = deliver wireName arguments e := by
  have all {hs : List Held} {e : Endpoint} (runs : (runHandlers arguments hs).run e = (.ok (), e')) :
      e' = hs.foldl (fun e h => (e.perform do Act.await (← Act.call h arguments none)).2) e := by
    induction hs generalizing e with
    | nil => exact (congrArg Prod.snd runs).symm
    | cons h hs ih =>
      obtain ⟨called, e₁, calls, rest⟩ := Act.exists_of_run_bind runs
      obtain ⟨answer, e₂, awaits, later⟩ := Act.exists_of_run_bind rest
      have first : (e.perform do Act.await (← Act.call h arguments none)).2 = e₂ := by
        rw [Endpoint.perform, Act.run_bind_ok calls, awaits]
      rw [List.foldl_cons, first]
      exact ih later
  rw [emit, Act.run_bind_ok (Act.run_get e)] at arrives
  obtain ⟨done, e₁, runs, rest⟩ := Act.exists_of_run_bind arrives
  obtain rfl : e₁ = e' := congrArg Prod.snd rest
  exact all runs

-- So an event that arrives runs its own slots, and nothing else is changed.
theorem Serves.eq_of_emit {wireName : String} {v : Value} {arguments : List Value} {e' : Endpoint}
    (sound : m.IsSound) (serves : Serves m slots e)
    (arrives : (emit (.ofText wireName) arguments).run e = (.ok v, e')) :
    e' = { e with
      notes := e.notes ++ noted (m.push.filter (·.wireName = wireName)) slots arguments } :=
  (eq_deliver_of_emit arrives).trans (serves.deliver_ofText sound wireName arguments)

theorem IsClient.run_hasConnection (sound : m.IsSound) (client : IsClient m e) :
    Act.hasConnection.run e = (.ok (), e) := by
  have connection := client.look_own sound (by decide) client.connected
  rw [Act.hasConnection, Act.run_bind_ok (Act.run_read connection)]
  rfl

-- A client shows whether it is started.
theorem IsClient.look_started (sound : m.IsSound) (client : IsClient m e) :
    e.look "started" = e.look "_started" := by
  have property : (ofSound m).blueprint.find? "started" = some (.property "_started") :=
    find?_of_other sound (by decide) (by decide)
  have own : (ofSound m).blueprint.find? "_started" = none := find?_own sound (by decide)
  unfold Endpoint.look
  rw [client.blueprint, property, own]

-- What invoking a method of the server comes to on a client that is started.

theorem IsClient.run_callName_invoke (sound : m.IsSound) (client : IsClient m e)
    (wireName : String) (arguments : List Value) (token : Value) :
    (Act.callName "_invoke" [.ofText wireName, .tuple arguments, token] none).run e =
      (.ok (.pending (.routine .invoke [.ofText wireName, .tuple arguments] token)), e) := by
  have inner : e.look "_invoke" = .ok (.routine .invoke) :=
    client.look_of_other sound "_invoke" _ (by decide) (by decide) (by decide) rfl (by simp)
  exact (Act.run_callName inner ..).trans (Act.run_call_routine rfl)

theorem IsClient.run_ask (sound : m.IsSound) (client : IsClient m e)
    (started : e.look "started" = .ok (.value (.ofBool true))) {token : Value}
    (passes : (Act.refuseIfFired token).run e = (.ok (), e)) (wireName : String)
    (arguments : List Value) : (Act.invoke (.ofText wireName) (.tuple arguments) token).run e =
      (Act.ask (.invoke (.ofText wireName) arguments token)).run e := by
  have running : e.look "_started" = .ok (.value (.ofBool true)) :=
    (client.look_started sound).symm.trans started
  rw [Act.invoke, Act.run_bind_ok (Act.run_read running)]
  refine (Act.run_bind_ok passes).trans ?_
  refine (Act.run_bind_ok (client.run_hasConnection sound)).trans ?_
  exact Act.run_bind_ok rfl

theorem IsClient.run_invokeByWire (sound : m.IsSound) (client : IsClient m e)
    (started : e.look "started" = .ok (.value (.ofBool true))) {token : Value}
    (passes : (Act.refuseIfFired token).run e = (.ok (), e)) (wireName : String)
    (arguments : List Value) : (invokeByWire (.ofText wireName) (.tuple arguments) token).run e =
      (Act.ask (.invoke (.ofText wireName) arguments token)).run e := by
  obtain ⟨fuel, enough⟩ := exists_fuel m
  rw [← client.blueprint] at enough
  rw [invokeByWire, Act.awaitName, Act.run_bind_ok (client.run_callName_invoke sound ..),
    Act.run_await_routine enough]
  exact client.run_ask sound started passes ..

-- A wrapper asks the connection for its method, whatever token lets it pass.
theorem IsClient.run_invoke_of_passes (sound : m.IsSound) (client : IsClient m e) (inside : d ∈ m.invoke)
    {arguments : List Value} (arity : arguments.length = d.payloadArity m.cancellationType)
    (started : e.look "started" = .ok (.value (.ofBool true))) {keyword : Keyword}
    (passes : (Act.refuseIfFired (keyword.getD .null)).run e = (.ok (), e)) :
    (invoke (.ofText d.attributeName) arguments keyword).run e =
      (Act.ask (.invoke (.ofText d.wireName) arguments (keyword.getD .null))).run e := by
  obtain ⟨fuel, enough⟩ := exists_fuel m
  rw [← client.blueprint] at enough
  have name : (Act.nameOf (.ofText d.attributeName)).run e = (.ok d.attributeName, e) := rfl
  have wrapper := client.look_wrapper sound inside
  have called : (Act.callName d.attributeName arguments keyword).run e =
      (.ok (.pending (.routine (.wrapper d.attributeName d.wireName
        (d.payloadArity m.cancellationType)) arguments (keyword.getD .null))), e) :=
    (Act.run_callName wrapper ..).trans (Act.run_call_routine rfl)
  have fits : (Act.checkArity d.attributeName (d.payloadArity m.cancellationType)
      arguments.length).run e = (.ok (), e) := by
    rw [Act.checkArity, if_pos arity, Act.run_pure]
  have ofObject : (Act.ofObject (.wrapper d.attributeName d.wireName
      (d.payloadArity m.cancellationType))).run e = (.ok (), e) := by
    have member : Naming.isOfMember (Routine.wrapper d.attributeName d.wireName
        (d.payloadArity m.cancellationType)).name := isOfMember_wrapper sound inside
    rw [Act.ofObject, isOfClass_eq_false member, if_neg (by simp), Act.run_pure]
  rw [invoke, Act.run_bind_ok name, Act.run_bind_ok called, Act.run_await_routine enough,
    Act.runRoutine, Act.run_bind_ok fits, Act.run_bind_ok ofObject, Act.awaitName,
    Act.run_bind_ok (client.run_callName_invoke sound ..)]
  exact client.run_ask sound started passes ..

theorem run_refuseIfFired {t : Nat} (unfired : e.loop.hasFired t = false) :
    (Act.refuseIfFired (.token t)).run e = (.ok (), e) := by
  rw [Act.refuseIfFired, Act.run_bind_ok (Act.run_get e), unfired]
  rfl

theorem IsClient.run_invoke (sound : m.IsSound) (client : IsClient m e) (inside : d ∈ m.invoke)
    {arguments : List Value} (arity : arguments.length = d.payloadArity m.cancellationType)
    (started : e.look "started" = .ok (.value (.ofBool true))) {t : Nat}
    (unfired : e.loop.hasFired t = false) :
    (invoke (.ofText d.attributeName) arguments (some (.token t))).run e =
      (Act.ask (.invoke (.ofText d.wireName) arguments (.token t))).run e :=
  client.run_invoke_of_passes sound inside arity started (run_refuseIfFired unfired)

end Client

end HubContract
