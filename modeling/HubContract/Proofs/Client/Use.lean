import HubContract.Proofs.Binding.Payload
import HubContract.Proofs.Client.Dispatch
import HubContract.Proofs.Pipeline.Errors

namespace HubContract

namespace Client

open ClientClass

-- What is done with a client.
inductive Use where
  | assign (slot : String) (callback : Option Callback)
  | start
  | stop
  | event (wireName : String) (arguments : List Value)
  -- anything may become of tokens
  | meanwhile (loop : Loop Value)

def use (e : Endpoint) : Use → Endpoint
  | .assign slot c => (e.perform (Act.assign slot (.ofCallback? c))).2
  | .start => (e.perform (operate "start")).2
  | .stop => (e.perform (operate "stop")).2
  | .event wireName arguments => deliver (.ofText wireName) arguments e
  | .meanwhile loop => { e with loop }

def Use.fill (slots : String → Option Callback) : Use → String → Option Callback
  | .assign slot c => fun name => if slot = name then c else slots name
  | _ => slots

-- What slots hold after a client was used: what was assigned last, and nothing at first.
def inSlots (uses : List Use) : String → Option Callback := uses.foldl Use.fill fun _ => none

variable {m : Manifest} {slots : String → Option Callback} {e : Endpoint}

-- Slots may be assigned freely.
theorem IsClient.put (client : IsClient m e) {slot : String} (h : Held)
    (inside : slot ∈ m.push.map (·.attributeName)) (notOwn : slot ∉ ownNames) :
    IsClient m { e with fields := e.fields.set slot h } := by
  have others {name : String} (different : slot ≠ name) :
      (e.fields.set slot h).get? name = e.fields.get? name := by
    rw [Table.get?_set, if_neg different]
  have own {name : String} (its : name ∈ ownNames) : slot ≠ name :=
    (ne_of_mem_of_not_mem its notOwn).symm
  refine ⟨client.blueprint, ?_, ?_, fun name notOwn' notSlot => ?_⟩
  · rw [others (own (by decide))]
    exact client.connected
  · rw [others (own (by decide))]
    exact client.started
  · rw [others (ne_of_mem_of_not_mem inside notSlot)]
    exact client.untouched name notOwn' notSlot

theorem Serves.assign (sound : m.IsSound) (serves : Serves m slots e) {name : String}
    (slot : name ∈ m.push.map (·.attributeName)) (c : Option Callback) :
    use e (.assign name c) = { e with fields := e.fields.set name (.ofCallback? c) } ∧
      Serves m (Use.fill slots (.assign name c)) (use e (.assign name c)) := by
  obtain ⟨d, inside, rfl⟩ := List.mem_map.mp slot
  have free : e.sealFault? d.attributeName = none := by
    rw [Endpoint.sealFault?, serves.blueprint, find?_slot sound inside]
  have assigned : use e (.assign d.attributeName c) =
      { e with fields := e.fields.set d.attributeName (.ofCallback? c) } := by
    rw [use, Endpoint.perform, Act.run_assign free]
  refine ⟨assigned, ?_⟩
  rw [assigned]
  refine ⟨serves.put _ slot (not_mem_ownNames (isOfMember_slot sound inside)), serves.routes, ?_⟩
  intro d' inside'
  rw [Table.get?_set, Use.fill]
  dsimp only
  split
  case isTrue => rfl
  case isFalse => exact serves.filled d' inside'

-- A client may be marked as started or stopped.
theorem Serves.mark (sound : m.IsSound) (serves : Serves m slots e) (b : Bool)
    (asked : List ConnectionCall) : Serves m slots
      { e with fields := e.fields.set "_started" (.value (.ofBool b)), asked } := by
  have others {name : String} (different : "_started" ≠ name) :
      (e.fields.set "_started" (.value (.ofBool b))).get? name = e.fields.get? name := by
    rw [Table.get?_set, if_neg different]
  have own : "_started" ∈ ownNames := by decide
  refine ⟨⟨serves.blueprint, ?_, ⟨b, ?_⟩, fun name notOwn notSlot => ?_⟩, serves.routes,
    fun d inside => ?_⟩
  · rw [others (by decide)]
    exact serves.connected
  · rw [Table.get?_set, if_pos rfl]
  · rw [others (ne_of_mem_of_not_mem own notOwn)]
    exact serves.untouched name notOwn notSlot
  · rw [others (ne_of_mem_of_not_mem own (not_mem_ownNames (isOfMember_slot sound inside)))]
    exact serves.filled d inside

-- An operation that all clients have, by its routine.
theorem IsClient.operate (client : IsClient m e) {name : String} {r : Routine}
    (shows : e.look name = .ok (.routine r)) (fits : r.bind [] none = some ([], .null)) :
    ∃ fuel, (e.perform (operate name)).2 = ((Act.runRoutine (Act.awaitWithin fuel) r [] .null).run e).2 := by
  obtain ⟨fuel, enough⟩ := exists_fuel m
  rw [← client.blueprint] at enough
  have called : (Act.callName name [] none).run e = (.ok (.pending (.routine r [] .null)), e) :=
    (Act.run_callName shows ..).trans (Act.run_call_routine fits)
  refine ⟨fuel + 1, ?_⟩
  rw [Client.operate, Endpoint.perform, Act.run_muted, Act.awaitName, Act.run_bind_ok called,
    Act.run_await_routine enough]

theorem IsClient.unsealed (sound : m.IsSound) (client : IsClient m e) :
    e.sealFault? "_started" = none := by
  have own : (ofSound m).blueprint.find? "_started" = none := find?_own sound (by decide)
  rw [Endpoint.sealFault?, client.blueprint, own]

-- A client whose connection can be started is started then.
theorem Serves.start (sound : m.IsSound) (serves : Serves m slots e) :
    Serves m slots (use e .start) ∧ (use e .start).connection = e.connection ∧
      ∀ v, e.connection .start = .ok v →
        (use e .start).look "started" = .ok (.value (.ofBool true)) := by
  have shows : e.look "start" = .ok (.routine .start) :=
    serves.look_of_other sound "start" _ (by decide) (by decide) (by decide) rfl (by simp)
  obtain ⟨fuel, runs⟩ := serves.operate shows rfl
  have asked := Act.run_ask (e := e) .start
  rw [use, runs, Act.runRoutine, Act.startClient, Act.run_bind_ok (serves.run_hasConnection sound)]
  cases answer : e.connection .start with
  | ok v =>
    have next : IsClient m { e with asked := e.asked ++ [.start] } :=
      serves.toIsClient.congr rfl rfl
    rw [answer] at asked
    rw [Act.run_bind_ok asked, Act.run_bind_ok (Act.run_assign (next.unsealed sound) _)]
    have marked := serves.mark sound true (e.asked ++ [.start])
    refine ⟨marked, rfl, fun _ _ => ?_⟩
    refine (marked.look_started sound).trans (marked.look_own sound (by decide) ?_)
    rw [Table.get?_set, if_pos rfl]
  | error c =>
    rw [answer] at asked
    rw [Act.run_bind_error asked]
    exact ⟨serves.congr rfl rfl rfl, rfl, fun v started => by cases started⟩

theorem Serves.stop (sound : m.IsSound) (serves : Serves m slots e) :
    Serves m slots (use e .stop) ∧ (use e .stop).connection = e.connection := by
  have shows : e.look "stop" = .ok (.routine .stop) :=
    serves.look_of_other sound "stop" _ (by decide) (by decide) (by decide) rfl (by simp)
  obtain ⟨fuel, runs⟩ := serves.operate shows rfl
  obtain ⟨b, started⟩ := serves.started
  have running := serves.look_own sound (by decide) started
  have asked := Act.run_ask (e := e) .stop
  have stops : Act.stopClient.run e = (if b then do
      Act.hasConnection
      let _ ← Act.ask .stop
      Act.assign "_started" (.value (.ofBool false))
      pure .null
    else pure .null : Act Value).run e := by
    refine (Act.run_bind_ok (Act.run_read running)).trans ?_
    cases b <;> rfl
  rw [use, runs, Act.runRoutine, stops]
  cases b with
  | false => exact ⟨serves, rfl⟩
  | true =>
    rw [if_pos rfl, Act.run_bind_ok (serves.run_hasConnection sound)]
    cases answer : e.connection .stop with
    | ok v =>
      have next : IsClient m { e with asked := e.asked ++ [.stop] } :=
        serves.toIsClient.congr rfl rfl
      rw [answer] at asked
      rw [Act.run_bind_ok asked, Act.run_bind_ok (Act.run_assign (next.unsealed sound) _)]
      exact ⟨serves.mark sound false _, rfl⟩
    | error c =>
      rw [answer] at asked
      rw [Act.run_bind_error asked]
      exact ⟨serves.congr rfl rfl rfl, rfl⟩

-- Whatever is done with a client, it keeps serving, and its slots hold what was assigned last.
theorem Serves.use (sound : m.IsSound) (serves : Serves m slots e) (u : Use)
    (fits : ∀ slot c, u = .assign slot c → slot ∈ m.push.map (·.attributeName)) :
    Serves m (u.fill slots) (use e u) ∧ (Client.use e u).connection = e.connection := by
  cases u with
  | assign slot c =>
    obtain ⟨assigned, next⟩ := serves.assign sound (fits slot c rfl) c
    exact ⟨next, by rw [assigned]⟩
  | start =>
    obtain ⟨next, connection, -⟩ := serves.start sound
    exact ⟨next, connection⟩
  | stop => exact serves.stop sound
  | event wireName arguments =>
    rw [Client.use, serves.deliver_ofText sound]
    exact ⟨serves.congr rfl rfl rfl, rfl⟩
  | meanwhile loop => exact ⟨serves.congr rfl rfl rfl, rfl⟩

theorem Serves.uses (sound : m.IsSound) (serves : Serves m slots e) (uses : List Use)
    (fits : ∀ slot c, .assign slot c ∈ uses → slot ∈ m.push.map (·.attributeName)) :
    Serves m (uses.foldl Use.fill slots) (uses.foldl Client.use e) ∧
      (uses.foldl Client.use e).connection = e.connection := by
  induction uses generalizing slots e with
  | nil => exact ⟨serves, rfl⟩
  | cons u uses ih =>
    obtain ⟨next, connection⟩ := serves.use sound u fun slot c same =>
      fits slot c (same ▸ List.mem_cons_self)
    obtain ⟨last, same⟩ := ih next fun slot c later => fits slot c (List.mem_cons_of_mem _ later)
    exact ⟨last, same.trans connection⟩

end Client

-- The binding of a contract that compiles, whose name is an identifier.
theorem Pipeline.binding_of_success {rules : RuleSet} {k : Contract} {o : Options}
    (compiled : (compile Pass.standard rules k o).status = .success) :
    (compile Pass.standard rules k o).binding = some (.synthesize k.validated o) ∧
      Text.isIdentifier k.bindingName := by
  obtain ⟨-, -, ⟨clean, -, -, binding, -⟩ | ⟨-, failed, -⟩⟩ := compile_cases rules k o
  · refine ⟨binding, ?_⟩
    have marker := (List.append_eq_nil_iff.mp (List.append_eq_nil_iff.mp clean).1).2
    by_contra invalid
    rw [if_neg invalid] at marker
    cases marker
  · cases failed.symm.trans compiled

namespace Client

-- Every contract that compiles has a class, and clients of it dispatch as declared: whatever was put
-- into slots, an event runs the slots of the push members with its wire name, each once and in the
-- order of the manifest, and nothing else; and on a started client the wrapper of an invoke method
-- asks the connection once, for that method with these arguments and this token. Here an event is handed to
-- its handlers one by one, which is what happens when it arrives (`Serves.eq_of_emit`).
theorem dispatch_compiled (rules : RuleSet) (k : Contract) (o : Options) (connection : Connection)
    (url : Value)
    (compiled : (Engine.standard.compileContract rules k o none).1.value.status = .success) :
    ∃ b cls e, (Engine.standard.compileContract rules k o none).1.value.binding = some b ∧
      ClientClass.ofManifest b.manifest = .ok cls ∧ build cls connection url = .ok e ∧
      b.manifest.attributes.Nodup ∧
      b.manifest.push.map (·.wireName) = k.pushMethods.map (·.method.name) ∧
      ∀ uses, (∀ slot c, .assign slot c ∈ uses → slot ∈ b.manifest.push.map (·.attributeName)) →
        let e' := uses.foldl use e
        (∀ wireName arguments,
          let own := b.manifest.push.filter (·.wireName = wireName)
          deliver (.ofText wireName) arguments e' =
            { e' with notes := e'.notes ++ noted own (inSlots uses) arguments }) ∧
        List.Forall₂ (fun w d => ∀ arguments t,
            arguments.length = (withoutCancellation o.cancellationType w.method.parameters).length →
            e'.look "started" = .ok (.value (.ofBool true)) → e'.loop.hasFired t = false →
            let call := .invoke (.ofText w.method.name) arguments (.token t)
            (invoke (.ofText d.attributeName) arguments (some (.token t))).run e' =
              ((connection call).mapError .error, { e' with asked := e'.asked ++ [call] }))
          k.invokeMethods b.manifest.invoke := by
  obtain ⟨binding, identifier⟩ := Pipeline.binding_of_success compiled
  have sound := ClientBinding.isSound_synthesize k.validated o identifier
  refine ⟨_, _, _, binding, ClientClass.ofManifest_of_isSound sound, build_ofSound sound connection url,
    sound.distinct, ?_, fun uses fits => ?_⟩
  · exact ClientBinding.map_wireName_push k.validated o
  · obtain ⟨serves, same⟩ := (serves_built sound connection url).uses sound uses fits
    refine ⟨fun wireName arguments => serves.deliver_ofText sound wireName arguments, ?_⟩
    have members : (ClientBinding.synthesize k.validated o).manifest.invoke =
        (ClientBinding.based k.invokeMethods).map fun b => ClientBinding.invokeDescriptor
          o.cancellationType (ClientBinding.invokeMember o.cancellationType b.1 b.2) := by
      simp [ClientBinding.synthesize, Contract.validated]
    rw [members]
    refine ClientBinding.forall₂_based fun w base inside arguments t arity started unfired => ?_
    have member : ClientBinding.invokeDescriptor o.cancellationType
        (ClientBinding.invokeMember o.cancellationType w.method base) ∈
          (ClientBinding.synthesize k.validated o).manifest.invoke := by
      rw [members]
      exact List.mem_map.mpr ⟨_, inside, rfl⟩
    have fits := arity.trans
      (ClientBinding.payloadArity_invokeDescriptor o.cancellationType w.method base).symm
    have named : (ClientBinding.invokeDescriptor o.cancellationType
        (ClientBinding.invokeMember o.cancellationType w.method base)).wireName = w.method.name := rfl
    have invoked := serves.run_invoke sound member fits started unfired
    rw [Act.run_ask, named, congrFun same _] at invoked
    exact invoked

-- Two overloads of an event, and an invoke method whose name looks like theirs.
def lobby : Contract where
  name := "ILobby"
  uri := "/lobby"
  pushSet := some ⟨"IEvents", [{ name := "Joined", parameters := [⟨"user", "str"⟩] },
    { name := "Joined", parameters := [⟨"user", "str"⟩, ⟨"room", "str"⟩] }], []⟩
  invokeSet := some ⟨"ICommands", [{ name := "joined", parameters := [⟨"user", "str"⟩,
    ⟨"token", "CancellationToken"⟩] }], []⟩

def greeter : Callback := { label := some "greeter", answer := fun _ => .ok .null }

def lobbyUses : List Use :=
  [.assign "on_joined_2" (some greeter), .start, .meanwhile { tokens := [{}] }]

-- The slot of the second overload is filled; the event runs it, and the wrapper asks for its method.
theorem dispatch_compiled_lobby :
    let compiled := (Engine.standard.compileContract .builtIn lobby {} none).1.value
    compiled.status = .success ∧ ∃ b cls e, compiled.binding = some b ∧
      ClientClass.ofManifest b.manifest = .ok cls ∧ build cls (fun _ => .ok .null) .null = .ok e ∧
      let e' := lobbyUses.foldl use e
      (deliver (.ofText "Joined") [.ofText "Ann"] e').notes =
        e'.notes ++ [⟨"greeter", some [.ofText "Ann"]⟩] ∧
      let call := .invoke (.ofText "joined") [.ofText "Ann"] (.token 0)
      (invoke (.ofText "invoke_joined") [.ofText "Ann"] (some (.token 0))).run e' =
        (.ok .null, { e' with asked := e'.asked ++ [call] }) := by
  intro compiled
  have success : compiled.status = .success := by decide +kernel
  obtain ⟨b, cls, e, binding, made, born, -, -, uses⟩ :=
    dispatch_compiled .builtIn lobby {} (fun _ => .ok .null) .null success
  refine ⟨success, b, cls, e, binding, made, born, ?_⟩
  obtain rfl := Option.some.inj (binding.symm.trans (Pipeline.binding_of_success success).1)
  have sound := ClientBinding.isSound_synthesize lobby.validated {} (by decide +kernel)
  obtain rfl := Except.ok.inj (made.symm.trans (ClientClass.ofManifest_of_isSound sound))
  obtain rfl := Except.ok.inj (born.symm.trans (build_ofSound sound _ _))
  have slots : (ClientBinding.synthesize lobby.validated {}).manifest.push.map (·.attributeName) =
      ["on_joined", "on_joined_2"] := by decide +kernel
  have fits (slot : String) (c : Option Callback) (assigned : .assign slot c ∈ lobbyUses) :
      slot ∈ (ClientBinding.synthesize lobby.validated {}).manifest.push.map (·.attributeName) := by
    rw [slots]
    simp_all [lobbyUses]
  obtain ⟨events, calls⟩ := uses lobbyUses fits
  have serving := (serves_built sound (fun _ => .ok .null) .null).assign sound
    (fits "on_joined_2" (some greeter) List.mem_cons_self) (some greeter)
  have started := (serving.2.start sound).2.2 .null (by rw [serving.1]; rfl)
  constructor
  · have own : ((ClientBinding.synthesize lobby.validated {}).manifest.push.filter
        (·.wireName = "Joined")).map (·.attributeName) = ["on_joined", "on_joined_2"] := by
      decide +kernel
    have runs : noted ((ClientBinding.synthesize lobby.validated {}).manifest.push.filter
        (·.wireName = "Joined")) (inSlots lobbyUses) [.ofText "Ann"] =
          [⟨"greeter", some [.ofText "Ann"]⟩] := by
      rw [noted_eq_flatMap_map, own]
      rfl
    have arrived := congrArg Endpoint.notes (events "Joined" [.ofText "Ann"])
    rwa [runs] at arrived
  · have methods : lobby.invokeMethods.map (fun w => (w.method.name, w.method.parameters)) =
        [("joined", [⟨"user", "str"⟩, ⟨"token", "CancellationToken"⟩])] := by decide +kernel
    have members : (ClientBinding.synthesize lobby.validated {}).manifest.invoke.map
        (·.attributeName) = ["invoke_joined"] := by decide +kernel
    obtain ⟨w, one, declared⟩ := List.map_eq_singleton_iff.mp methods
    obtain ⟨d, only, wrapper⟩ := List.map_eq_singleton_iff.mp members
    obtain ⟨name, parameters⟩ := Prod.mk.inj declared
    rw [one, only] at calls
    have call := (List.forall₂_cons.mp calls).1 [.ofText "Ann"] 0 (by rw [parameters]; decide)
      started rfl
    rwa [name, wrapper] at call

end Client

end HubContract
