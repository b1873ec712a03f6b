import HubContract.Proofs.Client.Asking
import HubContract.Proofs.Client.Use
import HubContract.Proofs.Source.Behavior

namespace HubContract

open HubContract.Text

theorem ClientClass.get?_ofSound {m : Manifest} {name : String} {a : Attribute} (sound : m.IsSound) :
    (ofSound m).members.get? name = some a ↔ (name, a) ∈ entries m :=
  ⟨Table.mem_of_get?_setAll, Table.get?_setAll_of_mem (nodup_entries sound)⟩

namespace ClientBinding

variable {v : Validated} {o : Options}

-- What the class of a synthesized manifest says besides texts and the manifest, by the members of the
-- binding.
theorem mem_entries_synthesize {name : String} {a : Attribute} (notText : ∀ s, a ≠ .value (.ofText s))
    (notManifest : ∀ m, a ≠ .manifest m) :
    (name, a) ∈ ClientClass.entries (synthesize v o).manifest ↔
      (∃ m ∈ (synthesize v o).push, (name, a) = (m.slotName, .value .null) ∨
        (name, a) = (m.thunkName, .routine (.thunk m.thunkName m.slotName))) ∨
      ∃ m ∈ (synthesize v o).invoke,
        (name, a) = (m.methodName, .routine (.wrapper m.methodName m.wireName m.parameters.length)) := by
  have head : (name, a) ∉ ClientClass.headEntries (synthesize v o).manifest := by
    intro inside
    obtain ⟨s, text⟩ | manifest := ClientClass.of_mem_headEntries inside
    · exact notText s text
    · exact notManifest _ manifest
  have push : (synthesize v o).manifest.push.flatMap
      (fun d => ClientClass.pushEntries d (d.handler.getD "")) = (synthesize v o).push.flatMap fun m =>
        [(m.slotName, .value .null), (m.thunkName, .routine (.thunk m.thunkName m.slotName))] :=
    List.flatMap_map ..
  have invoke : (synthesize v o).manifest.invoke.map
      (ClientClass.invokeEntry (synthesize v o).manifest.cancellationType) =
        (synthesize v o).invoke.map fun m =>
          (m.methodName, .routine (.wrapper m.methodName m.wireName m.parameters.length)) := by
    refine (List.map_map ..).trans (List.map_congr_left fun m inside => ?_)
    have arity := payloadArity_of_mem_invoke inside
    exact congrArg (fun n => (m.methodName, Attribute.routine (.wrapper m.methodName m.wireName n))) arity
  rw [ClientClass.entries, push, invoke, List.append_assoc, List.mem_append, List.mem_append,
    or_iff_right head]
  simp only [List.mem_flatMap, List.mem_map, List.mem_cons, List.not_mem_nil, or_false, eq_comm]

end ClientBinding

namespace Source

-- What a class and a module have in common: how they are called and where they belong, and which slots,
-- thunks and wrappers they have.
structure SameSurface (cls : ClientClass) (source : ClientModule) : Prop where
  name : cls.name = source.className
  address : cls.members.get? "hub_uri" = some (.value (.ofText source.uri))
  manifest : cls.members.get? "__manifest__" = some (.manifest source.manifest)
  slots : ∀ name, cls.members.get? name = some (.value .null) ↔ ∃ s ∈ source.slots, s.name = name
  thunks : ∀ name own slot, cls.members.get? name = some (.routine (.thunk own slot)) ↔
    own = name ∧ ∃ t ∈ source.thunks, t.name = name ∧ t.slot = slot
  wrappers : ∀ name own wireName arity,
    cls.members.get? name = some (.routine (.wrapper own wireName arity)) ↔ own = name ∧
      ∃ w ∈ source.wrappers, w.name = name ∧ w.wireName = wireName ∧ w.parameters.length = arity

variable {v : Validated} {o : Options}

theorem sameSurface_ofSound (sound : (ClientBinding.synthesize v o).manifest.IsSound) :
    SameSurface (ClientClass.ofSound (ClientBinding.synthesize v o).manifest)
      (ClientModule.ofBinding (ClientBinding.synthesize v o)) where
  name := rfl
  address := (ClientClass.get?_ofSound sound).mpr (by simp [ClientClass.entries, ClientClass.headEntries,
    ClientModule.ofBinding, ClientBinding.synthesize])
  manifest := (ClientClass.get?_ofSound sound).mpr (by simp [ClientClass.entries,
    ClientClass.headEntries, ClientModule.ofBinding])
  slots name := by
    rw [ClientClass.get?_ofSound sound, ClientBinding.mem_entries_synthesize
      (a := .value .null) (by simp [Value.null, Value.ofText]) (by simp)]
    simp only [ClientModule.ofBinding, List.mem_map]
    grind
  thunks name own slot := by
    rw [ClientClass.get?_ofSound sound, ClientBinding.mem_entries_synthesize
      (a := .routine (.thunk own slot)) (by simp) (by simp)]
    simp only [ClientModule.ofBinding, List.mem_map]
    grind
  wrappers name own wireName arity := by
    rw [ClientClass.get?_ofSound sound, ClientBinding.mem_entries_synthesize
      (a := .routine (.wrapper own wireName arity)) (by simp) (by simp)]
    simp only [ClientModule.ofBinding, List.mem_map]
    grind [ClientModule.wrapperOf]

-- Both give the connection the same handlers, in the same order.
theorem handlers_built (connection : Connection) (url : Value) :
    Client.handlers (Client.built (ClientBinding.synthesize v o).manifest connection url) =
      .ok ((ClientModule.ofBinding (ClientBinding.synthesize v o)).registrations.map
        fun r => (.ofText r.wireName, r.thunkName)) := by
  have routes : (Client.built (ClientBinding.synthesize v o).manifest connection url).routes =
      (ClientBinding.synthesize v o).push.map fun m =>
        (.ofText m.wireName, .routine (.thunk m.thunkName m.slotName)) := List.map_map ..
  have registrations : (ClientModule.ofBinding (ClientBinding.synthesize v o)).registrations =
      (ClientBinding.synthesize v o).push.map fun m => ⟨m.wireName, m.thunkName⟩ := rfl
  rw [Client.handlers, routes, registrations, List.mapM_map, List.map_map]
  exact List.mapM_pure ..

-- A thunk of the module does what the one of the class does unless a parameter hides its callback.
theorem matches_iff_of_mem_thunks {t : Thunk}
    (inside : t ∈ (ClientModule.ofBinding (ClientBinding.synthesize v o)).thunks) :
    t.Matches ↔ ∀ p ∈ t.parameters, p.name ≠ t.callbackVariable := by
  obtain ⟨m, member, rfl⟩ := List.mem_map.mp inside
  obtain ⟨k, base, rfl⟩ := ClientBinding.exists_of_mem_push member
  exact Thunk.matches_iff (nodup_name_payloadParameters ..) (Naming.isOfMember_thunkName base)

variable {m : InvokeMember}

theorem answers_wrapperOf (cancellationType : String) (m : InvokeMember) :
    (ClientModule.wrapperOf cancellationType m).answers = m.resultType.any (· ≠ "") := by
  rw [ClientModule.wrapperOf]
  cases m.resultType <;> rfl

-- No parameter of a wrapper is taken for its token.
theorem name_ne_cancellation (inside : m ∈ (ClientBinding.synthesize v o).invoke) :
    ∀ p ∈ m.parameters, p.name ≠ "cancellation" := by
  obtain ⟨k, base, rfl⟩ := ClientBinding.exists_of_mem_invoke inside
  intro p parameter called
  refine name_not_mem_reserved _ _ parameter ?_
  rw [called]
  decide

theorem nodup_name_of_mem_invoke (inside : m ∈ (ClientBinding.synthesize v o).invoke) :
    (m.parameters.map (·.name)).Nodup := by
  obtain ⟨k, base, rfl⟩ := ClientBinding.exists_of_mem_invoke inside
  exact nodup_name_payloadParameters ..

-- A wrapper of the module does what the one of the class does exactly if there is a result type.
theorem matches_wrapperOf_iff (typed : o.cancellationType ≠ "")
    (inside : m ∈ (ClientBinding.synthesize v o).invoke) :
    (ClientModule.wrapperOf o.cancellationType m).Matches ↔ m.resultType.any (· ≠ "") := by
  have member : Naming.isOfMember m.methodName := by
    obtain ⟨k, base, rfl⟩ := ClientBinding.exists_of_mem_invoke inside
    exact Naming.isOfMember_invokeName base
  rw [← answers_wrapperOf o.cancellationType m]
  exact Wrapper.matches_iff (nodup_name_of_mem_invoke inside) (name_ne_cancellation inside) typed member

section

variable {e : Endpoint} {arguments : List Value}
  (sound : (ClientBinding.synthesize v o).manifest.IsSound)
  (client : Client.IsClient (ClientBinding.synthesize v o).manifest e)
  (started : e.look "started" = .ok (.value (.ofBool true)))
  (inside : m ∈ (ClientBinding.synthesize v o).invoke) (length : m.parameters.length = arguments.length)

include sound client started inside length

-- On a client that is started, and unless the token keeps it from that, the wrapper of the class asks for
-- its method and hands back the answer.
theorem run_invoke_member {keyword : Keyword}
    (passes : (Act.refuseIfFired (keyword.getD .null)).run e = (.ok (), e)) :
    (Client.invoke (.ofText m.methodName) arguments keyword).run e =
      let call := .invoke (.ofText m.wireName) arguments (keyword.getD .null)
      ((e.connection call).mapError .error, { e with asked := e.asked ++ [call] }) := by
  have arity := length.symm.trans (ClientBinding.payloadArity_of_mem_invoke inside).symm
  have descriptor := List.mem_map_of_mem (f := ClientBinding.invokeDescriptor o.cancellationType) inside
  exact (client.run_invoke_of_passes sound descriptor arity started passes).trans (Act.run_ask _)

-- The wrapper of the module asks for the same, and hands back the answer if there is a result type.
theorem run_act_wrapperOf {token : Value} (passes : (Act.refuseIfFired token).run e = (.ok (), e))
    (typed : o.cancellationType ≠ "") :
    ((ClientModule.wrapperOf o.cancellationType m).act Act.await arguments token).run e =
      let call := .invoke (.ofText m.wireName) arguments token
      let answer := e.connection call
      ((if m.resultType.any (· ≠ "") then answer else answer.map fun _ => .null).mapError .error,
        { e with asked := e.asked ++ [call] }) := by
  have asked := (client.run_invokeByWire sound started passes m.wireName arguments).trans (Act.run_ask _)
  rw [Wrapper.act_eq_awaitName (nodup_name_of_mem_invoke inside) length (name_ne_cancellation inside)
    typed, answers_wrapperOf]
  dsimp only
  split
  · exact asked
  · exact Act.run_muted_answer asked

end

-- An event with a parameter that hides the callback, and two methods of which one has a result.
def canteen : Contract where
  name := "ICanteen"
  uri := "canteen"
  pushSet := some ⟨"IServings", [{ name := "Served", parameters := [⟨"callback", "str"⟩] }], []⟩
  invokeSet := some ⟨"IOrders", [{ name := "Order", parameters := [⟨"dish", "str"⟩] },
    { name := "Price", parameters := [⟨"dish", "str"⟩], returns := ⟨.valueAsync, some "int"⟩ }], []⟩

def five : Value := .data (.int 5)

end Source

end HubContract
