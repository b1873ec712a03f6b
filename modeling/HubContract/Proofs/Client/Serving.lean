import HubContract.Proofs.Client.Class
import HubContract.Proofs.Endpoint.Frame

namespace HubContract

-- What a slot holds to which a callback was assigned, or nothing.
def Held.ofCallback? : Option Callback → Held
  | some c => .callback c
  | none => .null

-- What one call of a callback leaves behind. A call with arguments that it does not take is refused.
def Callback.noted (c : Callback) (arguments : List Value) : List Note :=
  if c.takes arguments.length then
    c.label.toList.map fun label => ⟨label, if c.arity = some 0 then none else some arguments⟩
  else []

namespace Act

variable {e e' : Endpoint} {c : Callback} {arguments : List Value}

theorem run_runCallback (takes : c.takes arguments.length) :
    (runCallback c arguments).run e =
      ((c.answer arguments).mapError .error, { e with notes := e.notes ++ c.noted arguments }) := by
  rw [runCallback, run_bind_ok (run_modify _ e), Callback.noted, if_pos takes]
  cases c.answer arguments <;> rfl

end Act

namespace Client

open ClientClass

-- The handler of a push member, with the wire name that it is registered for.
def route (d : MemberDescriptor) : Value × Held :=
  (.ofText d.wireName, .routine (.thunk (d.handler.getD "") d.attributeName))

-- Names that a client assigns to itself.
def ownNames : List String := ["_connection", "_url", "_started"]

-- A client whose class is that of a manifest, and of which nothing was assigned but slots.
structure IsClient (m : Manifest) (e : Endpoint) : Prop where
  blueprint : e.blueprint = (ofSound m).blueprint
  connected : e.fields.get? "_connection" = some .connection
  started : ∃ b, e.fields.get? "_started" = some (.value (.ofBool b))
  untouched : ∀ name ∉ ownNames, name ∉ m.push.map (·.attributeName) → e.fields.get? name = none

-- A client with these callbacks in its slots, whose connection has its handlers.
structure Serves (m : Manifest) (slots : String → Option Callback) (e : Endpoint) : Prop
    extends IsClient m e where
  routes : e.routes = m.push.map route
  filled : ∀ d ∈ m.push, (e.fields.get? d.attributeName).getD .null =
    .ofCallback? (slots d.attributeName)

section

variable {m : Manifest} {slots : String → Option Callback} {e : Endpoint} {d : MemberDescriptor}
  {name : String}

theorem not_mem_ownNames (member : Naming.isOfMember name) : name ∉ ownNames := by
  intro inside
  have none : ∀ n ∈ ownNames, Naming.isOfMember n = false := by decide
  rw [none name inside] at member
  cases member

theorem isOfMember_slot (sound : m.IsSound) (inside : d ∈ m.push) :
    Naming.isOfMember d.attributeName :=
  sound.named _ (List.mem_append_left _ (List.mem_map_of_mem (List.mem_append_left _ inside)))

theorem isOfMember_wrapper (sound : m.IsSound) (inside : d ∈ m.invoke) :
    Naming.isOfMember d.attributeName :=
  sound.named _ (List.mem_append_left _ (List.mem_map_of_mem (List.mem_append_right _ inside)))

theorem isOfMember_thunk (sound : m.IsSound) (inside : d ∈ m.push) :
    Naming.isOfMember (d.handler.getD "") := by
  refine sound.named _ (List.mem_append_right _ ?_)
  rw [handlers_eq sound.handled]
  exact List.mem_map_of_mem (f := fun d : MemberDescriptor => d.handler.getD "") inside

-- Slots, thunks and wrappers have nothing to do with one another.
theorem not_slot_of_thunk (sound : m.IsSound) (inside : d ∈ m.push) :
    d.handler.getD "" ∉ m.push.map (·.attributeName) := by
  intro slot
  have thunk : d.handler.getD "" ∈ m.push.filterMap (·.handler) := by
    rw [handlers_eq sound.handled]
    exact List.mem_map.mpr ⟨d, inside, rfl⟩
  have member : d.handler.getD "" ∈ (m.push ++ m.invoke).map (·.attributeName) := by
    rw [List.map_append]
    exact List.mem_append_left _ slot
  exact (List.nodup_append.mp sound.distinct).2.2 _ member _ thunk rfl

theorem not_slot_of_wrapper (sound : m.IsSound) (inside : d ∈ m.invoke) :
    d.attributeName ∉ m.push.map (·.attributeName) := by
  intro slot
  have members := (List.nodup_append.mp sound.distinct).1
  rw [List.map_append] at members
  exact (List.nodup_append.mp members).2.2 _ slot _ (List.mem_map.mpr ⟨d, inside, rfl⟩) rfl

theorem not_slot_of_other (sound : m.IsSound) (other : Naming.isOfMember name = false) :
    name ∉ m.push.map (·.attributeName) := by
  intro inside
  obtain ⟨d, member, rfl⟩ := List.mem_map.mp inside
  rw [isOfMember_slot sound member] at other
  cases other

-- A name that was not assigned shows what the class has for it.
theorem IsClient.look_of_untouched (client : IsClient m e) {a : Attribute}
    (notOwn : name ∉ ownNames) (notSlot : name ∉ m.push.map (·.attributeName))
    (found : (ofSound m).blueprint.find? name = some a)
    (plain : (∀ field, a ≠ .property field) ∧ (∀ reason, a ≠ .sealed reason) ∧ a ≠ .kind) :
    e.look name = .ok a.held := by
  have empty := client.untouched name notOwn notSlot
  have field : e.lookField name = .ok a.held := by
    simp [Endpoint.lookField, empty, client.blueprint, found]
  unfold Endpoint.look
  rw [client.blueprint, found]
  cases a with
  | property other => exact absurd rfl (plain.1 other)
  | «sealed» reason => exact absurd rfl (plain.2.1 reason)
  | kind => exact absurd rfl plain.2.2
  | routine | prompt | value | manifest | model => exact field

-- What all clients have under a name that is neither of a member nor assigned.
theorem IsClient.look_of_other (sound : m.IsSound) (client : IsClient m e) (name : String)
    (a : Attribute) (other : Naming.isOfMember name = false) (notHead : name ∉ headNames) (notOwn : name ∉ ownNames)
    (layer : Blueprint.clientLayer.get? name = some a)
    (plain : (∀ field, a ≠ .property field) ∧ (∀ reason, a ≠ .sealed reason) ∧ a ≠ .kind) :
    e.look name = .ok a.held := by
  refine client.look_of_untouched notOwn (not_slot_of_other sound other) ?_ plain
  rw [find?_of_other sound other notHead, layer]
  rfl

theorem IsClient.look_thunk (sound : m.IsSound) (client : IsClient m e) (inside : d ∈ m.push) :
    e.look (d.handler.getD "") = .ok (route d).2 :=
  client.look_of_untouched (not_mem_ownNames (isOfMember_thunk sound inside))
    (not_slot_of_thunk sound inside) (find?_thunk sound inside) (by simp)

theorem IsClient.look_wrapper (sound : m.IsSound) (client : IsClient m e) (inside : d ∈ m.invoke) :
    e.look d.attributeName = .ok (.routine (.wrapper d.attributeName d.wireName
      (d.payloadArity m.cancellationType))) :=
  client.look_of_untouched (not_mem_ownNames (isOfMember_wrapper sound inside))
    (not_slot_of_wrapper sound inside) (find?_wrapper sound inside) (by simp)

-- Names of its own are in no layer of the class.
theorem find?_own (sound : m.IsSound) (own : name ∈ ownNames) :
    (ofSound m).blueprint.find? name = none := by
  have nowhere : ∀ n ∈ ownNames, Naming.isOfMember n = false ∧ n ∉ headNames ∧
      Blueprint.clientLayer.get? n = none ∧ Blueprint.objectLayer.get? n = none := by
    decide
  obtain ⟨other, notHead, client, object⟩ := nowhere name own
  rw [find?_of_other sound other notHead, client, object]
  rfl

theorem IsClient.look_own (sound : m.IsSound) (client : IsClient m e) (own : name ∈ ownNames) {h : Held}
    (holds : e.fields.get? name = some h) : e.look name = .ok h := by
  unfold Endpoint.look
  rw [client.blueprint, find?_own sound own]
  simp [Endpoint.lookField, holds]

theorem Serves.look_slot (sound : m.IsSound) (serves : Serves m slots e) (inside : d ∈ m.push) :
    e.look d.attributeName = .ok (.ofCallback? (slots d.attributeName)) := by
  have found := find?_slot sound inside
  have filled := serves.filled d inside
  unfold Endpoint.look Endpoint.lookField
  rw [serves.blueprint, found, ← filled]
  cases e.fields.get? d.attributeName <;> rfl

theorem IsClient.congr (client : IsClient m e) {e' : Endpoint} (blueprint : e'.blueprint = e.blueprint)
    (fields : e'.fields = e.fields) : IsClient m e' where
  blueprint := blueprint.trans client.blueprint
  connected := fields ▸ client.connected
  started := fields ▸ client.started
  untouched := fields ▸ client.untouched

theorem Serves.congr (serves : Serves m slots e) {e' : Endpoint} (blueprint : e'.blueprint = e.blueprint)
    (fields : e'.fields = e.fields) (routes : e'.routes = e.routes) : Serves m slots e' where
  toIsClient := serves.toIsClient.congr blueprint fields
  routes := routes.trans serves.routes
  filled := fields ▸ serves.filled

-- A new client has its handlers registered and nothing in its slots.

theorem IsClient.run_subscribe (sound : m.IsSound) (client : IsClient m e) (wireName : Value) (h : Held) :
    (Act.subscribe wireName h).run e =
      (.ok (), { e with routes := e.routes ++ [(wireName, h)] }) := by
  have connection := client.look_own sound (by decide) client.connected
  rw [Act.subscribe, Act.run_bind_ok (Act.run_read connection)]
  rfl

theorem IsClient.run_registerAll (sound : m.IsSound) (client : IsClient m e)
    {ds : List MemberDescriptor} (inside : ds ⊆ m.push) :
    (Act.registerAll ds).run e = (.ok (), { e with routes := e.routes ++ ds.map route }) := by
  induction ds generalizing e with
  | nil =>
    rw [Act.registerAll, Act.run_pure, List.map_nil, List.append_nil]
  | cons d ds ih =>
    have member : d ∈ m.push := inside List.mem_cons_self
    have target : e.look "_on" = .ok (.prompt .subscribe) :=
      client.look_of_other sound "_on" _ (by decide) (by decide) (by decide) rfl (by simp)
    have handler := client.look_thunk sound member
    have next : IsClient m { e with routes := e.routes ++ [route d] } := client.congr rfl rfl
    rw [Act.registerAll, Act.run_bind_ok (Act.run_read target), Act.run_bind_ok (Act.run_read handler)]
    dsimp only
    rw [Act.run_bind_ok (client.run_subscribe sound _ _)]
    refine (ih next fun d' later => inside (List.mem_cons_of_mem _ later)).trans ?_
    simp

theorem IsClient.run_register (sound : m.IsSound) (client : IsClient m e) :
    Act.register.run e = (.ok (), { e with routes := e.routes ++ m.push.map route }) := by
  have manifest : e.blueprint.find? "__manifest__" = some (.manifest m) := by
    rw [client.blueprint, find?_manifest sound]
  rw [Act.register, Act.run_bind_ok (Act.run_get e), manifest]
  exact client.run_registerAll sound (List.Subset.refl _)

-- What a client is right after it was built.
def built (m : Manifest) (connection : Connection) (url : Value) : Endpoint where
  blueprint := (ofSound m).blueprint
  connection
  fields := [("_connection", .connection), ("_url", .value url), ("_started", .value (.ofBool false))]
  routes := m.push.map route

theorem serves_built (sound : m.IsSound) (connection : Connection) (url : Value) :
    Serves m (fun _ => none) (built m connection url) where
  blueprint := rfl
  connected := rfl
  started := ⟨false, rfl⟩
  untouched name notOwn _ := Table.get?_of_not_mem notOwn
  routes := rfl
  filled d inside := by
    have empty : (built m connection url).fields.get? d.attributeName = none :=
      Table.get?_of_not_mem (not_mem_ownNames (isOfMember_slot sound inside))
    rw [empty]
    rfl

theorem build_ofSound (sound : m.IsSound) (connection : Connection) (url : Value) :
    build (ofSound m) connection url = .ok (built m connection url) := by
  have setUp : (Act.setUp .connection (.value url)).run
      { blueprint := (ofSound m).blueprint, connection } = (.ok (), built m connection url) := by
    -- before its handlers are registered
    have client : IsClient m { built m connection url with routes := [] } :=
      (serves_built sound connection url).toIsClient.congr rfl rfl
    have register : Endpoint.look { built m connection url with routes := [] } "_register_hub_methods" =
        .ok (.prompt .register) :=
      client.look_of_other sound "_register_hub_methods" _ (by decide) (by decide) (by decide) rfl
        (by simp)
    have free {own : String} (inside : own ∈ ownNames) (e : Endpoint)
        (same : e.blueprint = (ofSound m).blueprint) : e.sealFault? own = none := by
      rw [Endpoint.sealFault?, same, find?_own sound inside]
    rw [Act.setUp, Act.run_bind_ok (Act.run_assign (free (by decide) _ rfl) _),
      Act.run_bind_ok (Act.run_assign (free (by decide) _ rfl) _),
      Act.run_bind_ok (Act.run_assign (free (by decide) _ rfl) _)]
    refine (Act.run_bind_ok (Act.run_read register)).trans ?_
    exact client.run_register sound
  have init : (ofSound m).blueprint.find? "__init__" = some (.prompt .setUp) :=
    find?_of_other sound (by decide) (by decide)
  rw [build, buildFault?_ofSound sound, init]
  dsimp only
  rw [setUp]

end

end Client

end HubContract
