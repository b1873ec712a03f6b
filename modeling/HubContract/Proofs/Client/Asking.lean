import HubContract.Proofs.Client.Dispatch
import HubContract.Proofs.Endpoint.Frame

namespace HubContract

namespace Act

-- Only tokens that have not fired are let through, and what counts as no token.
theorem token_of_run_refuseIfFired {token : Value} {e e' : Endpoint}
    (passes : (refuseIfFired token).run e = (.ok (), e')) :
    token.isNull ∨ ∃ t, token = .token t ∧ e.loop.hasFired t = false := by
  unfold refuseIfFired at passes
  split at passes
  case h_1 t =>
    rw [run_bind_ok (run_get e)] at passes
    split at passes
    case isTrue => cases congrArg Prod.fst passes
    case isFalse unfired => exact .inr ⟨t, rfl, by simpa using unfired⟩
  case h_2 v _ =>
    split at passes
    case isTrue => cases congrArg Prod.fst passes
    case isFalse null => exact .inl (by simpa using null)

theorem run_refuseIfFired_of_token {token : Value} {e : Endpoint}
    (fits : token.isNull ∨ ∃ t, token = .token t ∧ e.loop.hasFired t = false) :
    (refuseIfFired token).run e = (.ok (), e) := by
  obtain null | ⟨t, rfl, unfired⟩ := fits
  · unfold refuseIfFired
    split
    · cases null
    · rw [null]
      rfl
  · exact Client.run_refuseIfFired unfired

end Act

-- What a call that went well makes of a connection: a start opens it, and a stop closes it.
def ConnectionCall.opens? : ConnectionCall → Except CallError Value → Option Bool
  | .start, .ok _ => some true
  | .stop, .ok _ => some false
  | _, _ => none

-- What a connection may be asked for while it is open or not: a stop only if it is, and the same
-- goes for methods, whose token must not have fired.
def ConnectionCall.IsDue (isOpen : Bool) (loop : Loop Value) : ConnectionCall → Prop
  | .start => True
  | .stop => isOpen
  | .invoke _ _ token =>
    isOpen ∧ (token.isNull ∨ ∃ t, token = .token t ∧ loop.hasFired t = false)

namespace Table

variable {α : Type} {entries : Table α} {name : String} {v : α}

theorem mem_of_get?_setAll (found : (setAll [] entries).get? name = some v) :
    (name, v) ∈ entries := by
  rw [get?_setAll, get?_nil, Option.or_none] at found
  exact List.mem_reverse.mp (mem_of_get? found)

theorem isSome_get?_setAll (inside : (name, v) ∈ entries) :
    ((setAll [] entries).get? name).isSome := by
  rw [get?_setAll, get?_nil, Option.or_none, Option.isSome_iff_ne_none, Ne, get?_eq_none_iff, not_not,
    List.map_reverse, List.mem_reverse]
  exact List.mem_map_of_mem (f := Prod.fst) inside

end Table

namespace ClientClass

-- A class without members, with or without an address, or that of a manifest.
inductive IsMade : ClientClass → Prop
  | bare : IsMade bare
  | plain {name hubUri : Json} {c : ClientClass} (made : plain name hubUri = .ok c) : IsMade c
  | ofManifest {m : Manifest} {c : ClientClass} (made : ofManifest m = .ok c) : IsMade c

variable {c : ClientClass} {name : String} {a : Attribute}

-- What runs when names of a client are called. A thunk calls what the name of its slot holds, and
-- that is a name of a member.
def Runs (c : ClientClass) : Routine → Prop
  | .thunk _ slot => (c.members.get? slot).isSome
  | .wrapper .. | .start | .stop | .invoke => True
  | _ => False

-- What those names hold, and what calling them gives.
def Gives (c : ClientClass) : Held → Prop
  | .routine r | .pending (.routine r _ _) => c.Runs r
  | .prompt _ | .kind | .callback _ | .pending (.callback ..) => False
  | _ => True

def IsOrdinary (c : ClientClass) : Prop :=
  ∀ name a, c.members.get? name = some a → a.isFree ∧ c.Gives a.held

theorem find?_eq (c : ClientClass) (name : String) : c.blueprint.find? name =
    (c.members.get? name).or
      ((Blueprint.clientLayer.get? name).or (Blueprint.objectLayer.get? name)) := by
  simp only [blueprint, Blueprint.find?, List.findSome?_cons, List.findSome?_nil]
  cases c.members.get? name <;> cases Blueprint.clientLayer.get? name <;>
    cases Blueprint.objectLayer.get? name <;> rfl

theorem find?_of_member (own : c.members.get? name = some a) : c.blueprint.find? name = some a := by
  rw [find?_eq, own]
  rfl

-- All that a class without members can have is an address.
theorem isOrdinary_plain {title hubUri : Json} (made : plain title hubUri = .ok c) : c.IsOrdinary := by
  have address : ∀ n a, (n, a) ∈ c.members → ∃ v, a = .value v := by
    cases title with
    | str title =>
      simp only [plain] at made
      split at made
      case h_1 => cases made
      case h_2 =>
        cases made
        dsimp only
        split <;> simp
    | _ => cases made
  intro name a found
  obtain ⟨v, rfl⟩ := address name a (Table.mem_of_get? found)
  exact ⟨rfl, trivial⟩

-- Whatever its members are named, the class of a manifest is an ordinary one.
theorem isOrdinary_ofManifest {m : Manifest} (made : ofManifest m = .ok c) : c.IsOrdinary := by
  unfold ofManifest at made
  split at made
  case h_1 => cases made
  case h_2 push _ =>
    dsimp only at made
    split at made
    case h_1 => cases made
    case h_2 =>
      cases made
      intro name a found
      have inside := Table.mem_of_get?_setAll found
      rw [List.mem_append, List.mem_append] at inside
      obtain (head | handled) | wrapper := inside
      · obtain ⟨s, rfl⟩ | rfl := of_mem_headEntries head <;> exact ⟨rfl, trivial⟩
      · obtain ⟨⟨d, h⟩, member, pair⟩ := List.mem_flatMap.mp handled
        obtain slot | thunk : (name, a) = (d.attributeName, .value .null) ∨
            (name, a) = (h, .routine (.thunk h d.attributeName)) := by
          simpa [pushEntries] using pair
        · cases slot
          exact ⟨rfl, trivial⟩
        · cases thunk
          refine ⟨rfl, Table.isSome_get?_setAll (v := .value .null) ?_⟩
          refine List.mem_append_left _ (List.mem_append_right _ ?_)
          exact List.mem_flatMap.mpr ⟨_, member, List.mem_cons_self⟩
      · obtain ⟨d, -, entry⟩ := List.mem_map.mp wrapper
        cases entry
        exact ⟨rfl, trivial⟩

theorem IsMade.isOrdinary (made : IsMade c) : c.IsOrdinary := by
  cases made with
  | bare =>
    intro name a found
    cases found
  | plain made => exact isOrdinary_plain made
  | ofManifest made => exact isOrdinary_ofManifest made

end ClientClass

namespace Client

-- The operations by which a client is used.
def operations : List String := ["start", "stop", "_invoke"]

-- A client that counts as started or not, and that has nothing in its fields that could be called.
structure InService (c : ClientClass) (isOpen : Bool) (e : Endpoint) : Prop where
  blueprint : e.blueprint = c.blueprint
  connected : e.fields.get? "_connection" = some .connection
  started : e.fields.get? "_started" = some (.value (.ofBool isOpen))
  inert : ∀ name h, e.fields.get? name = some h → h = .connection ∨ ∃ v, h = .value v

-- A client after the connection was asked for something, or for nothing.
def asking (e : Endpoint) : Option ConnectionCall → Endpoint
  | none => e
  | some call => { e with
      asked := e.asked ++ [call]
      fields := match call.opens? (e.connection call) with
        | some isOpen => e.fields.set "_started" (.value (.ofBool isOpen))
        | none => e.fields }

-- What a step of a client comes to, which is one thing to ask for at most. If it fails, the client
-- counts as what it did before.
def ComesTo (isOpen : Bool) (e : Endpoint) (call? : Option ConnectionCall)
    (ran : Except Halt Value × Endpoint) : Prop :=
  ran.2 = asking e call? ∧ (∀ call ∈ call?, call.IsDue isOpen e.loop) ∧
    ∀ halt, ran.1 = .error halt → ran.2.fields = e.fields

def Comes (isOpen : Bool) (e : Endpoint) (ran : Except Halt Value × Endpoint) : Prop :=
  ∃ call?, ComesTo isOpen e call? ran

variable {c : ClientClass} {isOpen : Bool} {e : Endpoint} {name : String} {h : Held}

theorem comes_of_isStill {x : Act Value} (still : x.IsStill) : Comes isOpen e (x.run e) :=
  ⟨none, still e, by simp, fun _ _ => by rw [still e]⟩

theorem comes_bind {α : Type} {x : Act α} {f : α → Act Value} (still : x.IsStill)
    (next : ∀ a, x.run e = (.ok a, e) → Comes isOpen e ((f a).run e)) :
    Comes isOpen e ((x >>= f).run e) := by
  have same := still e
  rcases ran : x.run e with ⟨outcome, e'⟩
  rw [ran] at same
  obtain rfl : e' = e := same
  cases outcome with
  | ok a =>
    rw [Act.run_bind_ok ran]
    exact next a ran
  | error halt =>
    rw [Act.run_bind_error ran]
    exact ⟨none, rfl, by simp, fun _ _ => rfl⟩

theorem comes_muted {x : Act Value} (comes : Comes isOpen e (x.run e)) :
    Comes isOpen e ((Act.muted x).run e) := by
  obtain ⟨call?, state, due, failed⟩ := comes
  refine ⟨call?, (Act.run_muted x e).trans state, due, fun halt fails => ?_⟩
  rw [Act.run_muted]
  rcases ran : x.run e with ⟨outcome, e'⟩
  rw [ran] at failed
  cases outcome with
  | error halt' => exact failed halt' rfl
  | ok v =>
    rw [Act.run_muted_ok ran] at fails
    cases fails

theorem find?_own_isFree (ordinary : c.IsOrdinary) (same : e.blueprint = c.blueprint)
    (own : name ∈ ownNames) (a : Attribute) (found : e.blueprint.find? name = some a) : a.isFree := by
  have nowhere : ∀ n ∈ ownNames, (Blueprint.clientLayer.get? n).or (Blueprint.objectLayer.get? n) =
      none := by
    decide
  rw [same, ClientClass.find?_eq, nowhere name own, Option.or_none] at found
  exact (ordinary name a found).1

-- A client may always assign to itself.
theorem run_assign_own (ordinary : c.IsOrdinary) (same : e.blueprint = c.blueprint)
    (own : name ∈ ownNames) (h : Held) :
    (Act.assign name h).run e = (.ok (), { e with fields := e.fields.set name h }) :=
  Act.run_assign (Endpoint.sealFault?_eq_none (find?_own_isFree ordinary same own)) h

namespace InService

theorem look_own (ordinary : c.IsOrdinary) (service : InService c isOpen e) (own : name ∈ ownNames)
    (holds : e.fields.get? name = some h) : e.look name = .ok h := by
  rw [Endpoint.look_eq_lookField (find?_own_isFree ordinary service.blueprint own)]
  simp [Endpoint.lookField, holds]

-- A name shows what the class has for it, or what the client assigned to itself.
theorem held_of_look {a : Attribute} (service : InService c isOpen e)
    (found : c.blueprint.find? name = some a) (free : a.isFree) (shows : e.look name = .ok h) :
    h = a.held ∨ h = .connection ∨ ∃ v, h = .value v := by
  rw [← service.blueprint] at found
  rw [Endpoint.look_eq_lookField fun a' found' =>
    Option.some.inj (found.symm.trans found') ▸ free, Endpoint.lookField, found] at shows
  cases holds : e.fields.get? name with
  | none =>
    rw [holds] at shows
    exact .inl (Except.ok.inj shows).symm
  | some h' =>
    rw [holds] at shows
    obtain rfl := Except.ok.inj shows
    exact .inr (service.inert name h' holds)

-- What members and operations hold can only run members and operations.
theorem gives_of_look {a : Attribute} (service : InService c isOpen e)
    (found : c.blueprint.find? name = some a) (free : a.isFree) (gives : c.Gives a.held)
    (shows : e.look name = .ok h) : c.Gives h := by
  obtain rfl | rfl | ⟨v, rfl⟩ := service.held_of_look found free shows
  · exact gives
  · trivial
  · trivial

theorem gives_of_member (ordinary : c.IsOrdinary) (service : InService c isOpen e)
    (member : (c.members.get? name).isSome) (shows : e.look name = .ok h) : c.Gives h := by
  obtain ⟨a, own⟩ := Option.isSome_iff_exists.mp member
  obtain ⟨free, gives⟩ := ordinary name a own
  exact service.gives_of_look (ClientClass.find?_of_member own) free gives shows

theorem gives_of_operation (ordinary : c.IsOrdinary) (service : InService c isOpen e)
    (operation : name ∈ operations) (shows : e.look name = .ok h) : c.Gives h := by
  cases own : c.members.get? name with
  | some a => exact service.gives_of_member ordinary (by simp [own]) shows
  | none =>
    have routines : ∀ n ∈ operations, ∃ r ∈ [Routine.start, .stop, .invoke],
        Blueprint.clientLayer.get? n = some (.routine r) := by
      simp [operations, Blueprint.clientLayer, Table.get?_cons]
    obtain ⟨r, kind, there⟩ := routines name operation
    have found : c.blueprint.find? name = some (.routine r) := by
      rw [ClientClass.find?_eq, own, there]
      rfl
    have runs : c.Runs r := by
      simp only [List.mem_cons, List.not_mem_nil, or_false] at kind
      obtain rfl | rfl | rfl := kind <;> trivial
    exact service.gives_of_look found rfl runs shows

-- Ask for a start or a stop, and count as started or not once that went well.
theorem comes_ask (ordinary : c.IsOrdinary) (service : InService c isOpen e) {call : ConnectionCall}
    {opens : Bool} (well : ∀ v, call.opens? (.ok v) = some opens)
    (badly : ∀ error, call.opens? (.error error) = none) (due : call.IsDue isOpen e.loop) :
    Comes isOpen e ((do
      let _ ← Act.ask call
      Act.assign "_started" (.value (.ofBool opens))
      pure .null : Act Value).run e) := by
  refine ⟨some call, ?_⟩
  have asked := Act.run_ask (e := e) call
  cases answer : e.connection call with
  | error error =>
    rw [answer] at asked
    rw [Act.run_bind_error asked]
    exact ⟨by simp [asking, answer, badly], by simpa using due, fun _ _ => rfl⟩
  | ok v =>
    rw [answer] at asked
    have own : "_started" ∈ ownNames := by decide
    have marked := run_assign_own (e := { e with asked := e.asked ++ [call] }) ordinary
      service.blueprint own (.value (.ofBool opens))
    rw [Act.run_bind_ok asked, Act.run_bind_ok marked]
    refine ⟨?_, by simpa using due, fun halt fails => by cases fails⟩
    simp [asking, answer, well, Act.run_pure]

theorem comes_startClient (ordinary : c.IsOrdinary) (service : InService c isOpen e) :
    Comes isOpen e (Act.startClient.run e) :=
  comes_bind Act.isStill_hasConnection fun _ _ =>
    service.comes_ask ordinary (fun _ => rfl) (fun _ => rfl) trivial

theorem comes_stopClient (ordinary : c.IsOrdinary) (service : InService c isOpen e) :
    Comes isOpen e (Act.stopClient.run e) := by
  have running := service.look_own ordinary (by decide) service.started
  rw [Act.stopClient, Act.run_bind_ok (Act.run_read running)]
  cases isOpen with
  | false => exact ⟨none, rfl, by simp, fun _ _ => rfl⟩
  | true =>
    exact comes_bind Act.isStill_hasConnection fun _ _ =>
      service.comes_ask ordinary (fun _ => rfl) (fun _ => rfl) rfl

theorem comes_invoke (ordinary : c.IsOrdinary) (service : InService c isOpen e)
    (wireName arguments token : Value) :
    Comes isOpen e ((Act.invoke wireName arguments token).run e) := by
  have running := service.look_own ordinary (by decide) service.started
  rw [Act.invoke, Act.run_bind_ok (Act.run_read running)]
  cases isOpen with
  | false => exact comes_of_isStill (Act.isStill_className.bind fun _ => Act.isStill_refuse _)
  | true =>
    refine comes_bind (Act.isStill_refuseIfFired token) fun _ passes => ?_
    refine comes_bind Act.isStill_hasConnection fun _ _ => ?_
    refine comes_bind (Act.isStill_itemsOf arguments) fun items _ => ?_
    refine ⟨some (.invoke wireName items token), ?_, ?_, fun _ _ => ?_⟩
    · rw [Act.run_ask]
      simp [asking, ConnectionCall.opens?]
    · rintro call ⟨⟩
      exact ⟨rfl, Act.token_of_run_refuseIfFired passes⟩
    · rw [Act.run_ask]

end InService

theorem isStill_call (gives : c.Gives h) (arguments : List Value) (keyword : Keyword) :
    (Act.call h arguments keyword).IsStill := by
  cases h with
  | prompt | kind | callback => exact gives.elim
  | routine r =>
    simp only [Act.call, Act.launch]
    cases r.bind arguments keyword with
    | none => exact Act.isStill_refuse _
    | some bound => exact Act.isStill_pure _
  | _ => exact Act.isStill_refuse _

theorem gives_of_run_call {h' : Held} {arguments : List Value} {keyword : Keyword} {e' : Endpoint}
    (gives : c.Gives h) (gave : (Act.call h arguments keyword).run e = (.ok h', e')) : c.Gives h' := by
  cases h with
  | prompt | kind | callback => exact gives.elim
  | routine r =>
    simp only [Act.call, Act.launch] at gave
    cases fits : r.bind arguments keyword with
    | none =>
      rw [fits] at gave
      cases congrArg Prod.fst gave
    | some bound =>
      rw [fits] at gave
      cases congrArg Prod.fst gave
      exact gives
  | _ => cases congrArg Prod.fst gave

-- What awaits a call comes to what the call does.
theorem comes_call {await : Held → Act Value} {arguments : List Value} {keyword : Keyword}
    (awaits : ∀ h, c.Gives h → Comes isOpen e ((await h).run e)) (gives : c.Gives h) :
    Comes isOpen e ((Act.call h arguments keyword >>= await).run e) :=
  comes_bind (isStill_call gives _ _) fun h' gave => awaits h' (gives_of_run_call gives gave)

theorem comes_callName {await : Held → Act Value} {arguments : List Value} {keyword : Keyword}
    (awaits : ∀ h, c.Gives h → Comes isOpen e ((await h).run e))
    (gives : ∀ h, e.look name = .ok h → c.Gives h) :
    Comes isOpen e ((Act.callName name arguments keyword >>= await).run e) := by
  rw [Act.callName, bind_assoc]
  exact comes_bind (Act.isStill_read name) fun h reads =>
    comes_call awaits (gives h (Act.look_of_run_read reads))

-- By induction on how deep calls go: each routine does its own work, or hands over to one other call.
theorem InService.comes_runRoutine (ordinary : c.IsOrdinary) (service : InService c isOpen e)
    {await : Held → Act Value} (deeper : ∀ h, c.Gives h → Comes isOpen e ((await h).run e)) {r : Routine}
    (runs : c.Runs r) (arguments : List Value) (token : Value) :
    Comes isOpen e ((Act.runRoutine await r arguments token).run e) := by
  cases r with
  | thunk handler slot =>
    simp only [Act.runRoutine]
    split
    · exact comes_of_isStill (Act.isStill_pure _)
    · refine comes_bind (Act.isStill_read slot) fun h reads => ?_
      have held := service.gives_of_member ordinary runs (Act.look_of_run_read reads)
      split
      · exact comes_of_isStill (Act.isStill_pure _)
      · exact comes_muted (comes_bind (Act.isStill_itemsOf _) fun _ _ => comes_call deeper held)
  | wrapper member wireName arity =>
    simp only [Act.runRoutine]
    refine comes_bind (Act.isStill_checkArity _ _ _) fun _ _ => ?_
    refine comes_bind (Act.isStill_ofObject _) fun _ _ => ?_
    exact comes_callName deeper fun h => service.gives_of_operation ordinary (by decide)
  | start =>
    simp only [Act.runRoutine]
    exact service.comes_startClient ordinary
  | stop =>
    simp only [Act.runRoutine]
    exact service.comes_stopClient ordinary
  | invoke =>
    unfold Act.runRoutine
    split
    all_goals try contradiction
    · exact service.comes_invoke ordinary _ _ _
    · exact comes_of_isStill (Act.isStill_refuse _)
  | _ => exact runs.elim

theorem InService.comes_awaitWithin (ordinary : c.IsOrdinary) (service : InService c isOpen e)
    (fuel : Nat) (gives : c.Gives h) : Comes isOpen e ((Act.awaitWithin fuel h).run e) := by
  induction fuel generalizing h with
  | zero =>
    cases h with
    | pending p =>
      cases p with
      | callback => exact gives.elim
      | routine => exact comes_of_isStill (Act.isStill_refuse _)
    | _ => exact comes_of_isStill (Act.isStill_refuse _)
  | succ fuel ih =>
    cases h with
    | pending p =>
      cases p with
      | callback => exact gives.elim
      | routine r arguments token =>
        exact service.comes_runRoutine ordinary (fun h => ih) gives arguments token
    | _ => exact comes_of_isStill (Act.isStill_refuse _)

theorem InService.comes_await (ordinary : c.IsOrdinary) (service : InService c isOpen e)
    (gives : c.Gives h) : Comes isOpen e ((Act.await h).run e) := by
  have within : (Act.await h).run e = (Act.awaitWithin (Act.fuel e.blueprint) h).run e := by
    cases h with
    | pending => exact Act.run_bind_ok (Act.run_get e)
    | _ => rfl
  rw [within]
  exact service.comes_awaitWithin ordinary _ gives

end Client

end HubContract
