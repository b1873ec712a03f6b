import HubContract.Proofs.Client.Asking
import HubContract.Proofs.Client.Use

namespace HubContract

namespace Act

theorem keeps_subscribe (wireName : Value) (h : Held) : Keeps (subscribe wireName h) := by
  refine (isStill_read _).keeps.bind fun _ => ?_
  split
  · exact fun _ => ⟨rfl, rfl, rfl, rfl⟩
  · exact (isStill_refuse _).keeps

theorem keeps_registerAll (ds : List MemberDescriptor) : Keeps (registerAll ds) := by
  induction ds with
  | nil => exact (isStill_pure _).keeps
  | cons d ds ih =>
    refine (isStill_read _).keeps.bind fun target => (isStill_read _).keeps.bind fun handler => ?_
    dsimp only
    split
    · exact (keeps_subscribe _ _).bind fun _ => ih
    · exact Keeps.bind ((keeps_launch _ _ _).bind fun _ => (isStill_pure _).keeps) fun _ => ih

theorem keeps_register : Keeps register := by
  refine Keeps.bind (x := get) (fun _ => ⟨rfl, rfl, rfl, rfl⟩) fun e => ?_
  split
  · exact keeps_registerAll _
  · split
    · exact (isStill_pure _).keeps
    · exact (isStill_refuse _).keeps
  · exact (isStill_refuse _).keeps

end Act

namespace ClientClass

-- With how many arguments a member is called, if it is a wrapper.
def arity? (c : ClientClass) (member : String) : Option Nat :=
  match c.members.get? member with
  | some (.routine (.wrapper _ _ arity)) => some arity
  | _ => none

theorem exists_of_arity? {c : ClientClass} {member : String} {arity : Nat}
    (wrapper : c.arity? member = some arity) : ∃ name wireName,
      c.members.get? member = some (.routine (.wrapper name wireName arity)) := by
  unfold arity? at wrapper
  split at wrapper
  case h_1 name wireName arity' found =>
    cases wrapper
    exact ⟨name, wireName, found⟩
  case h_2 => cases wrapper

end ClientClass

namespace Client

-- What is done with a client in a run.
inductive Deed where
  | start
  | stop
  | call (member : String) (arguments : List Value) (token : Keyword)
  | invoke (wireName arguments token : Value)
  -- anything may become of tokens
  | meanwhile (loop : Loop Value)

def Deed.act : Deed → Act Value
  | .start => operate "start"
  | .stop => operate "stop"
  | .call member arguments token => Client.invoke (.ofText member) arguments token
  | .invoke wireName arguments token => invokeByWire wireName arguments token
  | .meanwhile loop => do
    modify fun e => { e with loop }
    pure .null

-- The members that are called are wrappers.
def Deed.Fits (c : ClientClass) : Deed → Prop
  | .call member _ _ => (c.arity? member).isSome
  | _ => True

-- Something that is done, and how the connection answers meanwhile.
structure Trial where
  deed : Deed
  connection : Connection

def Trial.attempt (t : Trial) (e : Endpoint) : Except Halt Value × Endpoint :=
  { e with connection := t.connection }.perform t.deed.act

-- What the connection was asked for, each with its answer.
def Trial.journal (t : Trial) (e : Endpoint) : List (ConnectionCall × Except CallError Value) :=
  ((t.attempt e).2.asked.drop e.asked.length).map fun call => (call, t.connection call)

def after (e : Endpoint) (ts : List Trial) : Endpoint := ts.foldl (fun e t => (t.attempt e).2) e

def journal (e : Endpoint) : List Trial → List (ConnectionCall × Except CallError Value)
  | [] => []
  | t :: ts => t.journal e ++ journal (t.attempt e).2 ts

-- Whether the last start or stop that went well is a start.
def isOpenAfter (answered : List (ConnectionCall × Except CallError Value)) : Bool :=
  ((answered.filterMap fun (call, answer) => call.opens? answer).getLast?).getD false

variable {c : ClientClass} {isOpen : Bool} {e : Endpoint}

theorem journal_concat (ts : List Trial) (t : Trial) :
    journal e (ts ++ [t]) = journal e ts ++ t.journal (after e ts) := by
  induction ts generalizing e with
  | nil => simp [journal, after]
  | cons first ts ih => rw [List.cons_append, journal, ih, journal, List.append_assoc]; rfl

theorem isOpenAfter_append (answered : List (ConnectionCall × Except CallError Value))
    (call? : Option ConnectionCall) (connection : Connection) :
    isOpenAfter (answered ++ call?.toList.map fun call => (call, connection call)) =
      (call?.bind fun call => call.opens? (connection call)).getD (isOpenAfter answered) := by
  cases call? with
  | none => simp [isOpenAfter]
  | some call => cases answer : call.opens? (connection call) <;> simp [isOpenAfter, answer]

namespace InService

theorem congr (service : InService c isOpen e) {e' : Endpoint} (blueprint : e'.blueprint = e.blueprint)
    (fields : e'.fields = e.fields) : InService c isOpen e' where
  blueprint := blueprint.trans service.blueprint
  connected := fields ▸ service.connected
  started := fields ▸ service.started
  inert := fields ▸ service.inert

-- A client counts as started after a start that went well, and no longer after such a stop.
theorem mark (service : InService c isOpen e) (opens : Bool) :
    InService c opens { e with fields := e.fields.set "_started" (.value (.ofBool opens)) } where
  blueprint := service.blueprint
  connected := by
    rw [Table.get?_set, if_neg (by decide)]
    exact service.connected
  started := by rw [Table.get?_set, if_pos rfl]
  inert name h holds := by
    rw [Table.get?_set] at holds
    split at holds
    · exact .inr ⟨_, (Option.some.inj holds).symm⟩
    · exact service.inert name h holds

theorem asking (service : InService c isOpen e) (call? : Option ConnectionCall) :
    InService c ((call?.bind fun call => call.opens? (e.connection call)).getD isOpen)
      (Client.asking e call?) := by
  cases call? with
  | none => exact service
  | some call =>
    cases answer : call.opens? (e.connection call) with
    | none =>
      simp only [Client.asking, Option.bind_some, answer]
      exact service.congr rfl rfl
    | some opens =>
      simp only [Client.asking, Option.bind_some, answer]
      exact (service.mark opens).congr rfl rfl

-- Whatever the members of its class are called, a client begins as one that is not started and has
-- asked for nothing.
theorem of_build (ordinary : c.IsOrdinary) {connection : Connection} {url : Value}
    (born : build c connection url = .ok e) : InService c false e ∧ e.asked = [] := by
  have left : e = ((Act.setUp .connection (.value url)).run
      { blueprint := c.blueprint, connection }).2 := by
    unfold build at born
    split at born
    case h_1 =>
      dsimp only at born
      split at born
      case h_1 ran =>
        rw [ran]
        exact (Except.ok.inj born).symm
      case h_2 => cases born
      case h_3 ran =>
        rw [ran]
        exact (Except.ok.inj born).symm
    case h_2 => cases born
    case h_3 => cases born
  rw [left, Act.setUp, Act.run_bind_ok (run_assign_own ordinary rfl (by decide) _),
    Act.run_bind_ok (run_assign_own ordinary rfl (by decide) _),
    Act.run_bind_ok (run_assign_own ordinary rfl (by decide) _)]
  refine Act.Keeps.elim (p := fun e => InService c false e ∧ e.asked = []) ?registers ?_
  case registers =>
    refine (Act.isStill_read _).keeps.bind fun h => ?_
    split
    · exact Act.keeps_register
    · exact (Act.keeps_launch _ _ _).bind fun _ => (Act.isStill_pure _).keeps
  rintro e ⟨blueprint, fields, -, asked⟩
  refine ⟨⟨blueprint, fields ▸ rfl, fields ▸ rfl, fun name h holds => ?_⟩, asked⟩
  rw [fields] at holds
  replace holds : Table.get? [("_connection", .connection), ("_url", .value url),
    ("_started", .value (.ofBool false))] name = some h := holds
  simp only [Table.get?_cons, Table.get?_nil] at holds
  split at holds
  · exact .inl (Option.some.inj holds).symm
  · split at holds
    · exact .inr ⟨_, (Option.some.inj holds).symm⟩
    · split at holds
      · exact .inr ⟨_, (Option.some.inj holds).symm⟩
      · cases holds

-- What awaits what a name gives when it is called.
theorem comes_await_callName (ordinary : c.IsOrdinary) (service : InService c isOpen e)
    {name : String} (arguments : List Value) (keyword : Keyword) (gives : ∀ h, e.look name = .ok h → c.Gives h) :
    Comes isOpen e ((Act.callName name arguments keyword >>= Act.await).run e) :=
  comes_callName (fun _ => service.comes_await ordinary) gives

theorem comes_act (ordinary : c.IsOrdinary) (service : InService c isOpen e) {d : Deed}
    (fits : d.Fits c) (acts : ∀ loop, d ≠ .meanwhile loop) : Comes isOpen e (d.act.run e) := by
  cases d with
  | start =>
    exact comes_muted (service.comes_await_callName ordinary _ _ fun h =>
      service.gives_of_operation ordinary (by decide))
  | stop =>
    exact comes_muted (service.comes_await_callName ordinary _ _ fun h =>
      service.gives_of_operation ordinary (by decide))
  | call member arguments token =>
    obtain ⟨arity, wrapper⟩ := Option.isSome_iff_exists.mp fits
    obtain ⟨_, _, own⟩ := ClientClass.exists_of_arity? wrapper
    exact service.comes_await_callName ordinary _ _ fun h =>
      service.gives_of_member ordinary (by simp [own])
  | invoke wireName arguments token =>
    exact service.comes_await_callName ordinary _ _ fun h =>
      service.gives_of_operation ordinary (by decide)
  | meanwhile loop => exact absurd rfl (acts loop)

-- What one trial does: at most one thing is asked for, and that is due.
theorem attempt (ordinary : c.IsOrdinary) (service : InService c isOpen e) (t : Trial)
    (fits : t.deed.Fits c) : ∃ call? : Option ConnectionCall,
      (t.attempt e).2.asked = e.asked ++ call?.toList ∧ (∀ call ∈ call?, call.IsDue isOpen e.loop) ∧
      InService c ((call?.bind fun call => call.opens? (t.connection call)).getD isOpen)
        (t.attempt e).2 ∧
      (((∃ halt, (t.attempt e).1 = .error halt) ∨
          ∃ call ∈ call?, ∃ error, t.connection call = .error error) →
        (t.attempt e).2.fields = e.fields) := by
  have ready : InService c isOpen { e with connection := t.connection } := service.congr rfl rfl
  by_cases acts : ∀ loop, t.deed ≠ .meanwhile loop
  · obtain ⟨call?, state, due, failed⟩ := ready.comes_act ordinary fits acts
    refine ⟨call?, ?_, due, ?_, ?_⟩
    · rw [Trial.attempt, Endpoint.perform, state]
      cases call? <;> simp [Client.asking]
    · have next := ready.asking call?
      rwa [← state] at next
    · rintro (⟨halt, fails⟩ | ⟨call, rfl, error, answer⟩)
      · exact failed halt fails
      · rw [Trial.attempt, Endpoint.perform, state]
        simp [Client.asking, answer, ConnectionCall.opens?]
  · obtain ⟨loop, same⟩ := not_forall_not.mp acts
    have ran : t.attempt e = (.ok .null, { e with connection := t.connection, loop }) := by
      rw [Trial.attempt, same]
      rfl
    refine ⟨none, ?_, by simp, ?_, fun _ => ?_⟩
    · rw [ran]
      simp
    · rw [ran]
      exact service.congr rfl rfl
    · rw [ran]

-- A wrapper refuses arguments of another number before anything is done.
theorem run_invoke_of_arity (service : InService c isOpen e) {member : String} {arity : Nat}
    (wrapper : c.arity? member = some arity) {arguments : List Value}
    (other : arguments.length ≠ arity) (token : Keyword) :
    ((Client.invoke (.ofText member) arguments token).run e).2 = e := by
  obtain ⟨name, wireName, own⟩ := ClientClass.exists_of_arity? wrapper
  have named : (Act.nameOf (.ofText member)).run e = (.ok member, e) := rfl
  rw [Client.invoke, Act.run_bind_ok named, Act.callName, bind_assoc]
  cases shows : e.look member with
  | error f =>
    have fails : (Act.read member).run e = (.error (.error (.fault f)), e) := by
      rw [Act.read, Act.run_bind_ok (Act.run_get e), shows]
      rfl
    rw [Act.run_bind_error fails]
  | ok h =>
    rw [Act.run_bind_ok (Act.run_read shows)]
    obtain rfl | rfl | ⟨v, rfl⟩ := service.held_of_look (ClientClass.find?_of_member own) rfl shows
    · have called : (Act.call (.routine (.wrapper name wireName arity)) arguments token).run e =
          (.ok (.pending (.routine (.wrapper name wireName arity) arguments (token.getD .null))), e) :=
        Act.run_call_routine rfl
      refine (congrArg Prod.snd (Act.run_bind_ok called)).trans ?_
      rw [Act.await, Act.run_bind_ok (Act.run_get e)]
      cases Act.fuel e.blueprint with
      | zero => rfl
      | succ fuel =>
        have refused : (Act.checkArity name arity arguments.length).run e =
            (.error (.error (.wrongArity name arity arguments.length)), e) := by
          rw [Act.checkArity, if_neg other]
          rfl
        rw [Act.runPending, Act.runRoutine, Act.run_bind_error refused]
    · rfl
    · rfl

end InService

-- By induction on the run: the client counts as started as its journal says.
theorem inService_after (ordinary : c.IsOrdinary) (service : InService c false e)
    (fresh : e.asked = []) {ts : List Trial} (fits : ∀ t ∈ ts, t.deed.Fits c) :
    InService c (isOpenAfter (journal e ts)) (after e ts) ∧
      (after e ts).asked = (journal e ts).map Prod.fst := by
  induction ts using List.reverseRecOn with
  | nil => exact ⟨service, fresh⟩
  | append_singleton ts t ih =>
    obtain ⟨before, asked⟩ := ih fun t' earlier => fits t' (List.mem_append_left _ earlier)
    obtain ⟨call?, asks, -, next, -⟩ := before.attempt ordinary t (fits t (by simp))
    have last : after e (ts ++ [t]) = (t.attempt (after e ts)).2 := by simp [after]
    have entry : t.journal (after e ts) = call?.toList.map fun call => (call, t.connection call) := by
      rw [Trial.journal, asks, List.drop_left]
    rw [journal_concat, entry, last, isOpenAfter_append]
    refine ⟨next, ?_⟩
    rw [asks, asked, List.map_append, List.map_map]
    simp [Function.comp_def]

-- Over any run, whatever fails in it and whatever the members of the class are called: the journal has
-- all that the connection was asked for, and the client counts as started just if the last start or
-- stop in it that went well is a start. Whatever is done next asks the connection for one thing at
-- most, and for a method or a stop only if the client counts as started, and for a method only with
-- no token or one that has not fired. If it fails, or what it asks for does, then all names show what
-- they did. And a wrapper that is called with another number of arguments asks for nothing.
theorem calls_follow_lifecycle (made : c.IsMade) {connection : Connection} {url : Value}
    (born : build c connection url = .ok e) (past : List Trial) (t : Trial)
    (fits : ∀ t' ∈ past ++ [t], t'.deed.Fits c) :
    let now := after e past
    let isOpen := isOpenAfter (journal e past)
    now.asked = (journal e past).map Prod.fst ∧
    now.look "_started" = .ok (.value (.ofBool isOpen)) ∧
    (∃ call? : Option ConnectionCall, (t.attempt now).2.asked = now.asked ++ call?.toList ∧
      ∀ call ∈ call?, call.IsDue isOpen now.loop) ∧
    (((∃ halt, (t.attempt now).1 = .error halt) ∨
        ∃ call error, (call, .error error) ∈ t.journal now) →
      ∀ name, (t.attempt now).2.look name = now.look name) ∧
    ∀ member arguments token arity, t.deed = .call member arguments token →
      c.arity? member = some arity → arguments.length ≠ arity →
      (t.attempt now).2.asked = now.asked := by
  intro now isOpen
  have ordinary := made.isOrdinary
  obtain ⟨fresh, silent⟩ := InService.of_build ordinary born
  obtain ⟨service, asked⟩ : InService c isOpen now ∧ _ := inService_after ordinary fresh silent
    fun t' earlier => fits t' (List.mem_append_left _ earlier)
  obtain ⟨call?, asks, due, next, failed⟩ := service.attempt ordinary t (fits t (by simp))
  refine ⟨asked, service.look_own ordinary (by decide) service.started, ⟨call?, asks, due⟩, ?_, ?_⟩
  · intro fails name
    have fields := failed (fails.imp id fun ⟨call, error, entry⟩ => by
      rw [Trial.journal, asks, List.drop_left] at entry
      obtain ⟨wanted, answer⟩ : call? = some call ∧ t.connection call = .error error := by
        simpa using entry
      exact ⟨call, wanted, error, answer⟩)
    have blueprint := next.blueprint.trans service.blueprint.symm
    rw [Endpoint.look, Endpoint.look, blueprint]
    simp only [Endpoint.lookField, blueprint, fields]
  · intro member arguments token arity called wrapper other
    have ready : InService c isOpen { now with connection := t.connection } := service.congr rfl rfl
    rw [Trial.attempt, Endpoint.perform, called, Deed.act, ready.run_invoke_of_arity wrapper other]

-- A client of the lobby whose first start fails: it refuses a call, and takes it after the second start.
def lobbyTrials : List Trial :=
  let join : Deed := .call "invoke_joined" [.ofText "Ann"] none
  [⟨.start, fun _ => .error .failed⟩, ⟨join, fun _ => .ok .null⟩, ⟨.start, fun _ => .ok .null⟩]

theorem calls_follow_lifecycle_lobby :
    let m := (ClientBinding.synthesize lobby.validated {}).manifest
    let c := ClientClass.ofSound m
    let e := built m (fun _ => .ok .null) .null
    let t : Trial := ⟨.call "invoke_joined" [] none, fun _ => .ok .null⟩
    c.IsMade ∧ build c (fun _ => .ok .null) .null = .ok e ∧
      (∀ t' ∈ lobbyTrials ++ [t], t'.deed.Fits c) ∧
      (after e lobbyTrials).look "_started" = .ok (.value (.ofBool true)) ∧
      c.arity? "invoke_joined" = some 1 ∧
      (t.attempt (after e lobbyTrials)).2.asked = (after e lobbyTrials).asked := by
  intro m c e t
  have sound := ClientBinding.isSound_synthesize lobby.validated {} (by decide +kernel)
  have made : c.IsMade := .ofManifest (ClientClass.ofManifest_of_isSound sound)
  have born : build c (fun _ => .ok .null) .null = .ok e := build_ofSound sound _ _
  have arity : c.arity? "invoke_joined" = some 1 := by decide +kernel
  have fits : ∀ t' ∈ lobbyTrials ++ [t], t'.deed.Fits c := by
    simp [lobbyTrials, t, Deed.Fits, arity]
  have opened : isOpenAfter (journal e lobbyTrials) = true := by decide +kernel
  obtain ⟨-, shows, -, -, refuses⟩ := calls_follow_lifecycle made born lobbyTrials t fits
  rw [opened] at shows
  exact ⟨made, born, fits, shows, arity, refuses _ _ _ _ rfl arity (by decide)⟩

end Client

end HubContract
