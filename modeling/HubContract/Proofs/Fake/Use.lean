import HubContract.Proofs.Fake.Fresh
import HubContract.Proofs.Pipeline.Errors

namespace HubContract.Fake

open FakeBinding FakeClass

-- What is done with a fake. A member that a task awaits is used when that task begins. Callbacks run
-- last in a use, when its log and channel have been written, so what a callback does with the fake in
-- turn are the next uses.
inductive Use where
  | invoke (member : FakeInvokeMember) (arguments : List Value) (token : Keyword)
  | simulate (member : FakePushMember) (arguments : List Value)
  | wait (member : FakePushMember) (arguments : List Value) (token : Keyword)
  -- put a callback into a slot or a behavior, or take it out
  | fill (part : Part) (callback? : Option Callback)
  | start
  | stop
  | reset
  -- something else that the loop is asked for or does: tokens fire, and waits go on
  | loop (action : Loop.Action Value)

namespace Use

-- Members are those of the fake. Only they publish, and no task is cancelled.
def Fits (f : FakeBinding) : Use → Prop
  | .invoke m _ _ => m ∈ f.invoke
  | .simulate p _ => p ∈ f.push
  | .wait p _ _ => p ∈ f.push
  | .fill part _ => part ∈ f.parts ∧ part.isVacant
  | .start | .stop | .reset => True
  | .loop (.publish _ _) | .loop (.abandon _) | .loop (.reset _) => False
  | .loop _ => True

def apply (e : Endpoint) : Use → Endpoint
  | .invoke m vs token => (e.perform (Client.invoke (.ofText m.methodName) vs token)).2
  | .simulate p vs => (e.perform (Client.invoke (.ofText p.simulateName) vs none)).2
  | .wait p vs token => (e.perform (Client.invoke (.ofText p.waitName) vs token)).2
  | .fill part callback? => (e.perform (Act.assign part.name (.ofCallback? callback?))).2
  | .start => (e.perform (Client.operate "start")).2
  | .stop => (e.perform (Client.operate "stop")).2
  | .reset => (e.perform Fake.reset).2
  | .loop a => e.onLoop (·.act a)

-- What a log gets: the arguments, where the use is one of its own member and they are as many as that
-- takes. It does not matter how the use ends.
def logged? (part : Part) : Use → Option Value
  | .invoke m vs _ =>
    if part = .calls m ∧ vs.length = m.parameters.length then some (.ofArguments vs) else none
  | .simulate p vs =>
    if part = .events p ∧ vs.length = p.parameters.length then some (.ofArguments vs) else none
  | _ => none

end Use

def after (e : Endpoint) (uses : List Use) : Endpoint := uses.foldl Use.apply e

theorem after_append (e : Endpoint) (uses uses' : List Use) :
    after e (uses ++ uses') = after (after e uses) uses' := List.foldl_append

-- The values that waits on a channel obtain in a run, in that order.
def obtained (n : Nat) (e : Endpoint) : List Use → List Value
  | [] => []
  | u :: uses => ((e.loop.channel n).newlyGiven ((u.apply e).loop.channel n)).map Prod.snd ++
      obtained n (u.apply e) uses

variable {c : FakeClass} {log : Part → List Value} {e : Endpoint} {part : Part}

-- A log gets one more entry.
theorem Records.note (sound : c.IsSound) (records : Records c log e) (inside : part ∈ c.fake.parts)
    (isLog : part.isLog) (v : Value) : Records c
      (fun other => log other ++ (if other = part then some v else none).toList)
      (written e part (log part ++ [v])) := by
  refine (records.write sound inside isLog _).relog fun other _ _ => ?_
  by_cases here : other = part
  · subst here
    simp
  · simp [here]

theorem Records.same (records : Records c log e) :
    Records c (fun part => log part ++ (none : Option Value).toList) e :=
  records.relog fun _ _ _ => List.append_nil _

theorem Records.onLoop (records : Records c log e) (f : Loop Value → Loop Value) :
    Records c log (e.onLoop f) :=
  ⟨records.blueprint, records.locked, records.channels, records.untouched, records.vacant,
    records.logged⟩

-- What a use other than a reset does: it writes the log of its own member, and asks the loop for at
-- most one thing, which publishes on the channel of that member what the log gets.
structure Use.Does (c : FakeClass) (log : Part → List Value) (e : Endpoint) (u : Use)
    (action? : Option (Loop.Action Value)) : Prop where
  records : Records c (fun part => log part ++ (u.logged? part).toList) (u.apply e)
  loop : (u.apply e).loop = action?.elim e.loop e.loop.act
  calm : ∀ a ∈ action?, (∀ w, a ≠ .abandon w) ∧ ∀ n, a ≠ .reset n
  publishes : ∀ p ∈ c.fake.push, ∀ n, c.fake.numbers.get? p.wireName = some n → ∀ since,
    action?.elim since (Loop.remember n since) = since ++ (u.logged? (.events p)).toList

namespace Use.Does

variable {u : Use}

-- A use that logs nothing and asks for nothing.
theorem quiet (noEntry : ∀ part, u.logged? part = none) (records : Records c log (u.apply e))
    (same : (u.apply e).loop = e.loop) : Does c log e u none where
  records := by
    simp only [noEntry]
    exact records.same
  loop := same
  calm := by simp
  publishes p _ n _ since := by simp [noEntry]

theorem invoke (sound : c.IsSound) (records : Records c log e) {m : FakeInvokeMember}
    (inside : m ∈ c.fake.invoke) (vs : List Value) (token : Keyword) :
    Does c log e (.invoke m vs token) none := by
  have does := records.invoke sound inside vs token
  by_cases arity : vs.length = m.parameters.length
  · rw [if_pos arity] at does
    have noted := (records.note sound (calls_mem_parts inside) rfl (.ofArguments vs)).congr does
    refine ⟨noted.relog fun part _ _ => ?_, does.loop, by simp, fun p _ n _ since => ?_⟩
    · simp [logged?, arity]
    · simp [logged?]
  · rw [if_neg arity] at does
    exact quiet (fun part => by simp [logged?, arity]) (records.congr does) does.loop

theorem simulate (sound : c.IsSound) (records : Records c log e) {p : FakePushMember}
    (inside : p ∈ c.fake.push) (vs : List Value) : ∃ action?, Does c log e (.simulate p vs) action? := by
  obtain ⟨n, number⟩ := exists_number inside
  have does := records.simulateByName sound inside number vs
  by_cases arity : vs.length = p.parameters.length
  · rw [if_pos arity] at does
    have noted := records.note sound (events_mem_parts inside) rfl (.ofArguments vs)
    refine ⟨some (.publish n (.ofArguments vs)), ?_, does.loop, by simp,
      fun p' inside' n' number' since => ?_⟩
    · refine ((noted.onLoop _).congr does).relog fun part _ _ => ?_
      simp [logged?, arity]
    · rw [Option.elim_some, Loop.remember]
      by_cases same : p' = p
      · subst same
        obtain rfl := Option.some.inj (number.symm.trans number')
        simp [logged?, arity]
      · have apart : n' ≠ n := by
          rintro rfl
          exact same (sound.fake.eq_of_number inside' inside number' number)
        simp [logged?, same, apart]
  · rw [if_neg arity] at does
    exact ⟨none, quiet (fun part => by simp [logged?, arity]) (records.congr does) does.loop⟩

-- What the loop is asked for without a publication.
theorem ofLoop (noEntry : ∀ part, u.logged? part = none) (records : Records c log (u.apply e))
    {a : Loop.Action Value} (asks : (u.apply e).loop = e.loop.act a)
    (notPublish : ∀ n v, a ≠ .publish n v) (notAbandon : ∀ w, a ≠ .abandon w)
    (notReset : ∀ n, a ≠ .reset n) : Does c log e u (some a) where
  records := by
    simp only [noEntry]
    exact records.same
  loop := asks
  calm := by
    rintro _ ⟨⟩
    exact ⟨notAbandon, notReset⟩
  publishes p _ n _ since := by
    have same : Loop.remember n since a = since := by
      cases a with
      | publish n v => exact absurd rfl (notPublish n v)
      | reset n => exact absurd rfl (notReset n)
      | _ => rfl
    simp [noEntry, same]

theorem wait (sound : c.IsSound) (records : Records c log e) {p : FakePushMember}
    (inside : p ∈ c.fake.push) (vs : List Value) (token : Keyword) :
    ∃ action?, Does c log e (.wait p vs token) action? := by
  obtain ⟨n, number⟩ := exists_number inside
  obtain ⟨action?, waits, does⟩ := records.wait sound inside number vs token
  refine ⟨action?, ?_⟩
  have records : Records c log (apply e (.wait p vs token)) := by
    rw [apply, Endpoint.perform, does]
    exact records.onLoop _
  cases action? with
  | none => exact quiet (fun _ => rfl) records (congrArg Endpoint.loop does)
  | some a =>
    obtain ⟨t?, rfl⟩ := waits a rfl
    exact ofLoop (fun _ => rfl) records (congrArg Endpoint.loop does) (by simp) (by simp) (by simp)

-- What one use does.
theorem of_fits (sound : c.IsSound) (records : Records c log e) (fits : u.Fits c.fake)
    (notReset : u ≠ .reset) : ∃ action?, Does c log e u action? := by
  cases u with
  | invoke m vs token => exact ⟨none, invoke sound records fits vs token⟩
  | simulate p vs => exact simulate sound records fits vs
  | wait p vs token => exact wait sound records fits vs token
  | fill part callback? =>
    obtain ⟨inside, isVacant⟩ := fits
    have assigned := run_assign sound records.blueprint (apart_of_part sound inside).2
      (.ofCallback? callback?)
    have filled : apply e (.fill part callback?) =
        { e with fields := e.fields.set part.name (.ofCallback? callback?) } :=
      congrArg Prod.snd assigned
    refine ⟨none, quiet (fun _ => rfl) ?_ (by rw [filled])⟩
    rw [filled]
    exact records.fill sound inside isVacant callback?
  | start =>
    have shows : e.look "start" = .ok (.routine .fakeStart) :=
      records.look_shared sound "start" _ (by decide) rfl
    have started : apply e .start = { e with fields := e.fields.set _ _ } :=
      records.operate sound shows rfl fun _ => rfl
    refine ⟨none, quiet (fun _ => rfl) ?_ (by rw [started])⟩
    rw [started]
    exact records.mark sound true
  | stop =>
    have shows : e.look "stop" = .ok (.routine .fakeStop) :=
      records.look_shared sound "stop" _ (by decide) rfl
    have stopped : apply e .stop = { e with fields := e.fields.set _ _ } :=
      records.operate sound shows rfl fun _ => rfl
    refine ⟨none, quiet (fun _ => rfl) ?_ (by rw [stopped])⟩
    rw [stopped]
    exact records.mark sound false
  | reset => exact absurd rfl notReset
  | loop a =>
    refine ⟨some a, ofLoop (fun _ => rfl) (records.onLoop (·.act a)) rfl ?_ ?_ ?_⟩
    · rintro n v rfl
      exact fits
    · rintro w rfl
      exact fits
    · rintro n rfl
      exact fits

end Use.Does

-- Channels are empty once they were reset.
theorem channels_resetAll (numbers : Table Nat) {l : Loop Value}
    (orderly : ∀ n, (l.channel n).IsOrderly) :
    (∀ n, ((resetAll numbers l).channel n).IsOrderly) ∧
      ∀ n, n ∈ numbers.map Prod.snd ∨ (l.channel n).items = [] →
        ((resetAll numbers l).channel n).items = [] := by
  induction numbers generalizing l with
  | nil => exact ⟨orderly, by simp [resetAll]⟩
  | cons x numbers ih =>
    obtain ⟨name, m⟩ := x
    have calm (n : Nat) : ((l.reset m).channel n).IsOrderly :=
      Loop.isOrderly_act (a := .reset m) (orderly n) (by simp)
    obtain ⟨kept, emptied⟩ := ih calm
    refine ⟨kept, fun n empty => emptied n ?_⟩
    rw [List.map_cons, List.mem_cons] at empty
    rw [Loop.reset, Loop.channel_onChannel]
    obtain (here | later) | already := empty
    · rw [if_pos here]
      exact .inr rfl
    · exact .inl later
    · right
      split
      · rfl
      · exact already

-- A fake whose channels are in step with its logs, with the values that were obtained so far.
structure InStep (c : FakeClass) (log : Part → List Value) (taken : Nat → List Value)
    (e : Endpoint) : Prop where
  records : Records c log e
  orderly : ∀ n, (e.loop.channel n).IsOrderly
  flow : ∀ p ∈ c.fake.push, ∀ n, c.fake.numbers.get? p.wireName = some n →
    taken n ++ (e.loop.channel n).items = log (.events p)

namespace InStep

variable {taken : Nat → List Value} {u : Use} {uses : List Use}

theorem of_built (sound : c.IsSound) (strict : Value) :
    InStep c (fun _ => []) (fun _ => []) (built c strict) :=
  ⟨records_built sound strict, fun _ => Channel.isOrderly_empty, fun _ _ _ _ => rfl⟩

theorem reset (sound : c.IsSound) (step : InStep c log taken e) :
    InStep c (fun _ => []) (fun _ => []) (Use.reset.apply e) := by
  obtain ⟨t, runs, records, -⟩ := step.records.run_reset sound
  have after : Use.reset.apply e = { e with fields := t, loop := resetAll c.fake.numbers e.loop } :=
    congrArg Prod.snd runs
  obtain ⟨orderly, emptied⟩ := channels_resetAll c.fake.numbers step.orderly
  rw [after]
  refine ⟨records, orderly, fun p _ n number => emptied n (.inl ?_)⟩
  exact List.mem_map.mpr ⟨_, Table.mem_of_get? number, rfl⟩

-- What one use preserves.
theorem use (sound : c.IsSound) (step : InStep c log taken e) (fits : u.Fits c.fake)
    (notReset : u ≠ .reset) : InStep c (fun part => log part ++ (u.logged? part).toList)
      (fun n => taken n ++
        ((e.loop.channel n).newlyGiven ((u.apply e).loop.channel n)).map Prod.snd) (u.apply e) := by
  obtain ⟨action?, does⟩ := Use.Does.of_fits sound step.records fits notReset
  cases action? with
  | none =>
    have same : (u.apply e).loop = e.loop := does.loop
    refine ⟨does.records, fun n => same ▸ step.orderly n, fun p inside n number => ?_⟩
    have logged : log (.events p) = log (.events p) ++ (u.logged? (.events p)).toList :=
      does.publishes p inside n number _
    rw [same, Channel.newlyGiven_eq_nil rfl, ← logged]
    simpa using step.flow p inside n number
  | some a =>
    have asked : (u.apply e).loop = e.loop.act a := does.loop
    obtain ⟨calm, current⟩ := does.calm a rfl
    refine ⟨does.records, fun n => ?_, fun p inside n number => ?_⟩
    · rw [asked]
      exact Loop.isOrderly_act (step.orderly n) fun w => calm ⟨n, w⟩
    · have logged : Loop.remember n (log (.events p)) a = _ := does.publishes p inside n number _
      rw [asked, ← logged]
      exact Loop.flow_act (step.orderly n) (fun w => calm ⟨n, w⟩) (current n)
        (step.flow p inside n number)

-- What a run without a reset preserves, by induction on it.
theorem run (sound : c.IsSound) (step : InStep c log taken e) (fits : ∀ u ∈ uses, u.Fits c.fake)
    (current : .reset ∉ uses) : InStep c (fun part => log part ++ uses.filterMap (Use.logged? part))
      (fun n => taken n ++ obtained n e uses) (after e uses) := by
  induction uses generalizing e log taken with
  | nil => simpa [after, obtained] using step
  | cons u uses ih =>
    have first := step.use sound (fits u List.mem_cons_self)
      fun same => current (same ▸ List.mem_cons_self)
    have rest := ih first (fun u later => fits u (List.mem_cons_of_mem _ later))
      fun later => current (List.mem_cons_of_mem _ later)
    have logs (part : Part) : log part ++ (u :: uses).filterMap (Use.logged? part) =
        log part ++ (u.logged? part).toList ++ uses.filterMap (Use.logged? part) := by
      rw [List.filterMap_cons, List.append_assoc]
      cases u.logged? part <;> rfl
    simp only [logs, obtained, ← List.append_assoc]
    exact rest

-- Whatever is done, the fake is in step.
theorem exists_of_run (sound : c.IsSound) (step : InStep c log taken e)
    (fits : ∀ u ∈ uses, u.Fits c.fake) : ∃ log taken, InStep c log taken (after e uses) := by
  induction uses generalizing e log taken with
  | nil => exact ⟨log, taken, step⟩
  | cons u uses ih =>
    have later : ∀ u ∈ uses, u.Fits c.fake := fun u later => fits u (List.mem_cons_of_mem _ later)
    by_cases isReset : u = .reset
    · subst isReset
      exact ih (step.reset sound) later
    · exact ih (step.use sound (fits u List.mem_cons_self) isReset) later

-- Nothing is logged and no channel holds anything at first, or right after a reset.
theorem of_start (sound : c.IsSound) (strict : Value) {front : List Use}
    (fits : ∀ u ∈ front, u.Fits c.fake) (start : front = [] ∨ front.getLast? = some .reset) :
    InStep c (fun _ => []) (fun _ => []) (after (built c strict) front) := by
  have born := of_built sound strict
  obtain rfl | last := start
  · exact born
  · obtain ⟨front, rfl⟩ := List.getLast?_eq_some_iff.mp last
    obtain ⟨log, taken, step⟩ := born.exists_of_run sound fun u inside =>
      fits u (List.mem_append_left _ inside)
    rw [after_append]
    exact step.reset sound

end InStep

-- A reset changes neither slots nor behaviors, nor the flags of the fake.
theorem look_reset (sound : c.IsSound) (records : Records c log e) {name : String}
    (kept : (∃ part ∈ c.fake.parts, part.isVacant ∧ part.name = name) ∨
      name ∈ ["strict", "started", "_started"]) :
    (Use.reset.apply e).look name = e.look name := by
  obtain ⟨t, runs, -, others⟩ := records.run_reset sound
  have after : Use.reset.apply e = { e with fields := t, loop := resetAll c.fake.numbers e.loop } :=
    congrArg Prod.snd runs
  have field {name : String} (other : ∀ part ∈ c.fake.parts, part.isLog → part.name ≠ name) :
      (Use.reset.apply e).lookField name = e.lookField name := by
    rw [after, Endpoint.lookField, Endpoint.lookField, others name other]
  have own {name : String} (own : name ∈ ownNames) :
      (Use.reset.apply e).lookField name = e.lookField name :=
    field fun part inside _ same => (apart_of_part sound inside).1 (same ▸ own)
  have blueprint : (Use.reset.apply e).blueprint = c.blueprint := by
    rw [after]
    exact records.blueprint
  obtain ⟨part, inside, isVacant, rfl⟩ | flag := kept
  · have unbound := (apart_of_part sound inside).2
    rw [look_eq sound blueprint unbound, look_eq sound records.blueprint unbound]
    refine field fun other inside' isLog same => ?_
    obtain rfl := sound.fake.name_inj inside' inside same
    rw [Part.isVacant_of_isLog isLog] at isVacant
    cases isVacant
  · obtain rfl | rfl | rfl : name = "strict" ∨ name = "started" ∨ name = "_started" := by
      simpa using flag
    · rw [look_eq sound blueprint (by decide), look_eq sound records.blueprint (by decide)]
      exact own (by decide)
    · -- that is a property, which shows another field
      rw [Endpoint.look, Endpoint.look, blueprint, records.blueprint, sound.find?_started]
      exact own (by decide)
    · rw [look_eq sound blueprint (by decide), look_eq sound records.blueprint (by decide)]
      exact own (by decide)

-- For each fake of a compiled binding and each run of it, of which `back` is what came after the last
-- reset: a call log has the calls of its own method that had the right number of arguments, in order, an
-- event log has such simulations of its own method, and what waits obtained, with what the channel still
-- holds, is what the event log has. A further reset changes no slot, no behavior and no flag.
theorem in_step_since_reset {v : Validated} {o : Options} {lead : String} {f : FakeBinding}
    {cls : ClientClass} (made : (ClientBinding.synthesize v o).manifest.synthesizeFake lead = .ok f)
    (binding : ClientClass.ofManifest (ClientBinding.synthesize v o).manifest = .ok cls)
    (stands : ofFake cls f = .ok c) (strict : Value) :
    ∃ e, build c strict = .ok e ∧ ∀ front back : List Use, (∀ u ∈ front ++ back, u.Fits f) →
      (front = [] ∨ front.getLast? = some .reset) → .reset ∉ back →
      let now := after e (front ++ back)
      (∀ m ∈ f.invoke, now.look m.callsAttribute =
        .ok (.value (.list (back.filterMap (Use.logged? (.calls m)))))) ∧
      (∀ p ∈ f.push, now.look p.eventsAttribute =
          .ok (.value (.list (back.filterMap (Use.logged? (.events p))))) ∧
        ∃ n, (Act.callName "channel" [.ofText p.wireName] none).run now = (.ok (.channel n), now) ∧
          obtained n (after e front) back ++ (now.loop.channel n).items =
            back.filterMap (Use.logged? (.events p))) ∧
      (∀ m ∈ f.invoke, (Use.reset.apply now).look m.behaviorAttribute = now.look m.behaviorAttribute) ∧
      (∀ p ∈ f.push, (Use.reset.apply now).look p.slotName = now.look p.slotName) ∧
      ∀ name ∈ ["strict", "started", "_started"], (Use.reset.apply now).look name = now.look name := by
  obtain ⟨sound, rfl⟩ := isSound_ofFake made binding stands
  refine ⟨built c strict, build_eq sound strict, fun front back fits start current => ?_⟩
  intro now
  have fresh := InStep.of_start sound strict
    (fun u inside => fits u (List.mem_append_left _ inside)) start
  have step := fresh.run sound (fun u inside => fits u (List.mem_append_right _ inside)) current
  simp only [List.nil_append, ← after_append] at step
  have records := step.records
  refine ⟨fun m inside => ?_, fun p inside => ⟨?_, ?_⟩, fun m inside => ?_, fun p inside => ?_, ?_⟩
  · exact records.look_log sound (calls_mem_parts inside) rfl
  · exact records.look_log sound (events_mem_parts inside) rfl
  · obtain ⟨n, number⟩ := exists_number inside
    exact ⟨n, records.run_channel sound number, step.flow p inside n number⟩
  · exact look_reset sound records (.inl ⟨_, behavior_mem_parts inside, rfl, rfl⟩)
  · exact look_reset sound records (.inl ⟨_, slot_mem_parts inside, rfl, rfl⟩)
  · exact fun name flag => look_reset sound records (.inr flag)

-- One member on each side.
def hall : Contract where
  name := "IHall"
  uri := "/hall"
  pushSet := some ⟨"IEvents", [{ name := "Joined", parameters := [⟨"user", "str"⟩] }], []⟩
  invokeSet := some ⟨"ICommands", [{ name := "Greet", parameters := [⟨"user", "str"⟩] }], []⟩

def greet : FakeInvokeMember :=
  ⟨"Greet", "Greet", "invoke_greet", "greet_calls", "greet_behavior", [⟨"user", "str"⟩], "None"⟩

def joined : FakePushMember :=
  ⟨"Joined", "Joined", "on_joined", "joined_events", "simulate_joined", "wait_for_joined",
    [⟨"user", "str"⟩]⟩

def hallFake : FakeBinding := ⟨"FakeHallClient", "HallClient", "hall_client", [greet], [joined]⟩

-- Of two calls, to a behavior that fails, one has an argument missing.
def hallUses : List Use :=
  [.fill (.behavior greet) (some { answer := fun _ => .error .failed }),
    .invoke greet [.ofText "Ann"] none, .invoke greet [] none, .wait joined [] none,
    .simulate joined [.ofText "Bob"]]

theorem in_step_since_reset_hall :
    let m := (ClientBinding.synthesize hall.validated {}).manifest
    let front : List Use := [.simulate joined [.ofText "Ann"], .reset]
    m.synthesizeFake "Fake" = .ok hallFake ∧ (∀ u ∈ front ++ hallUses, u.Fits hallFake) ∧
      ∃ cls c e, ClientClass.ofManifest m = .ok cls ∧ ofFake cls hallFake = .ok c ∧
        build c .null = .ok e ∧
        let now := after e (front ++ hallUses)
        now.look "greet_calls" = .ok (.value (.list [.ofArguments [.ofText "Ann"]])) ∧
        now.look "joined_events" = .ok (.value (.list [.ofArguments [.ofText "Bob"]])) ∧
        (Use.reset.apply now).look "greet_behavior" = now.look "greet_behavior" := by
  intro m front
  have fits : ∀ u ∈ front ++ hallUses, u.Fits hallFake := by
    simp [front, hallUses, Use.Fits, hallFake, parts, Part.isVacant]
  have made : m.synthesizeFake "Fake" = .ok hallFake := by
    have gives : (m.synthesizeFake "Fake").toOption = some hallFake := by decide +kernel
    cases outcome : m.synthesizeFake "Fake" with
    | ok f =>
      rw [outcome] at gives
      exact congrArg Except.ok (Option.some.inj gives)
    | error e =>
      rw [outcome] at gives
      cases gives
  have binding := ClientClass.ofManifest_of_isSound
    (ClientBinding.isSound_synthesize hall.validated {} (by decide +kernel))
  obtain ⟨c, stands⟩ : ∃ c, ofFake (ClientClass.ofSound m) hallFake = .ok c := by
    have fine : (ofFake (ClientClass.ofSound m) hallFake).isOk := by decide +kernel
    cases outcome : ofFake (ClientClass.ofSound m) hallFake with
    | ok c => exact ⟨c, rfl⟩
    | error e =>
      rw [outcome] at fine
      cases fine
  obtain ⟨e, born, runs⟩ := in_step_since_reset made binding stands .null
  obtain ⟨calls, events, behaviors, -⟩ := runs front hallUses fits (.inr rfl) (by simp [hallUses])
  refine ⟨made, fits, _, c, e, binding, stands, born, ?_, ?_, ?_⟩
  · exact calls greet List.mem_cons_self
  · exact (events joined List.mem_cons_self).1
  · exact behaviors greet List.mem_cons_self

end HubContract.Fake
