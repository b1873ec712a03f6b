import HubContract.Fake.Basic
import HubContract.Proofs.Channel.Fifo
import HubContract.Proofs.Fake.Class

namespace HubContract

namespace Act

variable {e : Endpoint} {name : String}

theorem Keeps.muted {x : Act Value} (keeps : x.Keeps) : (muted x).Keeps := fun e => by
  rw [run_muted]
  exact keeps e

-- Running what is in a slot or a behavior changes nothing that names show, whatever becomes of it.

theorem keeps_call_callback (fuel : Nat) (c : Callback) (arguments : List Value) :
    Keeps (do awaitWithin fuel (← call (.callback c) arguments none)) := fun e => by
  rw [run_call_callback]
  exact ⟨rfl, rfl, rfl, rfl⟩

theorem keeps_behave (fuel : Nat) (c : Callback) (arguments : Value) :
    (behave (awaitWithin fuel) (.callback c) arguments).Keeps := by
  refine (isStill_itemsOf arguments).keeps.bind fun items => ?_
  by_cases takes : c.takes items.length
  · by_cases awaited : c.isAwaited
    · have called : call (.callback c) items none = pure (.pending (.callback c items)) := by
        simp [call, launch, takes, awaited]
      rw [called, pure_bind]
      dsimp only
      rw [awaitWithin_callback]
      exact keeps_runCallback c items
    · have called : call (.callback c) items none =
          runCallback c items >>= fun v => pure (.value v) := by
        simp [call, launch, takes, awaited]
      rw [called, bind_assoc]
      exact (keeps_runCallback c items).bind fun v => (isStill_pure _).keeps
  · have called : call (.callback c) items none = refuse (.fault .kind) := by
      simp [call, launch, takes, fault]
    intro e
    have refused : (refuse (.fault .kind) : Act Held).run e = (.error (.error (.fault .kind)), e) := rfl
    rw [called, run_bind_error refused]
    exact .refl e

-- Awaiting what a name gives runs its routine one call deeper.
theorem run_awaitName {r : Routine} {arguments bound : List Value} {token : Value} (fuel : Nat)
    (shows : e.look name = .ok (.routine r)) (fits : r.bind arguments none = some (bound, token)) :
    (awaitName (awaitWithin (fuel + 1)) name arguments).run e =
      (runRoutine (awaitWithin fuel) r bound token).run e := by
  have called : (callName name arguments none).run e = (.ok (.pending (.routine r bound token)), e) :=
    (run_callName shows ..).trans (run_call_routine fits)
  rw [awaitName, run_bind_ok called]
  rfl

end Act

-- An endpoint after something was asked of its loop.
def Endpoint.onLoop (e : Endpoint) (f : Loop Value → Loop Value) : Endpoint :=
  { e with loop := f e.loop }

namespace Act

-- What a wait asks of the loop, if its token can be one.
def waitAction? (channel : Nat) : Value → Option (Loop.Action Value)
  | .token t => some (.waitNow channel (some t))
  | v => if v.isNull then some (.waitNow channel none) else none

theorem eq_of_mem_waitAction? {channel : Nat} {token : Value} (a : Loop.Action Value)
    (asked : a ∈ waitAction? channel token) : ∃ t?, a = .waitNow channel t? := by
  unfold waitAction? at asked
  split at asked
  · exact ⟨_, (Option.some.inj asked).symm⟩
  · split at asked
    · exact ⟨_, (Option.some.inj asked).symm⟩
    · cases asked

theorem run_waitOn (channel : Nat) (token : Value) : ((waitOn channel token).run e).2 =
    e.onLoop fun l => (waitAction? channel token).elim l l.act := by
  cases token with
  | token t =>
    unfold waitOn waitAction?
    rw [run_bind_ok (run_pure (some t) e), run_bind_ok (run_get e)]
    dsimp only
    rw [run_bind_ok (run_set e _)]
    split <;> rfl
  | data | empty =>
    unfold waitOn waitAction?
    dsimp only
    split
    · rw [run_bind_ok (run_pure none e), run_bind_ok (run_get e)]
      rw [run_bind_ok (run_set e _)]
      split <;> rfl
    · rfl
  | tuple | list | other => rfl

end Act

namespace Fake

open FakeBinding FakeClass

-- Names that a fake assigns to itself.
def ownNames : List String :=
  ["strict", "_connection", "_url", "_started", "_fake_lock", "_channels"]

-- Names of what all fakes have, which none of them assigns.
def sharedNames : List String :=
  ["start", "stop", "reset", "channel", "_fake_model", "_invoke_member", "_push_member",
    "_fake_invoke", "_simulate", "_wait_for"]

theorem apart_of_shared {name : String} (shared : name ∈ sharedNames) :
    Naming.isOfFake name = false ∧ name ∉ headNames ∧ name ∉ ownNames ∧ name ∉ boundNames := by
  have all : ∀ n ∈ sharedNames, Naming.isOfFake n = false ∧ n ∉ headNames ∧ n ∉ ownNames ∧
      n ∉ boundNames := by decide
  exact all name shared

-- A fake with these logs, of which nothing else was assigned but what is its own, and callbacks.
structure Records (c : FakeClass) (log : Part → List Value) (e : Endpoint) : Prop where
  blueprint : e.blueprint = c.blueprint
  locked : e.fields.get? "_fake_lock" = some .lock
  channels : e.fields.get? "_channels" = some (.channels c.fake.numbers)
  untouched : ∀ name ∉ ownNames,
    (∀ part ∈ c.fake.parts, part.isLog || part.isVacant → part.name ≠ name) →
      e.fields.get? name = none
  vacant : ∀ part ∈ c.fake.parts, part.isVacant →
    ∃ callback?, e.look part.name = .ok (.ofCallback? callback?)
  logged : ∀ part ∈ c.fake.parts, part.isLog →
    e.fields.get? part.name = some (.value (.list (log part)))

section

variable {c : FakeClass} {log log' : Part → List Value} {e e' : Endpoint} {part : Part}
  {name : String} {h : Held}

-- Names of parts are neither of the fake itself nor bound to anything.
theorem apart_of_part (sound : c.IsSound) (inside : part ∈ c.fake.parts) :
    part.name ∉ ownNames ∧ part.name ∉ boundNames := by
  have named := sound.fake.named part inside
  have others : ∀ n ∈ ownNames ++ boundNames, Naming.isOfFake n = false := by decide
  rw [← not_or, ← List.mem_append]
  intro inside
  rw [others _ inside] at named
  cases named

theorem look_eq (sound : c.IsSound) (same : e.blueprint = c.blueprint) (unbound : name ∉ boundNames) :
    e.look name = e.lookField name :=
  Endpoint.look_eq_lookField fun _ found => sound.isFree_of_find? unbound (same ▸ found)

theorem run_assign (sound : c.IsSound) (same : e.blueprint = c.blueprint)
    (unbound : name ∉ boundNames) (h : Held) :
    (Act.assign name h).run e = (.ok (), { e with fields := e.fields.set name h }) :=
  Act.run_assign
    (Endpoint.sealFault?_eq_none fun _ found => sound.isFree_of_find? unbound (same ▸ found)) h

theorem look_put_self (sound : c.IsSound) (same : e.blueprint = c.blueprint)
    (unbound : name ∉ boundNames) : { e with fields := e.fields.set name h }.look name = .ok h := by
  rw [look_eq (e := { e with fields := e.fields.set name h }) sound same unbound]
  simp [Endpoint.lookField, Table.get?_set]

-- What is assigned to one name, another one does not show.
theorem look_put (sound : c.IsSound) (same : e.blueprint = c.blueprint) (unbound : name ∉ boundNames)
    {put : String} (other : put ≠ name) :
    { e with fields := e.fields.set put h }.look name = e.look name := by
  rw [look_eq sound same unbound,
    look_eq (e := { e with fields := e.fields.set put h }) sound same unbound]
  simp only [Endpoint.lookField, Table.get?_set, if_neg other]

theorem look_of_shared {a : Attribute} (sound : c.IsSound) (same : e.blueprint = c.blueprint)
    (shared : name ∈ sharedNames) (empty : e.fields.get? name = none)
    (layer : Blueprint.fakeLayer.get? name = some a) : e.look name = .ok a.held := by
  obtain ⟨other, notHead, -, unbound⟩ := apart_of_shared shared
  rw [look_eq sound same unbound, Endpoint.lookField, empty, same, sound.find?_layer other notHead layer]

theorem run_readModel (sound : c.IsSound) (same : e.blueprint = c.blueprint)
    (empty : e.fields.get? "_fake_model" = none) : Act.readModel.run e = (.ok (.model c.fake), e) := by
  have shows : e.look "_fake_model" = .ok (.prompt .model) :=
    look_of_shared sound same (by decide) empty rfl
  rw [Act.readModel, Act.run_bind_ok (Act.run_read shows)]
  dsimp only
  rw [Act.ownModel, Act.run_bind_ok (Act.run_get e), same, sound.find?_fake]
  rfl

-- A fake one of whose logs was written anew.
def written (e : Endpoint) (part : Part) (vs : List Value) : Endpoint :=
  { e with fields := e.fields.set part.name (.value (.list vs)) }

namespace Records

theorem congr (records : Records c log e) (same : e.Resembles e') : Records c log e' where
  blueprint := same.blueprint.trans records.blueprint
  locked := same.fields ▸ records.locked
  channels := same.fields ▸ records.channels
  untouched := same.fields ▸ records.untouched
  vacant part inside vacant := by
    obtain ⟨callback?, shows⟩ := records.vacant part inside vacant
    exact ⟨callback?, (same.look part.name).trans shows⟩
  logged := same.fields ▸ records.logged

-- What is assigned to one name leaves the others as they are. What else there is to show is that the
-- name holds what it should.
theorem put (sound : c.IsSound) (records : Records c log e) {name : String} {h : Held}
    (notFixed : name ≠ "_fake_lock" ∧ name ≠ "_channels")
    (known : name ∈ ownNames ∨ ∃ part ∈ c.fake.parts, (part.isLog || part.isVacant) ∧ part.name = name)
    (vacant : ∀ part ∈ c.fake.parts, part.isVacant → part.name = name →
      ∃ callback?, h = .ofCallback? callback?)
    (logged : ∀ part ∈ c.fake.parts, part.isLog →
      if part.name = name then h = .value (.list (log' part)) else log' part = log part) :
    Records c log' { e with fields := e.fields.set name h } where
  blueprint := records.blueprint
  locked := by
    rw [Table.get?_set, if_neg notFixed.1]
    exact records.locked
  channels := by
    rw [Table.get?_set, if_neg notFixed.2]
    exact records.channels
  untouched other notOwn notPart := by
    have different : name ≠ other := by
      rintro rfl
      obtain own | ⟨part, inside, assigned, same⟩ := known
      · exact notOwn own
      · exact notPart part inside assigned same
    rw [Table.get?_set, if_neg different]
    exact records.untouched other notOwn notPart
  vacant part inside isVacant := by
    obtain ⟨-, unbound⟩ := apart_of_part sound inside
    by_cases here : part.name = name
    · obtain ⟨callback?, rfl⟩ := vacant part inside isVacant here
      subst here
      exact ⟨callback?, look_put_self sound records.blueprint unbound⟩
    · obtain ⟨callback?, shows⟩ := records.vacant part inside isVacant
      refine ⟨callback?, ?_⟩
      rw [look_put sound records.blueprint unbound (Ne.symm here)]
      exact shows
  logged part inside isLog := by
    have after := logged part inside isLog
    rw [Table.get?_set]
    by_cases here : part.name = name
    · rw [if_pos here] at after
      rw [if_pos here.symm, after]
    · rw [if_neg here] at after
      rw [if_neg (Ne.symm here), after]
      exact records.logged part inside isLog

-- A log may be written anew.
theorem write (sound : c.IsSound) (records : Records c log e) (inside : part ∈ c.fake.parts)
    (isLog : part.isLog) (vs : List Value) :
    Records c (fun other => if other = part then vs else log other) (written e part vs) := by
  obtain ⟨notOwn, -⟩ := apart_of_part sound inside
  refine records.put sound ⟨?_, ?_⟩ (.inr ⟨part, inside, by simp [isLog], rfl⟩) ?_ ?_
  · exact fun same => notOwn (same ▸ by decide)
  · exact fun same => notOwn (same ▸ by decide)
  · intro other inside' isVacant same
    obtain rfl := sound.fake.name_inj inside' inside same
    rw [Part.isVacant_of_isLog isLog] at isVacant
    cases isVacant
  · intro other inside' _
    by_cases here : other = part
    · rw [if_pos (congrArg Part.name here), if_pos here]
    · rw [if_neg fun same => here (sound.fake.name_inj inside' inside same), if_neg here]

-- Callbacks may be put into slots and behaviors.
theorem fill (sound : c.IsSound) (records : Records c log e) (inside : part ∈ c.fake.parts)
    (isVacant : part.isVacant) (callback? : Option Callback) :
    Records c log { e with fields := e.fields.set part.name (.ofCallback? callback?) } := by
  obtain ⟨notOwn, -⟩ := apart_of_part sound inside
  refine records.put sound ⟨?_, ?_⟩ (.inr ⟨part, inside, by simp [isVacant], rfl⟩) ?_ ?_
  · exact fun same => notOwn (same ▸ by decide)
  · exact fun same => notOwn (same ▸ by decide)
  · exact fun _ _ _ _ => ⟨callback?, rfl⟩
  · intro other inside' isLog
    rw [if_neg]
    intro same
    obtain rfl := sound.fake.name_inj inside' inside same
    rw [Part.isVacant_of_isLog isLog] at isVacant
    cases isVacant

-- A fake may be marked as started or stopped.
theorem mark (sound : c.IsSound) (records : Records c log e) (b : Bool) :
    Records c log { e with fields := e.fields.set "_started" (.value (.ofBool b)) } := by
  have other {part : Part} (inside : part ∈ c.fake.parts) : part.name ≠ "_started" :=
    fun same => (apart_of_part sound inside).1 (same ▸ by decide)
  refine records.put sound (by decide) (.inl (by decide)) ?_ ?_
  · exact fun part inside _ same => absurd same (other inside)
  · intro part inside _
    rw [if_neg (other inside)]

theorem empty_of_shared (sound : c.IsSound) (records : Records c log e) {name : String}
    (shared : name ∈ sharedNames) : e.fields.get? name = none := by
  obtain ⟨other, -, notOwn, -⟩ := apart_of_shared shared
  refine records.untouched name notOwn fun part inside _ same => ?_
  rw [← same, sound.fake.named part inside] at other
  cases other

theorem look_shared (sound : c.IsSound) (records : Records c log e) (name : String) (a : Attribute)
    (shared : name ∈ sharedNames) (layer : Blueprint.fakeLayer.get? name = some a) :
    e.look name = .ok a.held :=
  look_of_shared sound records.blueprint shared (records.empty_of_shared sound shared) layer

theorem look_routine (sound : c.IsSound) (records : Records c log e) (inside : part ∈ c.fake.parts)
    {r : Routine} (has : part.routine? = some r) : e.look part.name = .ok (.routine r) := by
  obtain ⟨notOwn, unbound⟩ := apart_of_part sound inside
  have empty := records.untouched part.name notOwn fun other inside' assigned same => by
    obtain rfl := sound.fake.name_inj inside' inside same
    rw [Part.routine?_eq_none assigned] at has
    cases has
  rw [look_eq sound records.blueprint unbound, Endpoint.lookField, empty, records.blueprint,
    sound.find?_routine inside has]
  rfl

theorem look_log (sound : c.IsSound) (records : Records c log e) (inside : part ∈ c.fake.parts)
    (isLog : part.isLog) : e.look part.name = .ok (.value (.list (log part))) := by
  rw [look_eq sound records.blueprint (apart_of_part sound inside).2]
  simp [Endpoint.lookField, records.logged part inside isLog]

theorem look_channels (sound : c.IsSound) (records : Records c log e) :
    e.look "_channels" = .ok (.channels c.fake.numbers) := by
  rw [look_eq sound records.blueprint (by decide)]
  simp [Endpoint.lookField, records.channels]

theorem run_hasLock (sound : c.IsSound) (records : Records c log e) :
    Act.hasLock.run e = (.ok (), e) := by
  have shows : e.look "_fake_lock" = .ok .lock := by
    rw [look_eq sound records.blueprint (by decide)]
    simp [Endpoint.lookField, records.locked]
  rw [Act.hasLock, Act.run_bind_ok (Act.run_read shows)]
  rfl

theorem run_readModel (sound : c.IsSound) (records : Records c log e) :
    Act.readModel.run e = (.ok (.model c.fake), e) :=
  Fake.run_readModel sound records.blueprint (records.empty_of_shared sound (by decide))

theorem run_invokeMember (sound : c.IsSound) (records : Records c log e) {m : FakeInvokeMember}
    (inside : m ∈ c.fake.invoke) :
    (Act.callName "_invoke_member" [.ofText m.wireName] none).run e = (.ok (.invokeMember m), e) := by
  have shows : e.look "_invoke_member" = .ok (.prompt .invokeMember) :=
    records.look_shared sound "_invoke_member" _ (by decide) rfl
  have model : (Act.asModel (.model c.fake)).run e = (.ok c.fake, e) := rfl
  have found : (Value.ofText m.wireName).text?.bind c.fake.invokeMember? = some m :=
    sound.fake.invokeMember? inside
  rw [Act.run_callName shows]
  show (Act.ownInvokeMember (.ofText m.wireName)).run e = _
  rw [Act.ownInvokeMember, Act.run_bind_ok (records.run_readModel sound), Act.run_bind_ok model, found]
  rfl

theorem run_pushMember (sound : c.IsSound) (records : Records c log e) {p : FakePushMember}
    (inside : p ∈ c.fake.push) :
    (Act.callName "_push_member" [.ofText p.wireName] none).run e = (.ok (.pushMember p), e) := by
  have shows : e.look "_push_member" = .ok (.prompt .pushMember) :=
    records.look_shared sound "_push_member" _ (by decide) rfl
  have model : (Act.asModel (.model c.fake)).run e = (.ok c.fake, e) := rfl
  have found : (Value.ofText p.wireName).text?.bind c.fake.pushMember? = some p :=
    sound.fake.pushMember? inside
  rw [Act.run_callName shows]
  show (Act.ownPushMember (.ofText p.wireName)).run e = _
  rw [Act.ownPushMember, Act.run_bind_ok (records.run_readModel sound), Act.run_bind_ok model, found]
  rfl

theorem run_channelOf (sound : c.IsSound) (records : Records c log e) {wireName : String} {n : Nat}
    (number : c.fake.numbers.get? wireName = some n) :
    (Act.channelOf (.ofText wireName)).run e = (.ok n, e) := by
  have found : (Value.ofText wireName).text?.bind c.fake.numbers.get? = some n := number
  rw [Act.channelOf, Act.run_bind_ok (Act.run_read (records.look_channels sound))]
  dsimp only
  rw [if_neg (by simp [Value.isKey, Value.ofText]), found]
  rfl

theorem run_channel (sound : c.IsSound) (records : Records c log e) {wireName : String} {n : Nat}
    (number : c.fake.numbers.get? wireName = some n) :
    (Act.callName "channel" [.ofText wireName] none).run e = (.ok (.channel n), e) := by
  have shows : e.look "channel" = .ok (.prompt .channel) :=
    records.look_shared sound "channel" _ (by decide) rfl
  rw [Act.run_callName shows]
  exact Act.run_bind_ok (records.run_channelOf sound number)

-- What is appended to a log comes at its end.
theorem run_append (sound : c.IsSound) (records : Records c log e) (inside : part ∈ c.fake.parts)
    (isLog : part.isLog) {value : Act Value} {v : Value} (gives : value.run e = (.ok v, e)) :
    (Act.append part.name value).run e = (.ok (), written e part (log part ++ [v])) := by
  have logged : (Value.list (log part)).list? = some (log part) := rfl
  rw [Act.append, Act.run_bind_ok (Act.run_read (records.look_log sound inside isLog))]
  dsimp only
  rw [logged]
  dsimp only
  rw [Act.run_bind_ok gives, run_assign sound records.blueprint (apart_of_part sound inside).2]
  rfl

end Records

end

end Fake

end HubContract
