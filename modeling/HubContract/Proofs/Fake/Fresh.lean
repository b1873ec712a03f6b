import HubContract.Proofs.Fake.Member

namespace HubContract

namespace Act

-- Names that can be assigned are assigned in turn.
theorem run_assignAll {entries : List (String × Held)} {e : Endpoint}
    (free : ∀ x ∈ entries, e.sealFault? x.1 = none) :
    (assignAll entries).run e = (.ok (), { e with fields := e.fields.setAll entries }) := by
  induction entries generalizing e with
  | nil => rfl
  | cons x entries ih =>
    obtain ⟨name, h⟩ := x
    have rest := ih (e := { e with fields := e.fields.set name h }) fun x inside =>
      free x (List.mem_cons_of_mem _ inside)
    rw [assignAll, run_bind_ok (run_assign (free _ List.mem_cons_self) h), rest]
    rfl

end Act

namespace Fake

open FakeBinding FakeClass

variable {c : FakeClass} {log : Part → List Value} {e : Endpoint} {part : Part}

-- What a fake assigns when it is built.

def ownEntries (strict : Value) : List (String × Held) :=
  [("strict", .value strict), ("_connection", .null), ("_url", .null),
    ("_started", .value (.ofBool false)), ("_fake_lock", .lock), ("_channels", .channels [])]

def invokeEntries (f : FakeBinding) : List (String × Held) :=
  f.invoke.flatMap fun m => [(m.callsAttribute, .value (.list [])), (m.behaviorAttribute, .null)]

def pushEntries (f : FakeBinding) : List (String × Held) :=
  f.push.map fun p => (p.eventsAttribute, .value (.list []))

def assignedEntries (f : FakeBinding) (strict : Value) : List (String × Held) :=
  ownEntries strict ++ (invokeEntries f ++ pushEntries f)

theorem of_mem_assignedEntries {f : FakeBinding} {strict : Value} {name : String} {h : Held}
    (inside : (name, h) ∈ assignedEntries f strict) :
    (name, h) ∈ ownEntries strict ∨ ∃ part ∈ f.parts, part.name = name ∧
      (part.isLog ∧ h = .value (.list []) ∨ part.isVacant ∧ h = .null) := by
  obtain own | rest := List.mem_append.mp inside
  · exact .inl own
  obtain called | event := List.mem_append.mp rest
  · obtain ⟨m, member, entry⟩ := List.mem_flatMap.mp called
    obtain calls | behavior := List.mem_cons.mp entry
    · obtain ⟨rfl, rfl⟩ := Prod.mk.inj calls
      exact .inr ⟨_, calls_mem_parts member, rfl, .inl ⟨rfl, rfl⟩⟩
    · obtain ⟨rfl, rfl⟩ := Prod.mk.inj (List.mem_singleton.mp behavior)
      exact .inr ⟨_, behavior_mem_parts member, rfl, .inr ⟨rfl, rfl⟩⟩
  · obtain ⟨p, member, entry⟩ := List.mem_map.mp event
    obtain ⟨rfl, rfl⟩ := Prod.mk.inj entry
    exact .inr ⟨_, events_mem_parts member, rfl, .inl ⟨rfl, rfl⟩⟩

theorem mem_ownNames {strict : Value} {name : String} {h : Held}
    (own : (name, h) ∈ ownEntries strict) : name ∈ ownNames :=
  List.mem_map_of_mem (f := Prod.fst) own

theorem mem_assignedEntries_of_isLog {f : FakeBinding} (strict : Value) (inside : part ∈ f.parts)
    (isLog : part.isLog) : (part.name, .value (.list [])) ∈ assignedEntries f strict := by
  refine List.mem_append_right _ ?_
  cases part with
  | calls m =>
    have member : m ∈ f.invoke := by simpa [parts] using inside
    exact List.mem_append_left _ (List.mem_flatMap.mpr ⟨m, member, List.mem_cons_self⟩)
  | events p =>
    have member : p ∈ f.push := by simpa [parts] using inside
    exact List.mem_append_right _ (List.mem_map.mpr ⟨p, member, rfl⟩)
  | behavior | wrapper | simulator | waiter | slot => cases isLog

theorem mem_assignedEntries_of_behavior {f : FakeBinding} (strict : Value) {m : FakeInvokeMember}
    (member : m ∈ f.invoke) : (m.behaviorAttribute, .null) ∈ assignedEntries f strict := by
  refine List.mem_append_right _ (List.mem_append_left _ (List.mem_flatMap.mpr ⟨m, member, ?_⟩))
  exact List.mem_cons_of_mem _ List.mem_cons_self

-- What a fake is right after it was built.
def built (c : FakeClass) (strict : Value) : Endpoint where
  blueprint := c.blueprint
  fields := (Table.setAll [] (assignedEntries c.fake strict)).set "_channels"
    (.channels c.fake.numbers)
  channelCount := c.fake.push.length

-- What a name holds then, if it is not that of the channels, is what its own entry says.

theorem get?_built {strict : Value} {name : String} (other : name ≠ "_channels") :
    (built c strict).fields.get? name =
      (Table.setAll [] (assignedEntries c.fake strict)).get? name := by
  refine (Table.get?_set ..).trans ?_
  rw [if_neg (Ne.symm other)]

theorem get?_own (sound : c.IsSound) {strict : Value} {name : String} {h : Held}
    (own : (name, h) ∈ ownEntries strict) :
    (Table.setAll [] (assignedEntries c.fake strict)).get? name = some h := by
  obtain ⟨h', holds⟩ := Option.isSome_iff_exists.mp
    (Table.isSome_get?_setAll (List.mem_append_left (invokeEntries c.fake ++ pushEntries c.fake) own))
  refine Eq.trans holds ?_
  obtain own' | ⟨part, inside, rfl, -⟩ := of_mem_assignedEntries (Table.mem_of_get?_setAll holds)
  · have distinct : ((ownEntries strict).map Prod.fst).Nodup := (by decide : ownNames.Nodup)
    have first := Table.get?_of_mem distinct own
    rw [Table.get?_of_mem distinct own'] at first
    exact first
  · exact absurd (mem_ownNames own) (apart_of_part sound inside).1

theorem get?_part (sound : c.IsSound) {strict : Value} (inside : part ∈ c.fake.parts) {h : Held}
    (holds : (Table.setAll [] (assignedEntries c.fake strict)).get? part.name = some h) :
    part.isLog ∧ h = .value (.list []) ∨ part.isVacant ∧ h = .null := by
  obtain own | ⟨other, inside', same, cases⟩ :=
    of_mem_assignedEntries (Table.mem_of_get?_setAll holds)
  · exact absurd (mem_ownNames own) (apart_of_part sound inside).1
  · obtain rfl := sound.fake.name_inj inside' inside same
    exact cases

theorem records_built (sound : c.IsSound) (strict : Value) :
    Records c (fun _ => []) (built c strict) := by
  have apart {part : Part} (inside : part ∈ c.fake.parts) : part.name ≠ "_channels" := fun same =>
    (apart_of_part sound inside).1 (same ▸ by decide)
  refine ⟨rfl, ?_, ?_, fun name notOwn notPart => ?_, fun part inside isVacant => ⟨none, ?_⟩,
    fun part inside isLog => ?_⟩
  · have own : ("_fake_lock", .lock) ∈ ownEntries strict := by simp [ownEntries]
    rw [get?_built (by decide), get?_own sound own]
  · refine (Table.get?_set ..).trans (if_pos rfl)
  · rw [get?_built (by rintro rfl; exact notOwn (by decide))]
    refine Table.get?_setAll_of_not_mem fun listed => ?_
    obtain ⟨⟨_, h⟩, entry, rfl⟩ := List.mem_map.mp listed
    obtain own | ⟨part, inside, same, cases⟩ := of_mem_assignedEntries entry
    · exact notOwn (mem_ownNames own)
    · refine notPart part inside ?_ same
      obtain ⟨isLog, -⟩ | ⟨isVacant, -⟩ := cases
      · simp [isLog]
      · simp [isVacant]
  · rw [look_eq sound rfl (apart_of_part sound inside).2, Endpoint.lookField, get?_built (apart inside)]
    cases holds : (Table.setAll [] (assignedEntries c.fake strict)).get? part.name with
    | some h =>
      obtain ⟨isLog, -⟩ | ⟨-, rfl⟩ := get?_part sound inside holds
      · rw [Part.isVacant_of_isLog isLog] at isVacant
        cases isVacant
      · rfl
    | none =>
      -- a behavior was assigned, so this is a slot
      cases part with
      | behavior m =>
        have member : m ∈ c.fake.invoke := by simpa [parts] using inside
        have there := Table.isSome_get?_setAll (mem_assignedEntries_of_behavior strict member)
        rw [Part.name] at holds
        rw [holds] at there
        cases there
      | slot p =>
        have member : p ∈ c.fake.push := by simpa [parts] using inside
        have found : (built c strict).blueprint.find? p.slotName = some (.value .null) :=
          sound.find?_slot member
        rw [Part.name, found]
        rfl
      | calls | wrapper | events | simulator | waiter => cases isVacant
  · rw [get?_built (apart inside)]
    obtain ⟨h, holds⟩ := Option.isSome_iff_exists.mp
      (Table.isSome_get?_setAll (mem_assignedEntries_of_isLog strict inside isLog))
    refine Eq.trans holds ?_
    obtain ⟨-, rfl⟩ | ⟨isVacant, -⟩ := get?_part sound inside holds
    · rfl
    · rw [Part.isVacant_of_isLog isLog] at isVacant
      cases isVacant

theorem run_openChannels (sound : c.IsSound) (same : e.blueprint = c.blueprint)
    (none : e.fields.get? "_channels" = some (.channels [])) (unused : e.channelCount = 0) :
    (Act.openChannels (c.fake.push.map (·.wireName))).run e = (.ok (), { e with
      fields := e.fields.set "_channels" (.channels c.fake.numbers)
      channelCount := c.fake.push.length }) := by
  have shows : e.look "_channels" = .ok (.channels []) := by
    rw [look_eq sound same (by decide), Endpoint.lookField, none]
  have assigned := run_assign sound same (by decide : "_channels" ∉ boundNames)
    (.channels c.fake.numbers)
  rw [Act.openChannels, Act.run_bind_ok (Act.run_read shows)]
  dsimp only
  rw [Act.run_bind_ok (Act.run_get e), unused]
  simp only [Nat.zero_add, List.length_map]
  exact (Act.run_bind_ok assigned).trans rfl

theorem build_eq (sound : c.IsSound) (strict : Value) : build c strict = .ok (built c strict) := by
  have entries : ∀ x ∈ assignedEntries c.fake strict, x.1 ∉ boundNames := by
    intro x inside
    obtain own | ⟨part, member, same, -⟩ := of_mem_assignedEntries inside
    · have names : ∀ n ∈ ownNames, n ∉ boundNames := by decide
      exact names _ (mem_ownNames own)
    · exact same ▸ (apart_of_part sound member).2
  have assigns (some : List (String × Held)) (within : some ⊆ assignedEntries c.fake strict)
      (t : Table Held) : (Act.assignAll some).run { blueprint := c.blueprint, fields := t } =
        (.ok (), { blueprint := c.blueprint, fields := t.setAll some }) :=
    Act.run_assignAll fun x inside => Endpoint.sealFault?_eq_none fun _ found =>
      sound.isFree_of_find? (entries x (within inside)) found
  have own := assigns (ownEntries strict) (by simp [assignedEntries]) []
  have called := assigns (invokeEntries c.fake) (by simp [assignedEntries])
    (Table.setAll [] (ownEntries strict))
  have events := assigns (pushEntries c.fake) (by simp [assignedEntries])
    ((Table.setAll [] (ownEntries strict)).setAll (invokeEntries c.fake))
  have together : ((Table.setAll [] (ownEntries strict)).setAll (invokeEntries c.fake)).setAll
      (pushEntries c.fake) = Table.setAll [] (assignedEntries c.fake strict) := by
    simp only [Table.setAll, assignedEntries, List.foldl_append]
  have model := run_readModel sound
    (e := { blueprint := c.blueprint, fields := Table.setAll [] (ownEntries strict) }) rfl rfl
  have opened := run_openChannels sound
    (e := { blueprint := c.blueprint, fields := Table.setAll [] (assignedEntries c.fake strict) }) rfl
    (get?_own sound (by simp [ownEntries])) rfl
  have set : (Act.setUpFake (.value strict)).run { blueprint := c.blueprint } =
      (.ok (), built c strict) := by
    rw [Act.setUpFake]
    refine (Act.run_bind_ok own).trans ?_
    rw [Act.run_bind_ok model]
    refine (Act.run_bind_ok called).trans ?_
    refine (Act.run_bind_ok events).trans ?_
    rw [together]
    exact opened
  unfold build
  dsimp only
  rw [sound.buildFault?, sound.find?_layer (by decide) (by decide) rfl]
  dsimp only
  rw [set]

namespace Records

theorem relog (records : Records c log e) {log' : Part → List Value}
    (same : ∀ part ∈ c.fake.parts, part.isLog → log' part = log part) : Records c log' e where
  blueprint := records.blueprint
  locked := records.locked
  channels := records.channels
  untouched := records.untouched
  vacant := records.vacant
  logged part inside isLog := by
    rw [same part inside isLog]
    exact records.logged part inside isLog

theorem run_clear (sound : c.IsSound) (records : Records c log e) (inside : part ∈ c.fake.parts)
    (isLog : part.isLog) : (Act.clear part.name).run e = (.ok (), written e part []) := by
  have logged : (Value.list (log part)).list? = some (log part) := rfl
  rw [Act.clear, Act.run_bind_ok (Act.run_read (records.look_log sound inside isLog))]
  dsimp only
  rw [logged, Option.isSome_some, if_pos rfl,
    run_assign sound records.blueprint (apart_of_part sound inside).2]
  rfl

-- Clearing logs leaves what is under other names.
theorem run_clearAll (sound : c.IsSound) (records : Records c log e) {logs : List Part}
    (areLogs : ∀ part ∈ logs, part ∈ c.fake.parts ∧ part.isLog) :
    ∃ t, (Act.clearAll (logs.map Part.name)).run e = (.ok (), { e with fields := t }) ∧
      Records c (fun part => if part ∈ logs then [] else log part) { e with fields := t } ∧
      ∀ name, (∀ part ∈ logs, part.name ≠ name) → t.get? name = e.fields.get? name := by
  induction logs generalizing e log with
  | nil => exact ⟨e.fields, rfl, records.relog (by simp), fun _ _ => rfl⟩
  | cons part logs ih =>
    obtain ⟨inside, isLog⟩ := areLogs part List.mem_cons_self
    obtain ⟨t, runs, cleared, others⟩ := ih (records.write sound inside isLog [])
      fun other later => areLogs other (List.mem_cons_of_mem _ later)
    refine ⟨t, ?_, cleared.relog fun other _ _ => ?_, fun name apart => ?_⟩
    · rw [List.map_cons, Act.clearAll, Act.run_bind_ok (records.run_clear sound inside isLog), runs]
      rfl
    · by_cases here : other = part <;> simp [here]
    · rw [others name fun other later => apart other (List.mem_cons_of_mem _ later)]
      exact (Table.get?_set ..).trans (if_neg (apart part List.mem_cons_self))

end Records

-- A loop with these channels reset.
def resetAll (numbers : Table Nat) (l : Loop Value) : Loop Value :=
  numbers.foldl (fun l (_, n) => l.reset n) l

-- All logs are cleared, first those of calls.
theorem Records.run_clearLogs (sound : c.IsSound) (records : Records c log e) :
    ∃ t t', (Act.clearAll (c.fake.invoke.map (·.callsAttribute))).run e = (.ok (), { e with fields := t }) ∧
      (Act.clearAll (c.fake.push.map (·.eventsAttribute))).run { e with fields := t } =
        (.ok (), { e with fields := t' }) ∧
      Records c (fun _ => []) { e with fields := t' } ∧
      ∀ name, (∀ part ∈ c.fake.parts, part.isLog → part.name ≠ name) →
        t'.get? name = e.fields.get? name := by
  have calls : ∀ part ∈ c.fake.invoke.map Part.calls, part ∈ c.fake.parts ∧ part.isLog := by
    intro part inside
    obtain ⟨m, member, rfl⟩ := List.mem_map.mp inside
    exact ⟨calls_mem_parts member, rfl⟩
  have events : ∀ part ∈ c.fake.push.map Part.events, part ∈ c.fake.parts ∧ part.isLog := by
    intro part inside
    obtain ⟨p, member, rfl⟩ := List.mem_map.mp inside
    exact ⟨events_mem_parts member, rfl⟩
  obtain ⟨t, first, called, kept⟩ := records.run_clearAll sound calls
  obtain ⟨t', second, cleared, kept'⟩ := called.run_clearAll sound events
  rw [List.map_map] at first second
  refine ⟨t, t', first, second, cleared.relog fun part inside isLog => ?_, fun name other => ?_⟩
  · cases part with
    | calls m =>
      have member : m ∈ c.fake.invoke := by simpa [parts] using inside
      simp [member]
    | events p =>
      have member : p ∈ c.fake.push := by simpa [parts] using inside
      simp [member]
    | behavior | wrapper | simulator | waiter | slot => cases isLog
  · rw [kept' name fun part inside => other part (events part inside).1 (events part inside).2,
      kept name fun part inside => other part (calls part inside).1 (calls part inside).2]

-- A reset writes logs and channels only.
theorem Records.run_reset (sound : c.IsSound) (records : Records c log e) :
    ∃ t, reset.run e =
        (.ok .null, { e with fields := t, loop := resetAll c.fake.numbers e.loop }) ∧
      Records c (fun _ => []) { e with fields := t, loop := resetAll c.fake.numbers e.loop } ∧
      ∀ name, (∀ part ∈ c.fake.parts, part.isLog → part.name ≠ name) →
        t.get? name = e.fields.get? name := by
  obtain ⟨t, t', first, second, emptied, kept⟩ := records.run_clearLogs sound
  have shows : e.look "reset" = .ok (.prompt .reset) :=
    records.look_shared sound "reset" _ (by decide) rfl
  have model : (Act.asModel (.model c.fake)).run e = (.ok c.fake, e) := rfl
  have ran : Act.reset.run e =
      (.ok (), { e with fields := t', loop := resetAll c.fake.numbers e.loop }) := by
    rw [Act.reset, Act.run_bind_ok (records.run_readModel sound),
      Act.run_bind_ok (records.run_hasLock sound), Act.run_bind_ok model]
    refine (Act.run_bind_ok first).trans ?_
    refine (Act.run_bind_ok second).trans ?_
    rw [Act.resetChannels, Act.run_bind_ok (Act.run_read (emptied.look_channels sound))]
    rfl
  have called : (Act.callName "reset" [] none).run e =
      (.ok .null, { e with fields := t', loop := resetAll c.fake.numbers e.loop }) := by
    rw [Act.run_callName shows]
    show (Act.silently Act.reset).run e = _
    rw [Act.silently, Act.run_bind_ok ran]
    rfl
  refine ⟨t', ?_, ?_, kept⟩
  · rw [Fake.reset, Act.run_bind_ok called]
    rfl
  · exact ⟨emptied.blueprint, emptied.locked, emptied.channels, emptied.untouched, emptied.vacant,
      emptied.logged⟩

end Fake

end HubContract
