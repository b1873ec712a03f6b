import HubContract.Proofs.Channel.Attendance
import Mathlib.Data.List.Infix

namespace HubContract

variable {α : Type}

namespace Wait

-- The task of a wait was not cancelled.
structure IsCalm (x : Wait α) : Prop where
  undoomed : x.doomed = false
  kept : x.phase ≠ .dropped
  awaited : x.phase ≠ .ended .abandoned

-- The channel was not reset while a wait stood in line.
structure IsUnclosed (x : Wait α) : Prop where
  welcome : x.phase ≠ .refused .closed
  unclosed : x.phase ≠ .ended (.failed .closed)

end Wait

namespace Channel

section

variable {c : Channel α} {w : Nat} {x : Wait α} {op : Operation α} {z : Option (Wait α)} {v : α}

theorem Fares.exists_token (fares : Fares c w op z) (found : c.wait? w = some x) :
    ∃ y, z = some y ∧ y.token = x.token := by
  have same {x' : Wait α} (found' : c.wait? w = some x') : x' = x :=
    Option.some.inj (found'.symm.trans found)
  cases fares with
  | same => exact ⟨x, found, rfl⟩
  | start new =>
    have inside := (List.getElem?_eq_some_iff.mp found).1
    exact absurd new inside.ne
  | fail found' | take found' | enter found' | hand found' | learn found' | dismiss found'
  | drop found' | doom found' | close found' =>
    obtain rfl := same found'
    exact ⟨_, rfl, rfl⟩

-- Nothing gives a wait a value but a publication that finds it first in line, or its beginning.
theorem Fares.given (fares : Fares c w op z) (given : z.bind Wait.value? = some v) :
    c.given? w = some v ∨ op = .publish v ∧ c.standing.head? = some w ∨ op = .begin w false := by
  cases fares with
  | same => exact .inl given
  | start => cases given
  | @fail x fired e found fresh noValue =>
    rw [Option.bind_some, Wait.value?, Phase.value?_ended_eq_none noValue] at given
    cases given
  | take => exact .inr (.inr rfl)
  | enter => cases given
  | hand _ _ first =>
    obtain rfl := Option.some.inj given
    exact .inr (.inl ⟨rfl, first⟩)
  | learn found learns =>
    refine .inl ?_
    obtain ⟨u, phase, -, rfl⟩ | ⟨failure, -, -, rfl⟩ | ⟨-, rfl⟩ := Wait.learns?_cases learns
    · rw [given?, found, Option.bind_some, Wait.value?, phase]
      exact given
    · cases given
    · cases given
  | dismiss => cases given
  | drop => cases given
  | doom found => exact .inl (by rw [given?, found]; exact given)
  | close => cases given

theorem given?_publish (first : c.standing.head? = some w) (v : α) :
    (c.publish v).given? w = some v := by
  have fares := fares_publish c w v
  generalize after : (c.publish v).wait? w = z at fares
  cases fares with
  | same _ _ _ passed => exact absurd first (passed v rfl)
  | hand => exact congrArg (Option.bind · Wait.value?) after

theorem given?_eq_some_iff_of_ended {e : Ending α} (found : c.wait? w = some x)
    (ended : x.phase = .ended e) : c.given? w = some v ↔ e = .value v := by
  rw [given?, found, Option.bind_some, Wait.value?, ended]
  cases e <;> simp [Phase.value?]

theorem Fares.isCalm (fares : Fares c w op z) (calm : ∀ x, c.wait? w = some x → x.IsCalm)
    (undisturbed : op ≠ .abandon w) (y : Wait α) (after : z = some y) : y.IsCalm := by
  cases fares with
  | same => exact calm y after
  | drop | doom => exact absurd rfl undisturbed
  | start =>
    obtain rfl := Option.some.inj after
    exact ⟨rfl, nofun, nofun⟩
  | fail found _ _ marked =>
    obtain rfl := Option.some.inj after
    have undoomed := (calm _ found).undoomed
    refine ⟨undoomed, nofun, fun ended => ?_⟩
    rw [marked (Phase.ended.inj ended)] at undoomed
    cases undoomed
  | learn found learns =>
    obtain rfl := Option.some.inj after
    refine ⟨(calm _ found).undoomed, nofun, fun ended => ?_⟩
    obtain ⟨u, -, -, rfl⟩ | ⟨failure, -, -, rfl⟩ | ⟨doomed | dropped, -⟩ := Wait.learns?_cases learns
    · cases ended
    · cases ended
    · rw [(calm _ found).undoomed] at doomed
      cases doomed
    · exact (calm _ found).kept dropped
  | take found | enter found | hand found | dismiss found | close found =>
    obtain rfl := Option.some.inj after
    exact ⟨(calm _ found).undoomed, nofun, nofun⟩

theorem Fares.isUnclosed (fares : Fares c w op z)
    (unclosed : ∀ x, c.wait? w = some x → x.IsUnclosed) (kept : op ≠ .reset) (y : Wait α)
    (after : z = some y) : y.IsUnclosed := by
  cases fares with
  | same => exact unclosed y after
  | close => exact absurd rfl kept
  | fail _ _ _ _ other =>
    obtain rfl := Option.some.inj after
    exact ⟨nofun, fun ended => other (Phase.ended.inj ended)⟩
  | learn found learns =>
    obtain rfl := Option.some.inj after
    refine ⟨nofun, fun ended => ?_⟩
    obtain ⟨u, -, -, rfl⟩ | ⟨failure, refused, -, rfl⟩ | ⟨-, rfl⟩ := Wait.learns?_cases learns
    · cases ended
    · obtain rfl := Ending.failed.inj (Phase.ended.inj ended)
      exact (unclosed _ found).welcome refused
    · cases ended
  | doom found =>
    obtain rfl := Option.some.inj after
    exact ⟨(unclosed _ found).welcome, (unclosed _ found).unclosed⟩
  | start | take | enter | hand | dismiss | drop =>
    obtain rfl := Option.some.inj after
    exact ⟨nofun, nofun⟩

-- A value that was given is kept unless the task of the wait is cancelled.
theorem Fares.keeps (fares : Fares c w op z) (calm : ∀ x, c.wait? w = some x → x.IsCalm)
    (undisturbed : op ≠ .abandon w) (given : c.given? w = some v) : z.bind Wait.value? = some v := by
  have held {x : Wait α} (found : c.wait? w = some x) : x.value? = some v := by
    rwa [given?, found] at given
  have none {x : Wait α} (found : c.wait? w = some x) (phase : x.phase = .fresh ∨ x.phase = .inLine) :
      z.bind Wait.value? = some v := by
    have value := held found
    obtain phase | phase := phase <;> simp [Wait.value?, Phase.value?, phase] at value
  cases fares with
  | same => exact given
  | start new =>
    have beyond : c.wait? w = .none := List.getElem?_eq_none (new ▸ Nat.le_refl _)
    simp [given?, beyond] at given
  | fail found fresh | take found fresh | enter found fresh => exact none found (.inl fresh)
  | hand found inLine | dismiss found inLine | close found inLine => exact none found (.inr inLine)
  | drop | doom => exact absurd rfl undisturbed
  | learn found learns =>
    have value := held found
    obtain ⟨u, phase, -, rfl⟩ | ⟨failure, phase, -⟩ | ⟨doomed | dropped, -⟩ :=
      Wait.learns?_cases learns
    · rwa [Wait.value?, phase] at value
    · simp [Wait.value?, Phase.value?, phase] at value
    · rw [(calm _ found).undoomed] at doomed
      cases doomed
    · exact absurd dropped (calm _ found).kept

-- What holds of a wait after all operations if each of them preserves it.
theorem wait?_run {P : Option (Wait α) → Prop} {ops : List (Operation α)}
    (step : ∀ c : Channel α, ∀ op ∈ ops, P (c.wait? w) → P ((c.apply op).wait? w)) (holds : P (c.wait? w)) :
    P ((c.run ops).wait? w) := by
  induction ops generalizing c with
  | nil => exact holds
  | cons op ops ih =>
    have first := step c op List.mem_cons_self holds
    exact ih (fun c op' later => step c op' (List.mem_cons_of_mem _ later)) first

end

end Channel

namespace Loop

open Channel

section

variable {l : Loop α} {t : Nat}

theorem hasFired_iff : l.hasFired t ↔ ∃ token, l.tokens[t]? = some token ∧ token.fired := by
  simp [hasFired, token?, Option.any_eq_true]

-- What is done to a token does not take back that it fired.
theorem hasFired_onToken (fired : l.hasFired t) (t' : Nat)
    {f : Token WaitId → Token WaitId × List WaitId} (keeps : ∀ token, token.fired → (f token).1.fired) :
    (l.onToken t' f).hasFired t := by
  obtain ⟨token, found, fires⟩ := hasFired_iff.mp fired
  cases there : l.token? t' with
  | none =>
    unfold onToken
    rwa [there]
  | some token' =>
    rw [onToken_of_token? there]
    by_cases here : t' = t
    · subst here
      obtain rfl : token = token' := Option.some.inj (found.symm.trans there)
      have inside := (List.getElem?_eq_some_iff.mp found).1
      exact hasFired_iff.mpr ⟨_, List.getElem?_set_self inside, keeps token fires⟩
    · exact hasFired_iff.mpr ⟨token, (List.getElem?_set_ne here).trans found, fires⟩

theorem hasFired_run (fired : l.hasFired t) (turn : Turn) : (l.run turn).hasFired t := by
  cases turn with
  | «begin» w =>
    have begun : (l.onChannel w.channel
      (·.begin w.number ((l.tokenOf w).any l.hasFired))).hasFired t := fired
    obtain ⟨-, same⟩ | ⟨t', -, -, registers⟩ := l.beginWait_cases w
    · rwa [run, same]
    · rw [run, registers]
      exact hasFired_onToken begun t' fun token fires => by simp [Token.register, fires]
  | resume w =>
    have resumed : (l.onChannel w.channel (·.resume w.number)).hasFired t := fired
    simp only [run, resumeWait]
    split
    · exact hasFired_onToken resumed _ fun _ => id
    · exact resumed
  | dismiss w | task number => exact fired
  | elapse t' =>
    refine hasFired_onToken (f := Token.elapse) fired t' fun token fires => ?_
    unfold Token.elapse
    split
    · simp [Token.cancel, fires]
    · exact fires

theorem hasFired_act (fired : l.hasFired t) (a : Action α) : (l.act a).hasFired t := by
  cases a with
  | publish | start | abandon | reset | ripen => exact fired
  | waitNow n t' =>
    have started : (l.onChannel n (·.start t')).hasFired t := fired
    exact hasFired_run started (.begin _)
  | addToken fires =>
    obtain ⟨token, found, fires⟩ := hasFired_iff.mp fired
    have inside := (List.getElem?_eq_some_iff.mp found).1
    exact hasFired_iff.mpr ⟨token, (List.getElem?_append_left inside).trans found, fires⟩
  | cancel t' =>
    exact hasFired_onToken (f := Token.cancel) fired t' fun token fires => by
      simp [Token.cancel, fires]
  | cancelAfter t' delay =>
    exact hasFired_onToken fired t' fun token fires => by simp [Token.cancelAfter, fires]
  | turn position =>
    rw [act, turnAt]
    split
    · exact fired
    · have left : ({ l with ready := l.ready.eraseIdx position } : Loop α).hasFired t := fired
      exact hasFired_run left _

end

section

variable {l : Loop α} {w : WaitId} {t : Nat} {v : α}

theorem tokenOf_act (token : l.tokenOf w = some t) (a : Action α) : (l.act a).tokenOf w = some t := by
  rw [tokenOf, channel_act]
  refine wait?_run (P := (Option.bind · (·.token) = some t)) (fun c op _ token => ?_) token
  obtain ⟨x, found, has⟩ := Option.bind_eq_some_iff.mp token
  obtain ⟨y, after, same⟩ := (fares_apply c w.number op).exists_token found
  rw [after, Option.bind_some, same, has]

-- A wait whose token has fired begins with a look at it.
theorem fired_of_mem_effects {a : Action α} {fired : Bool} (token : l.tokenOf w = some t)
    (fires : l.hasFired t) (does : .begin w.number fired ∈ l.effects w.channel a) : fired = true := by
  generalize is : Operation.begin w.number fired = op at does
  cases l.asks_of_mem_effects w.channel does with
  | beginNow =>
    -- that is another wait, which has only just been started
    obtain ⟨new, -⟩ := Operation.begin.inj is
    obtain ⟨x, found, -⟩ := Option.bind_eq_some_iff.mp token
    exact absurd new (List.getElem?_eq_some_iff.mp found).1.ne
  | «begin» =>
    obtain ⟨rfl, rfl⟩ := Operation.begin.inj is
    have token : l.tokenOf ⟨w.channel, w.number⟩ = some t := token
    rw [token]
    exact fires
  | publish | start | startNow | abandon | reset | resume | dismiss => cases is

-- Once its token has fired, a wait gets a value only from a publication that finds it first in line.
theorem given?_act (token : l.tokenOf w = some t) (fires : l.hasFired t) {a : Action α}
    (given : ((l.act a).channel w.channel).given? w.number = some v) :
    (l.channel w.channel).given? w.number = some v ∨
      a = .publish w.channel v ∧ (l.channel w.channel).standing.head? = some w.number := by
  have looks (does : .begin w.number false ∈ l.effects w.channel a) : False :=
    Bool.false_ne_true (fired_of_mem_effects token fires does)
  have publishes {v : α} (does : .publish v ∈ l.effects w.channel a) : a = .publish w.channel v :=
    (of_mem_effects l w.channel does).1 v rfl
  rw [channel_act] at given
  obtain none | ⟨op, one⟩ | ⟨t', w', fired, two⟩ := l.effects_cases w.channel a
  · rw [none] at given
    exact .inl given
  · rw [one] at given looks publishes
    obtain before | ⟨rfl, first⟩ | rfl := (fares_apply _ w.number op).given given
    · exact .inl before
    · exact .inr ⟨publishes List.mem_cons_self, first⟩
    · exact (looks List.mem_cons_self).elim
  · rw [two] at given looks
    obtain before | ⟨publication, -⟩ | begins := (fares_apply _ w.number (.begin w' fired)).given given
    · rw [apply, given?_start] at before
      exact .inl before
    · cases publication
    · exact (looks (begins ▸ List.mem_cons_of_mem _ List.mem_cons_self)).elim

-- A publication that finds a wait first in line.
def Reaches (l : Loop α) (w : WaitId) (v : α) (acts : List (Action α)) : Prop :=
  ∃ front back, acts = front ++ .publish w.channel v :: back ∧
    ((l.play front).channel w.channel).standing.head? = some w.number

theorem given?_play (token : l.tokenOf w = some t) (fires : l.hasFired t) {acts : List (Action α)}
    (given : ((l.play acts).channel w.channel).given? w.number = some v) :
    (l.channel w.channel).given? w.number = some v ∨ l.Reaches w v acts := by
  induction acts generalizing l with
  | nil => exact .inl given
  | cons a acts ih =>
    obtain before | ⟨front, back, rfl, first⟩ := ih (tokenOf_act token a) (hasFired_act fires a) given
    · obtain before | ⟨rfl, first⟩ := given?_act token fires before
      · exact .inl before
      · exact .inr ⟨[], acts, rfl, first⟩
    · exact .inr ⟨a :: front, back, rfl, first⟩

theorem tokenOf_play (token : l.tokenOf w = some t) (acts : List (Action α)) :
    (l.play acts).tokenOf w = some t := by
  induction acts generalizing l with
  | nil => exact token
  | cons a acts ih => exact ih (tokenOf_act token a)

theorem hasFired_play (fires : l.hasFired t) (acts : List (Action α)) :
    (l.play acts).hasFired t := by
  induction acts generalizing l with
  | nil => exact fires
  | cons a acts ih => exact ih (hasFired_act fires a)

theorem isCalm_play {acts : List (Action α)} (calm : ∀ x, l.wait? w = some x → x.IsCalm)
    (undisturbed : .abandon w ∉ acts) : ∀ x, (l.play acts).wait? w = some x → x.IsCalm := by
  rw [wait?, channel_play]
  refine wait?_run (P := fun z => ∀ x, z = some x → x.IsCalm) (fun c op does calm => ?_) calm
  refine (fares_apply c w.number op).isCalm calm ?_
  rintro rfl
  exact undisturbed ((mem_of_mem_history does).1 w.number rfl)

theorem isUnclosed_play {acts : List (Action α)} (unclosed : ∀ x, l.wait? w = some x → x.IsUnclosed)
    (kept : .reset w.channel ∉ acts) : ∀ x, (l.play acts).wait? w = some x → x.IsUnclosed := by
  rw [wait?, channel_play]
  refine wait?_run (P := fun z => ∀ x, z = some x → x.IsUnclosed) (fun c op does unclosed => ?_) unclosed
  refine (fares_apply c w.number op).isUnclosed unclosed ?_
  rintro rfl
  exact kept ((mem_of_mem_history does).2 rfl)

theorem given?_play_of_isCalm {acts : List (Action α)} (calm : ∀ x, l.wait? w = some x → x.IsCalm)
    (undisturbed : .abandon w ∉ acts) (given : (l.channel w.channel).given? w.number = some v) :
    ((l.play acts).channel w.channel).given? w.number = some v := by
  rw [channel_play]
  refine (wait?_run (P := fun z => (∀ x, z = some x → x.IsCalm) ∧ z.bind Wait.value? = some v)
    (fun c op does ⟨calm, given⟩ => ?_) ⟨calm, given⟩).2
  have other : op ≠ .abandon w.number := by
    rintro rfl
    exact undisturbed ((mem_of_mem_history does).1 w.number rfl)
  have fares := fares_apply c w.number op
  exact ⟨fares.isCalm calm other, fares.keeps calm other given⟩

-- Turns that are taken ask for no tokens and publish nothing.
theorem namesTokens_append (l : Loop α) (acts acts' : List (Action α)) :
    namesTokens l (acts ++ acts') = (namesTokens l acts && namesTokens (l.play acts) acts') := by
  induction acts generalizing l with
  | nil => rfl
  | cons a acts ih =>
    rw [List.cons_append, namesTokens, namesTokens, ih, Bool.and_assoc]
    rfl

theorem namesTokens_leftovers (l l' : Loop α) : namesTokens l l'.leftovers := by
  have turns (k : Nat) (l : Loop α) : namesTokens l (.replicate k (.turn 0)) := by
    induction k generalizing l with
    | zero => rfl
    | succ k ih => exact ih _
  exact turns _ _

theorem mem_leftovers {a : Action α} (does : a ∈ l.leftovers) : a = .ripen ∨ a = .turn 0 :=
  (List.mem_cons.mp does).imp_right List.eq_of_mem_replicate

-- A value that reaches a wait is what it has in the end, unless its task is cancelled.
theorem Reaches.given? {acts : List (Action α)} (reaches : l.Reaches w v acts)
    (calm : ∀ x, l.wait? w = some x → x.IsCalm) (undisturbed : .abandon w ∉ acts) :
    ((l.play acts).channel w.channel).given? w.number = some v := by
  obtain ⟨front, back, rfl, first⟩ := reaches
  obtain ⟨early, -, later⟩ : .abandon w ∉ front ∧ _ ∧ .abandon w ∉ back := by
    simpa only [List.mem_append, List.mem_cons, not_or] using undisturbed
  have given : (((l.play front).act (.publish w.channel v)).channel w.channel).given? w.number =
      some v := by
    rw [act, Loop.publish, channel_onChannel, if_pos rfl]
    exact given?_publish first v
  have calm : ∀ x, ((l.play front).play [.publish w.channel v]).wait? w = some x → x.IsCalm :=
    isCalm_play (isCalm_play calm early) (by simp)
  rw [play_append]
  exact given?_play_of_isCalm (l := (l.play front).act (.publish w.channel v)) calm later given

theorem Reaches.mem {acts : List (Action α)} (reaches : l.Reaches w v acts) :
    .publish w.channel v ∈ acts := by
  obtain ⟨front, back, rfl, -⟩ := reaches
  exact List.mem_append_right _ List.mem_cons_self

-- Whose task was cancelled, and who was there when the channel was reset, asked for it.
theorem abandon_mem_of_ended {acts : List (Action α)} {x : Wait α}
    (found : (play {} acts).wait? w = some x) (ended : x.phase = .ended .abandoned) :
    .abandon w ∈ acts := by
  by_contra undisturbed
  exact (isCalm_play (l := {}) nofun undisturbed x found).awaited ended

theorem reset_mem_of_ended {acts : List (Action α)} {x : Wait α}
    (found : (play {} acts).wait? w = some x) (ended : x.phase = .ended (.failed .closed)) :
    .reset w.channel ∈ acts := by
  by_contra kept
  exact (isUnclosed_play (l := {}) nofun kept x found).unclosed ended

-- How a wait whose token has fired has ended, once there is nothing left to do.
theorem exists_ending_settle {acts : List (Action α)} (named : namesTokens {} acts)
    (token : (play {} acts).tokenOf w = some t) (fires : (play {} acts).hasFired t) :
    ∃ x e, (play {} acts).settle.wait? w = some x ∧ x.phase = .ended e := by
  have named : namesTokens {} (acts ++ (play {} acts).leftovers) := by
    rw [namesTokens_append, named, namesTokens_leftovers]
    rfl
  have served := served_play (w := w) named (.absent List.not_mem_nil)
  rw [play_append, ← settle_eq_play, ready_settle] at served
  have token := tokenOf_play token (play {} acts).leftovers
  have fires := hasFired_play fires (play {} acts).leftovers
  rw [← settle_eq_play] at token fires
  obtain ⟨x, found, has⟩ := Option.bind_eq_some_iff.mp token
  obtain ⟨called, there, fired⟩ := hasFired_iff.mp fires
  have found : (play {} acts).settle.wait? w = some x := found
  rw [found] at served
  obtain ⟨e, ended⟩ := served.exists_ending ⟨t, called, has, there, fired⟩
  exact ⟨x, e, found, ended⟩

end

-- A wait whose token fires before it is given a value ends, whatever happens then. It ends without a
-- value, unless one is published before its turn comes while it is the first in line: then it ends
-- with that value, or its task is cancelled.
theorem ends_canceled_unless_reached (before after : List (Action α)) (w : WaitId) (t : Nat)
    (named : namesTokens {} (before ++ after)) (token : (play {} before).tokenOf w = some t)
    (fired : (play {} before).hasFired t)
    (empty : ((play {} before).channel w.channel).given? w.number = none) :
    let final := (play {} (before ++ after)).settle
    (∃ e, final.ending? w = some e ∧ (e = .abandoned → .abandon w ∈ before ++ after) ∧
      (e = .failed .closed → .reset w.channel ∈ before ++ after) ∧
      ∀ v, e = .value v → (play {} before).Reaches w v after) ∧
    (.abandon w ∉ before ++ after →
      ∀ v, final.ending? w = some (.value v) ↔ (play {} before).Reaches w v after) := by
  intro final
  have settles : final = ((play {} before).play after).play (play {} (before ++ after)).leftovers := by
    rw [← play_append {} before, ← settle_eq_play]
  have played : final = play {} (before ++ after ++ (play {} (before ++ after)).leftovers) := by
    rw [play_append {} (before ++ after), ← settle_eq_play]
  have asked {a : Action α} (does : a ∈ before ++ after ++ (play {} (before ++ after)).leftovers)
      (notRipen : a ≠ .ripen) (notTurn : a ≠ .turn 0) : a ∈ before ++ after :=
    (List.mem_append.mp does).resolve_right fun does =>
      (mem_leftovers does).elim notRipen notTurn
  obtain ⟨x, e, found, ended⟩ : ∃ x e, final.wait? w = some x ∧ x.phase = .ended e := by
    refine exists_ending_settle named (t := t) ?_ ?_
    · exact play_append {} before after ▸ tokenOf_play token after
    · exact play_append {} before after ▸ hasFired_play fired after
  have ending {e' : Ending α} : final.ending? w = some e' ↔ e = e' := by
    refine ending?_iff.trans ⟨fun ⟨y, found', phase⟩ => ?_, fun same => ⟨x, found, same ▸ ended⟩⟩
    obtain rfl := Option.some.inj (found.symm.trans found')
    exact Phase.ended.inj (ended.symm.trans phase)
  have given {v : α} : (final.channel w.channel).given? w.number = some v ↔ e = .value v :=
    given?_eq_some_iff_of_ended found ended
  have reached (v : α) (value : e = .value v) : (play {} before).Reaches w v after := by
    have given := given.mpr value
    rw [settles] at given
    obtain middle | late := given?_play (tokenOf_play token after) (hasFired_play fired after) given
    · obtain early | reaches := given?_play token fired middle
      · rw [empty] at early
        cases early
      · exact reaches
    · exact ((mem_leftovers late.mem).elim nofun nofun)
  refine ⟨⟨e, ending.mpr rfl, ?_, ?_, reached⟩, fun undisturbed v => ending.trans ⟨reached v, ?_⟩⟩
  · rintro rfl
    exact asked (abandon_mem_of_ended (played ▸ found) ended) nofun nofun
  · rintro rfl
    exact asked (reset_mem_of_ended (played ▸ found) ended) nofun nofun
  · intro reaches
    obtain ⟨early, later⟩ : .abandon w ∉ before ∧ .abandon w ∉ after := by
      simpa only [List.mem_append, not_or] using undisturbed
    have calm : ∀ x, (play {} before).wait? w = some x → x.IsCalm := isCalm_play nofun early
    refine given.mp (settles ▸ given?_play_of_isCalm (isCalm_play calm later) ?_ ?_)
    · exact fun does => (mem_leftovers does).elim nofun nofun
    · exact reaches.given? calm later

-- Wait 0 is the first in line, and gets the value. Wait 1 is dismissed after it.
theorem ends_canceled_unless_reached_second :
    let before : List (Action Nat) :=
      [.addToken false, .waitNow 0 none, .waitNow 0 (some 0), .cancel 0]
    namesTokens {} (before ++ [.publish 0 7]) ∧ (play {} before).tokenOf ⟨0, 1⟩ = some 0 ∧
      (play {} before).hasFired 0 ∧ ((play {} before).channel 0).given? 1 = none ∧
      ((play {} (before ++ [.publish 0 7])).settle.ending? ⟨0, 1⟩ = some (.value 7) ↔
        (play {} before).Reaches ⟨0, 1⟩ 7 [.publish 0 7]) ∧
      (play {} (before ++ [.publish 0 7])).settle.ending? ⟨0, 1⟩ = some (.failed .canceled) := by
  intro before
  have named : namesTokens {} (before ++ [.publish 0 7]) := by decide
  have token : (play {} before).tokenOf ⟨0, 1⟩ = some 0 := by decide
  have fired : (play {} before).hasFired 0 := by decide
  have empty : ((play {} before).channel 0).given? 1 = none := by decide
  have ends := ends_canceled_unless_reached before [.publish 0 7] ⟨0, 1⟩ 0 named token fired empty
  exact ⟨named, token, fired, empty, ends.2 (by simp [before]) 7, by decide⟩

-- Alone in line, a wait gets the value that is published after its token has fired.
theorem ends_canceled_unless_reached_first :
    let before : List (Action Nat) := [.addToken false, .waitNow 0 (some 0), .cancel 0]
    (play {} before).tokenOf ⟨0, 0⟩ = some 0 ∧ (play {} before).hasFired 0 ∧
      ((play {} before).channel 0).given? 0 = none ∧
      (play {} (before ++ [.publish 0 7])).settle.ending? ⟨0, 0⟩ = some (.value 7) ∧
      ¬ ∃ failure, (play {} (before ++ [.publish 0 7])).settle.ending? ⟨0, 0⟩ =
        some (.failed failure) := by
  intro before
  have ending : (play {} (before ++ [.publish 0 7])).settle.ending? ⟨0, 0⟩ = some (.value 7) := by
    decide
  refine ⟨by decide, by decide, by decide, ending, ?_⟩
  rw [ending]
  nofun

end Loop

end HubContract
