import HubContract.Proofs.Channel.Fate
import HubContract.Proofs.Channel.Settling

namespace HubContract

variable {α : Type}

namespace Channel

variable {c c' : Channel α} {w : Nat}

theorem isWoken_iff : c.isWoken w ↔ ∃ x, c.wait? w = some x ∧ x.learns?.isSome := by
  unfold isWoken phase?
  cases c.wait? w with
  | none => simp
  | some x =>
    obtain ⟨token, phase, generation, doomed⟩ := x
    cases phase <;> cases doomed <;> simp [Wait.learns?]

theorem isWoken_of_fresh {x : Wait α} (found : c.wait? w = some x) (fresh : x.phase = .fresh) :
    c.isWoken w = false := by
  simp [isWoken, phase?, found, fresh]

theorem mem_newlyWoken : w ∈ c.newlyWoken c' ↔ c'.isWoken w ∧ c.isWoken w = false := by
  have inside (woken : c'.isWoken w) : w < c'.waits.length := by
    obtain ⟨x, found, -⟩ := isWoken_iff.mp woken
    exact (List.getElem?_eq_some_iff.mp found).1
  simp only [newlyWoken, List.mem_filter, List.mem_range, Bool.and_eq_true, Bool.not_eq_true']
  exact and_iff_right_of_imp fun woken => inside woken.1

end Channel

namespace Loop

open Channel

def wait? (l : Loop α) (w : WaitId) : Option (Wait α) := (l.channel w.channel).wait? w.number

-- A token that has asked for the dismissal of a wait, or will do so when it fires.
def Calls (token : Token WaitId) (ready : List Turn) (w : WaitId) : Prop :=
  if token.fired then .dismiss w ∈ ready else w ∈ token.callbacks

-- What lets a wait go on that has not ended. Nobody resumes a wait that still stands in line.
inductive Served (tokens : List (Token WaitId)) (ready : List Turn) (w : WaitId) :
    Option (Wait α) → Prop where
  | absent (asleep : .resume w ∉ ready) : Served tokens ready w none
  | fresh {x : Wait α} (phase : x.phase = .fresh) (asleep : .resume w ∉ ready)
      (begins : .begin w ∈ ready) (there : ∀ t, x.token = some t → t < tokens.length) :
      Served tokens ready w (some x)
  | inLine {x : Wait α} (phase : x.phase = .inLine) (asleep : .resume w ∉ ready)
      (called : ∀ t, x.token = some t → ∃ token, tokens[t]? = some token ∧ Calls token ready w) :
      Served tokens ready w (some x)
  | woken {x : Wait α} (learns : x.learns?.isSome) (resumes : .resume w ∈ ready) :
      Served tokens ready w (some x)
  | ended {x : Wait α} {e : Ending α} (phase : x.phase = .ended e) : Served tokens ready w (some x)

section

variable {l : Loop α} {tokens tokens' : List (Token WaitId)} {ready ready' : List Turn} {w : WaitId}
  {x : Option (Wait α)}

theorem Calls.mono {token : Token WaitId} (calls : Calls token ready w)
    (dismisses : .dismiss w ∈ ready → .dismiss w ∈ ready') : Calls token ready' w := by
  unfold Calls at calls ⊢
  split at calls
  case isTrue fired => exact (if_pos fired).symm ▸ dismisses calls
  case isFalse waits => exact (if_neg waits).symm ▸ calls

theorem Served.mono (served : Served tokens ready w x) (begins : .begin w ∈ ready → .begin w ∈ ready')
    (resumes : .resume w ∈ ready ↔ .resume w ∈ ready')
    (dismisses : .dismiss w ∈ ready → .dismiss w ∈ ready') : Served tokens ready' w x := by
  cases served with
  | absent asleep => exact .absent (resumes.not.mp asleep)
  | fresh phase asleep ready there =>
    exact .fresh phase (resumes.not.mp asleep) (begins ready) there
  | inLine phase asleep called =>
    refine .inLine phase (resumes.not.mp asleep) fun t has => ?_
    obtain ⟨token, found, calls⟩ := called t has
    exact ⟨token, found, calls.mono dismisses⟩
  | woken learns ready => exact .woken learns (resumes.mp ready)
  | ended phase => exact .ended phase

theorem Served.perm (served : Served tokens ready w x) (perm : ready.Perm ready') :
    Served tokens ready' w x :=
  served.mono perm.mem_iff.mp perm.mem_iff perm.mem_iff.mp

-- A turn can be left out that is not the one for which the wait waits.
theorem Served.drop {t : Turn} (served : Served tokens (t :: ready) w x)
    (begins : ∀ y, x = some y → y.phase = .fresh → t ≠ .begin w)
    (dismisses : ∀ y, x = some y → y.phase = .inLine → t ≠ .dismiss w)
    (resumes : ∀ y, x = some y → y.learns?.isSome → t ≠ .resume w) : Served tokens ready w x := by
  have still {t' : Turn} (mem : t' ∈ t :: ready) (other : t ≠ t') : t' ∈ ready :=
    (List.mem_cons.mp mem).resolve_left (Ne.symm other)
  cases served with
  | absent asleep => exact .absent fun mem => asleep (List.mem_cons_of_mem t mem)
  | fresh phase asleep ready there =>
    exact .fresh phase (fun mem => asleep (List.mem_cons_of_mem t mem))
      (still ready (begins _ rfl phase)) there
  | inLine phase asleep called =>
    refine .inLine phase (fun mem => asleep (List.mem_cons_of_mem t mem)) fun t' has => ?_
    obtain ⟨token, found, calls⟩ := called t' has
    exact ⟨token, found, calls.mono fun ready => still ready (dismisses _ rfl phase)⟩
  | woken learns ready => exact .woken learns (still ready (resumes _ rfl learns))
  | ended phase => exact .ended phase

theorem Served.tail {t : Turn} (served : Served tokens (t :: ready) w x) (begins : t ≠ .begin w)
    (resumes : t ≠ .resume w) (dismisses : t ≠ .dismiss w) : Served tokens ready w x :=
  served.drop (fun _ _ _ => begins) (fun _ _ _ => dismisses) fun _ _ _ => resumes

theorem Served.append {ts : List Turn} (served : Served tokens ready w x) (none : .resume w ∉ ts) :
    Served tokens (ready ++ ts) w x :=
  served.mono (List.mem_append_left ts)
    (by rw [List.mem_append, or_iff_left none]) (List.mem_append_left ts)

theorem Served.addToken (served : Served tokens ready w x) (token : Token WaitId) :
    Served (tokens ++ [token]) ready w x := by
  cases served with
  | absent asleep => exact .absent asleep
  | fresh phase asleep begins there =>
    refine .fresh phase asleep begins fun t has => ?_
    rw [List.length_append]
    exact (there t has).trans_le (Nat.le_add_right ..)
  | inLine phase asleep called =>
    refine .inLine phase asleep fun t has => ?_
    obtain ⟨token, found, calls⟩ := called t has
    have inside := (List.getElem?_eq_some_iff.mp found).1
    exact ⟨token, (List.getElem?_append_left inside).trans found, calls⟩
  | woken learns resumes => exact .woken learns resumes
  | ended phase => exact .ended phase

-- A token that has asked or will ask for a dismissal goes on to do so.
def Faithful (f : Token WaitId → Token WaitId × List WaitId) (w : WaitId) : Prop :=
  ∀ token ready, Calls token ready w → Calls (f token).1 (ready ++ (f token).2.map .dismiss) w

@[simp] theorem wait?_onToken (l : Loop α) (t : Nat) (f : Token WaitId → Token WaitId × List WaitId)
    (w : WaitId) : (l.onToken t f).wait? w = l.wait? w := by
  rw [wait?, channel_onToken, wait?]

theorem Served.onToken {f : Token WaitId → Token WaitId × List WaitId}
    (served : Served l.tokens l.ready w (l.wait? w)) (t : Nat) (faithful : Faithful f w) :
    Served (l.onToken t f).tokens (l.onToken t f).ready w ((l.onToken t f).wait? w) := by
  rw [wait?_onToken]
  generalize l.wait? w = x at served
  unfold Loop.onToken
  cases changed : l.token? t with
  | none => exact served
  | some token =>
    dsimp only
    have asleep (before : .resume w ∉ l.ready) :
        .resume w ∉ l.ready ++ (f token).2.map .dismiss := by simp [before]
    cases served with
    | absent before => exact .absent (asleep before)
    | fresh phase before begins there =>
      refine .fresh phase (asleep before) (List.mem_append_left _ begins) ?_
      simpa only [List.length_set] using there
    | inLine phase before called =>
      refine .inLine phase (asleep before) fun t' has => ?_
      obtain ⟨token', found, calls⟩ := called t' has
      by_cases here : t = t'
      · subst here
        obtain rfl : token = token' := Option.some.inj (changed.symm.trans found)
        have inside := (List.getElem?_eq_some_iff.mp found).1
        exact ⟨(f token).1, List.getElem?_set_self inside, faithful token l.ready calls⟩
      · refine ⟨token', (List.getElem?_set_ne here).trans found, ?_⟩
        exact calls.mono (List.mem_append_left _)
    | woken learns resumes => exact .woken learns (List.mem_append_left _ resumes)
    | ended phase => exact .ended phase

theorem faithful_register (w w' : WaitId) : Faithful (·.register w') w := by
  intro token ready
  cases fired : token.fired <;> simp +contextual [Calls, Token.register, fired]

theorem faithful_cancel (w : WaitId) : Faithful Token.cancel w := by
  intro token ready
  cases fired : token.fired <;> simp +contextual [Calls, Token.cancel, fired]

theorem faithful_elapse (w : WaitId) : Faithful Token.elapse w := by
  intro token ready calls
  unfold Token.elapse
  split
  · exact faithful_cancel w token ready calls
  · exact calls.mono (List.mem_append_left _)

theorem faithful_cancelAfter (w : WaitId) (delay : Except Fault Number.Binary64) :
    Faithful (fun token => ((token.cancelAfter delay).1, [])) w := by
  intro token ready
  cases fired : token.fired <;> cases delay <;> simp [Calls, Token.cancelAfter, fired]

theorem faithful_unregister {w w' : WaitId} (other : w ≠ w') :
    Faithful (fun token => (token.unregister w', [])) w := by
  intro token ready
  cases fired : token.fired <;> simp [Calls, Token.unregister, fired, List.mem_erase_of_ne other]

theorem resume_mem_onChannel (l : Loop α) (n : Nat) (f : Channel α → Channel α) (w : WaitId) :
    .resume w ∈ (l.onChannel n f).ready ↔ .resume w ∈ l.ready ∨ n = w.channel ∧
      (f (l.channel n)).isWoken w.number ∧ (l.channel n).isWoken w.number = false := by
  obtain ⟨m, k⟩ := w
  simp only [onChannel, List.mem_append, List.mem_map, Turn.resume.injEq, WaitId.mk.injEq,
    mem_newlyWoken]
  grind

theorem mem_onChannel {t : Turn} (ready : t ∈ l.ready) (n : Nat) (f : Channel α → Channel α) :
    t ∈ (l.onChannel n f).ready :=
  List.mem_append_left _ ready

theorem isSome_learns?_doom (x : Wait α) :
    ({ x with doomed := true } : Wait α).learns?.isSome = x.learns?.isSome := by
  obtain ⟨token, phase, generation, doomed⟩ := x
  cases phase <;> cases doomed <;> rfl

theorem Served.doom {x : Wait α} (served : Served tokens ready w (some x)) :
    Served tokens ready w (some { x with doomed := true }) := by
  cases served with
  | fresh phase asleep begins there => exact .fresh phase asleep begins there
  | inLine phase asleep called => exact .inLine phase asleep called
  | woken learns resumes => exact .woken ((isSome_learns?_doom x).trans learns) resumes
  | ended phase => exact .ended phase

-- An operation on a channel tells those whom it wakes.
theorem Served.onChannel (served : Served l.tokens l.ready w (l.wait? w)) (n : Nat) (op : Operation α)
    (old : ∀ token, op = .start token → n = w.channel → w.number ≠ (l.channel n).waits.length)
    (later : ∀ fired, op = .begin w.number fired → n ≠ w.channel) :
    Served l.tokens (l.onChannel n (·.apply op)).ready w ((l.onChannel n (·.apply op)).wait? w) := by
  have same (unwoken : n = w.channel → ((l.channel n).apply op).isWoken w.number →
      (l.channel n).isWoken w.number) :
      Served l.tokens (l.onChannel n (·.apply op)).ready w (l.wait? w) := by
    refine served.mono (mem_onChannel · ..) ?_ (mem_onChannel · ..)
    rw [resume_mem_onChannel, or_iff_left]
    rintro ⟨here, woken, before⟩
    rw [unwoken here woken] at before
    cases before
  by_cases here : n = w.channel
  · subst here
    have after : (l.onChannel w.channel (·.apply op)).wait? w =
        ((l.channel w.channel).apply op).wait? w.number :=
      congrArg (Channel.wait? · w.number) ((channel_onChannel ..).trans (if_pos rfl))
    rw [after]
    have fares := fares_apply (l.channel w.channel) w.number op
    generalize becomes : ((l.channel w.channel).apply op).wait? w.number = y at fares
    have wakes {x y' : Wait α} (found : l.wait? w = some x) (inLine : x.phase = .inLine)
        (is : y = some y') (learns : y'.learns?.isSome) :
        Served l.tokens (l.onChannel w.channel (·.apply op)).ready w (some y') := by
      refine .woken learns ((resume_mem_onChannel ..).mpr (.inr ⟨rfl, ?_, ?_⟩))
      · exact isWoken_iff.mpr ⟨y', becomes.trans is, learns⟩
      · rw [Bool.eq_false_iff, ne_eq, isWoken_iff]
        rintro ⟨x', found', learns'⟩
        obtain rfl : x = x' := Option.some.inj (found.symm.trans found')
        simp [Wait.learns?, inLine] at learns'
    cases fares with
    | same => exact same fun _ woken => (isWoken_congr becomes).symm.trans woken
    | start new => exact absurd new (old _ rfl rfl)
    | fail => exact absurd rfl (later _ rfl)
    | take => exact absurd rfl (later _ rfl)
    | enter => exact absurd rfl (later _ rfl)
    | @hand x v found inLine first =>
      exact wakes found inLine rfl (by cases x.doomed <;> simp [Wait.learns?])
    | learn found learns => exact .ended rfl
    | @dismiss x found inLine =>
      exact wakes found inLine rfl (by cases x.doomed <;> simp [Wait.learns?])
    | drop found inLine => exact wakes found inLine rfl rfl
    | @doom x found =>
      have there : l.wait? w = some x := found
      have kept := same fun _ woken => by
        obtain ⟨y, after, learns⟩ := isWoken_iff.mp woken
        obtain rfl := Option.some.inj (becomes.symm.trans after)
        exact isWoken_iff.mpr ⟨x, found, (isSome_learns?_doom x).symm.trans learns⟩
      rw [there] at kept
      exact kept.doom
    | @close x found inLine =>
      exact wakes found inLine rfl (by cases x.doomed <;> simp [Wait.learns?])
  · have after : (l.onChannel n (·.apply op)).wait? w = l.wait? w :=
      congrArg (Channel.wait? · w.number) ((channel_onChannel ..).trans (if_neg (Ne.symm here)))
    rw [after]
    exact same fun same => absurd same here

theorem tokenOf_eq (l : Loop α) (w : WaitId) : l.tokenOf w = (l.wait? w).bind (·.token) := rfl

theorem ready_onChannel_begin (l : Loop α) (w : WaitId) (fired : Bool) :
    (l.onChannel w.channel (·.begin w.number fired)).ready = l.ready := by
  simp [onChannel, newlyWoken_begin]

-- A wait that stands in line with a token is registered there.
theorem beginWait_cases (l : Loop α) (w : WaitId) :
    let begun := l.onChannel w.channel (·.begin w.number ((l.tokenOf w).any l.hasFired))
    (∀ t, l.tokenOf w = some t → (begun.channel w.channel).isInLine w.number = false) ∧
        l.beginWait w = begun ∨
      ∃ t, l.tokenOf w = some t ∧ (begun.channel w.channel).isInLine w.number ∧
        l.beginWait w = begun.onToken t (·.register w) := by
  intro begun
  unfold beginWait
  dsimp only
  cases token : l.tokenOf w with
  | none => exact .inl ⟨nofun, by simp only [begun, token]⟩
  | some t =>
    simp only [begun, token]
    split
    case isTrue inLine => exact .inr ⟨t, rfl, inLine, rfl⟩
    case isFalse outside => exact .inl ⟨fun _ _ => Bool.eq_false_iff.mpr outside, rfl⟩

-- What the registration of a wait that begins leaves to all that are served.
theorem Served.registered {w' : WaitId} {begun : Loop α}
    (is : begun = l.onChannel w'.channel (·.begin w'.number ((l.tokenOf w').any l.hasFired)))
    (served : Served begun.tokens begun.ready w (begun.wait? w)) :
    Served (l.beginWait w').tokens (l.beginWait w').ready w ((l.beginWait w').wait? w) := by
  subst is
  obtain ⟨-, same⟩ | ⟨t, -, -, registers⟩ := l.beginWait_cases w'
  · rw [same]
    exact served
  · rw [registers]
    exact served.onToken t (faithful_register w w')

theorem Served.beginWait_of_ne {w' : WaitId} (served : Served l.tokens l.ready w (l.wait? w))
    (other : w' ≠ w) :
    Served (l.beginWait w').tokens (l.beginWait w').ready w ((l.beginWait w').wait? w) := by
  refine .registered rfl (served.onChannel w'.channel (.begin w'.number _) nofun ?_)
  intro fired same here
  obtain ⟨channel, number⟩ := w'
  obtain ⟨rfl, -⟩ := Operation.begin.inj same
  subst here
  exact other rfl

theorem wait?_onChannel (l : Loop α) (w : WaitId) (f : Channel α → Channel α) :
    (l.onChannel w.channel f).wait? w = (f (l.channel w.channel)).wait? w.number :=
  congrArg (Channel.wait? · w.number) ((channel_onChannel ..).trans (if_pos rfl))

theorem onToken_of_token? {t : Nat} {token : Token WaitId} (found : l.token? t = some token)
    (f : Token WaitId → Token WaitId × List WaitId) : l.onToken t f =
      { l with tokens := l.tokens.set t (f token).1, ready := l.ready ++ (f token).2.map .dismiss } := by
  simp only [Loop.onToken, found]

-- A wait that begins and finds nothing has its token call for it.
theorem served_register {x : Wait α} {t : Nat} (phase : x.phase = .inLine)
    (asleep : .resume w ∉ l.ready) (has : x.token = some t) (there : t < l.tokens.length)
    (unfired : l.hasFired t = false) :
    Served (l.onToken t (·.register w)).tokens (l.onToken t (·.register w)).ready w (some x) := by
  have found : l.token? t = some l.tokens[t] := List.getElem?_eq_getElem there
  have waits : l.tokens[t].fired = false := by simpa [hasFired, found] using unfired
  rw [onToken_of_token? found]
  refine .inLine phase (by simpa [Token.register, waits] using asleep) fun t' has' => ?_
  obtain rfl : t = t' := Option.some.inj (has.symm.trans has')
  refine ⟨_, List.getElem?_set_self there, ?_⟩
  simp [Calls, Token.register, waits]

theorem served_beginWait (served : Served l.tokens (.begin w :: l.ready) w (l.wait? w)) :
    Served (l.beginWait w).tokens (l.beginWait w).ready w ((l.beginWait w).wait? w) := by
  have cases := l.beginWait_cases w
  have fares := fares_begin (l.channel w.channel) w.number ((l.tokenOf w).any l.hasFired)
  rw [← wait?_onChannel l w (·.begin w.number _)] at fares
  dsimp only at cases
  generalize is : l.onChannel w.channel (·.begin w.number ((l.tokenOf w).any l.hasFired)) = begun at *
  have tokens : begun.tokens = l.tokens := is ▸ rfl
  have ready : begun.ready = l.ready := is ▸ ready_onChannel_begin l w _
  generalize after : begun.wait? w = y at fares
  generalize past : (l.tokenOf w).any l.hasFired = fired at fares
  have asleep (before : .resume w ∉ Turn.begin w :: l.ready) : .resume w ∉ begun.ready := fun now =>
    before (List.mem_cons_of_mem _ (ready ▸ now))
  cases fares with
  | same notFresh =>
    refine .registered is.symm ?_
    rw [tokens, ready, after]
    exact served.drop (fun x found phase => absurd phase (notFresh _ rfl x found)) nofun nofun
  | fail => exact .registered is.symm (after ▸ .ended rfl)
  | take => exact .registered is.symm (after ▸ .ended rfl)
  | @enter x found fresh =>
    have before : l.wait? w = some x := found
    rw [before] at served
    have token : l.tokenOf w = x.token := by rw [tokenOf_eq, before]; rfl
    cases served with
    | inLine phase => rw [fresh] at phase; cases phase
    | woken learns => simp [Wait.learns?, fresh] at learns
    | ended phase => rw [fresh] at phase; cases phase
    | fresh _ before begins there =>
      obtain ⟨outside, same⟩ | ⟨t, has, -, registers⟩ := cases
      · rw [same, after]
        refine .inLine rfl (asleep before) fun t has => ?_
        have stands : (begun.channel w.channel).isInLine w.number := isInLine_iff.mpr ⟨_, after, rfl⟩
        rw [outside t (token.trans has)] at stands
        cases stands
      · rw [registers, wait?_onToken, after]
        refine served_register rfl (asleep before) (token.symm.trans has) ?_ ?_
        · exact tokens ▸ there t (token.symm.trans has)
        · rw [has] at past
          simpa [hasFired, token?, tokens] using past

-- A wait that resumes has ended then.
theorem served_resumeWait (served : Served l.tokens (.resume w :: l.ready) w (l.wait? w)) :
    Served (l.resumeWait w).tokens (l.resumeWait w).ready w ((l.resumeWait w).wait? w) := by
  have resumed : Served l.tokens (.resume w :: (l.onChannel w.channel (·.resume w.number)).ready) w
      ((l.onChannel w.channel (·.resume w.number)).wait? w) :=
    Served.onChannel (l := { l with ready := .resume w :: l.ready }) served w.channel
      (.resume w.number) nofun nofun
  have after : (l.resumeWait w).wait? w = ((l.channel w.channel).resume w.number).wait? w.number := by
    unfold resumeWait
    dsimp only
    split
    · rw [wait?_onToken, wait?_onChannel]
    · rw [wait?_onChannel]
  rw [wait?_onChannel] at resumed
  rw [after]
  generalize now : ((l.channel w.channel).resume w.number).wait? w.number = y at resumed ⊢
  cases resumed with
  | absent asleep => exact absurd List.mem_cons_self asleep
  | fresh _ asleep => exact absurd List.mem_cons_self asleep
  | inLine _ asleep => exact absurd List.mem_cons_self asleep
  | ended phase => exact .ended phase
  | woken learns =>
    rw [learns?_of_resume now] at learns
    cases learns

theorem served_dismiss (served : Served l.tokens (.dismiss w :: l.ready) w (l.wait? w)) :
    Served l.tokens (l.onChannel w.channel (·.dismiss w.number)).ready w
      ((l.onChannel w.channel (·.dismiss w.number)).wait? w) := by
  have dismissed : Served l.tokens (.dismiss w :: (l.onChannel w.channel (·.dismiss w.number)).ready) w
      ((l.onChannel w.channel (·.dismiss w.number)).wait? w) :=
    Served.onChannel (l := { l with ready := .dismiss w :: l.ready }) served w.channel
      (.dismiss w.number) nofun nofun
  refine dismissed.drop nofun (fun y after phase => ?_) nofun
  rw [wait?_onChannel] at after
  exact absurd phase (not_inLine_of_dismiss after)

theorem Served.resumeWait_of_ne {w' : WaitId} (served : Served l.tokens l.ready w (l.wait? w))
    (other : w' ≠ w) :
    Served (l.resumeWait w').tokens (l.resumeWait w').ready w ((l.resumeWait w').wait? w) := by
  have resumed := served.onChannel w'.channel (.resume w'.number) nofun nofun
  unfold resumeWait
  dsimp only
  split
  · exact resumed.onToken _ (faithful_unregister (Ne.symm other))
  · exact resumed

-- What a turn preserves.
theorem served_run {t : Turn} (served : Served l.tokens (t :: l.ready) w (l.wait? w)) :
    Served (l.run t).tokens (l.run t).ready w ((l.run t).wait? w) := by
  cases t with
  | «begin» w' =>
    by_cases here : w' = w
    · subst here
      exact served_beginWait served
    · exact (served.tail (by simp [here]) nofun nofun).beginWait_of_ne here
  | resume w' =>
    by_cases here : w' = w
    · subst here
      exact served_resumeWait served
    · exact (served.tail nofun (by simp [here]) nofun).resumeWait_of_ne here
  | dismiss w' =>
    by_cases here : w' = w
    · subst here
      exact served_dismiss served
    · exact (served.tail nofun nofun (by simp [here])).onChannel _ (.dismiss w'.number) nofun nofun
  | elapse t => exact (served.tail nofun nofun nofun).onToken t (faithful_elapse w)
  | task number => exact served.tail nofun nofun nofun

theorem served_turnAt (served : Served l.tokens l.ready w (l.wait? w)) (position : Nat) :
    Served (l.turnAt position).tokens (l.turnAt position).ready w ((l.turnAt position).wait? w) := by
  cases ready : l.ready[position]? with
  | none =>
    have same : l.turnAt position = l := by simp only [turnAt, ready]
    rwa [same]
  | some t =>
    have does : l.turnAt position = { l with ready := l.ready.eraseIdx position }.run t := by
      simp only [turnAt, ready]
    rw [does]
    obtain ⟨inside, rfl⟩ := List.getElem?_eq_some_iff.mp ready
    exact served_run (l := { l with ready := l.ready.eraseIdx position })
      (served.perm (List.getElem_cons_eraseIdx_perm inside).symm)

-- A wait that is started, and is about to begin.
theorem served_start {n : Nat} {t : Option Nat} (served : Served l.tokens l.ready w (l.wait? w))
    (there : ∀ t', t = some t' → t' < l.tokens.length) :
    Served l.tokens (.begin ⟨n, (l.channel n).waits.length⟩ :: (l.onChannel n (·.start t)).ready) w
      ((l.onChannel n (·.start t)).wait? w) := by
  by_cases new : w = ⟨n, (l.channel n).waits.length⟩
  · subst new
    have before : l.wait? ⟨n, (l.channel n).waits.length⟩ = none :=
      List.getElem?_eq_none (Nat.le_refl _)
    have after : ((l.channel n).start t).wait? (l.channel n).waits.length = some { token := t } :=
      (wait?_start ..).trans (if_pos rfl)
    have unwoken := isWoken_of_fresh after rfl
    rw [wait?_onChannel l ⟨n, _⟩ (·.start t), after]
    rw [before] at served
    cases served with
    | absent asleep =>
      refine .fresh rfl (fun mem => asleep ?_) List.mem_cons_self there
      have mem := (List.mem_cons.mp mem).resolve_left nofun
      obtain old | ⟨-, woken, -⟩ := (resume_mem_onChannel ..).mp mem
      · exact old
      · rw [unwoken] at woken
        cases woken
  · have old (here : n = w.channel) : w.number ≠ (l.channel n).waits.length := by
      rintro same
      exact new (by rw [← same, here])
    have started : Served l.tokens (l.onChannel n (·.start t)).ready w
        ((l.onChannel n (·.start t)).wait? w) :=
      served.onChannel n (.start t) (fun _ _ => old) nofun
    exact started.mono (List.mem_cons_of_mem _) (by simp) (List.mem_cons_of_mem _)

-- Whether a wait that is asked for is given a token that is there.
def Action.namesToken (l : Loop α) : Action α → Bool
  | .start _ (some t) | .waitNow _ (some t) => t < l.tokens.length
  | _ => true

def namesTokens (l : Loop α) : List (Action α) → Bool
  | [] => true
  | a :: acts => a.namesToken l && namesTokens (l.act a) acts

-- What an action preserves.
theorem served_act {a : Action α} (names : a.namesToken l)
    (served : Served l.tokens l.ready w (l.wait? w)) :
    Served (l.act a).tokens (l.act a).ready w ((l.act a).wait? w) := by
  have there {t : Option Nat} (n : Nat) (is : a = .start n t ∨ a = .waitNow n t) (t' : Nat)
      (has : t = some t') : t' < l.tokens.length := by
    subst has
    obtain rfl | rfl := is <;> exact of_decide_eq_true names
  cases a with
  | publish n v => exact served.onChannel n (.publish v) nofun nofun
  | start n t =>
    have started := served_start (n := n) served (there n (.inl rfl))
    exact started.perm (List.perm_append_singleton ..).symm
  | waitNow n t =>
    exact served_run (t := .begin _) (served_start (n := n) served (there n (.inr rfl)))
  | addToken fired => exact served.addToken _
  | cancel t => exact served.onToken t (faithful_cancel w)
  | cancelAfter t delay => exact served.onToken t (faithful_cancelAfter w delay)
  | ripen => exact served.append (by simp)
  | abandon w' => exact served.onChannel _ (.abandon w'.number) nofun nofun
  | reset n => exact served.onChannel n .reset nofun nofun
  | turn position => exact served_turnAt served position

-- What a whole run preserves.
theorem served_play {acts : List (Action α)} (names : namesTokens l acts)
    (served : Served l.tokens l.ready w (l.wait? w)) :
    Served (l.play acts).tokens (l.play acts).ready w ((l.play acts).wait? w) := by
  induction acts generalizing l with
  | nil => exact served
  | cons a acts ih =>
    obtain ⟨first, rest⟩ := Bool.and_eq_true_iff.mp names
    exact ih rest (served_act first served)

-- Once there is nothing left to do, who has not ended stands in line, with a token that has not fired.
theorem Served.exists_ending {y : Wait α} (served : Served tokens [] w (some y))
    (fired : ∃ t token, y.token = some t ∧ tokens[t]? = some token ∧ token.fired) :
    ∃ e, y.phase = .ended e := by
  cases served with
  | fresh _ _ begins => cases begins
  | inLine _ _ called =>
    obtain ⟨t, token, has, found, fires⟩ := fired
    obtain ⟨token', found', calls⟩ := called t has
    obtain rfl : token = token' := Option.some.inj (found.symm.trans found')
    rw [Calls, if_pos fires] at calls
    cases calls
  | woken _ resumes => cases resumes
  | ended phase => exact ⟨_, phase⟩

end

end Loop

end HubContract
