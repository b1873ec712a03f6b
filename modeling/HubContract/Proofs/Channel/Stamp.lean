import HubContract.Proofs.Channel.Run

namespace HubContract

variable {α β : Type}

def Ending.map (f : α → β) : Ending α → Ending β
  | .value v => .value (f v)
  | .failed failure => .failed failure
  | .abandoned => .abandoned

def Phase.map (f : α → β) : Phase α → Phase β
  | .fresh => .fresh
  | .inLine => .inLine
  | .handed v => .handed (f v)
  | .refused failure => .refused failure
  | .dropped => .dropped
  | .ended e => .ended (e.map f)

def Wait.map (f : α → β) (x : Wait α) : Wait β :=
  ⟨x.token, x.phase.map f, x.generation, x.doomed⟩

namespace Channel

-- A channel that holds other values in the same places.
def map (f : α → β) (c : Channel α) : Channel β :=
  ⟨c.items.map f, c.line, c.generation, c.waits.map (Wait.map f)⟩

namespace Operation

def map (f : α → β) : Operation α → Operation β
  | .start token => .start token
  | .publish v => .publish (f v)
  | .begin w fired => .begin w fired
  | .resume w => .resume w
  | .dismiss w => .dismiss w
  | .abandon w => .abandon w
  | .reset => .reset

end Operation

variable (f : α → β) (c : Channel α) (w : Nat)

theorem wait?_map : (c.map f).wait? w = (c.wait? w).map (Wait.map f) := List.getElem?_map

theorem isInLine_map : (c.map f).isInLine w = c.isInLine w := by
  unfold isInLine phase?
  rw [wait?_map]
  cases c.wait? w with
  | none => rfl
  | some x => cases phase : x.phase <;> simp [Wait.map, Phase.map, phase]

theorem map_update {g : Wait α → Wait α} {h : Wait β → Wait β}
    (same : ∀ x, (g x).map f = h (x.map f)) : (c.update w g).map f = (c.map f).update w h := by
  have waits : (c.waits.modify w g).map (Wait.map f) = (c.waits.map (Wait.map f)).modify w h := by
    apply List.ext_getElem?
    intro i
    simp only [List.getElem?_map, List.getElem?_modify]
    by_cases here : w = i <;> cases c.waits[i]? <;> simp [here, same]
  simp only [map, update, waits]

theorem map_setPhase (p : Phase α) : (c.setPhase w p).map f = (c.map f).setPhase w (p.map f) :=
  map_update f c w fun _ => rfl

theorem map_publish (v : α) : (c.publish v).map f = (c.map f).publish (f v) := by
  have same : (!(c.map f).isInLine ·) = (!c.isInLine ·) := by
    funext w
    rw [isInLine_map]
  have line : (c.map f).line = c.line := rfl
  unfold publish
  rw [line, same]
  cases c.line.dropWhile (!c.isInLine ·) with
  | nil => simp [map]
  | cons w rest => exact map_setPhase f { c with line := rest } w (.handed v)

theorem map_begin (fired : Bool) : (c.begin w fired).map f = (c.map f).begin w fired := by
  unfold begin
  rw [wait?_map]
  cases c.wait? w with
  | none => rfl
  | some x =>
    obtain ⟨token, phase, generation, doomed⟩ := x
    cases phase with
    | fresh =>
      simp only [Option.map_some, Wait.map, Phase.map]
      split
      · exact map_setPhase ..
      · split
        · exact map_setPhase ..
        · obtain ⟨items, line, current, waits⟩ := c
          cases items with
          | nil =>
            exact map_update f ⟨[], line ++ [w], current, waits⟩ w
              (g := fun x => { x with phase := .inLine, generation := current })
              (h := fun x => { x with phase := .inLine, generation := current }) fun _ => rfl
          | cons v rest => exact map_setPhase f ⟨rest, line, current, waits⟩ w (.ended (.value v))
    | inLine | handed v | refused failure | dropped | ended e => rfl

theorem map_resume : (c.resume w).map f = (c.map f).resume w := by
  have leave (c : Channel α) (p : Phase α) : Channel.map f
      { c.setPhase w p with line := (c.setPhase w p).line.erase w } =
        { (c.map f).setPhase w (p.map f) with line := ((c.map f).setPhase w (p.map f)).line.erase w } :=
    map_setPhase f { c with line := c.line.erase w } w p
  unfold resume
  rw [wait?_map]
  cases c.wait? w with
  | none => rfl
  | some x =>
    obtain ⟨token, phase, generation, doomed⟩ := x
    cases phase with
    | handed v =>
      cases doomed with
      | false => exact leave c (.ended (.value v))
      | true =>
        have same : (c.map f).generation = c.generation := rfl
        simp only [Option.map_some, Wait.map, Phase.map, same]
        by_cases kept : generation = c.generation
        · simp only [kept, if_true]
          exact leave { c with items := v :: c.items } (.ended .abandoned)
        · simp only [kept, if_false]
          exact leave c (.ended .abandoned)
    | refused failure =>
      cases doomed with
      | false => exact leave c (.ended (.failed failure))
      | true => exact leave c (.ended .abandoned)
    | dropped => exact leave c (.ended .abandoned)
    | fresh | inLine | ended e => rfl

theorem map_dismiss : (c.dismiss w).map f = (c.map f).dismiss w := by
  unfold dismiss
  rw [isInLine_map]
  split
  · exact map_setPhase f { c with line := c.line.erase w } w _
  · rfl

theorem map_abandon : (c.abandon w).map f = (c.map f).abandon w := by
  unfold abandon phase?
  rw [wait?_map]
  cases c.wait? w with
  | none => rfl
  | some x =>
    obtain ⟨token, phase, generation, doomed⟩ := x
    cases phase with
    | inLine => exact map_setPhase ..
    | ended e => rfl
    | fresh | handed v | refused failure | dropped => exact map_update f c w fun _ => rfl

theorem map_reset : c.reset.map f = (c.map f).reset := by
  have closed (line : List Nat) (c : Channel α) :
      (line.foldl (fun c w => if c.isInLine w then c.setPhase w (.refused .closed) else c) c).map f =
        line.foldl (fun c w => if c.isInLine w then c.setPhase w (.refused .closed) else c)
          (c.map f) := by
    induction line generalizing c with
    | nil => rfl
    | cons w line ih =>
      rw [List.foldl_cons, List.foldl_cons, ih, isInLine_map]
      congr 1
      split
      · exact map_setPhase f c w (.refused .closed)
      · rfl
  exact congrArg (fun c' => { c' with items := [], line := [], generation := c.generation + 1 })
    (closed c.line c)

theorem map_apply (op : Operation α) : (c.apply op).map f = (c.map f).apply (op.map f) := by
  cases op with
  | start token => simp [apply, start, map, Operation.map, Wait.map, Phase.map]
  | publish v => exact map_publish f c v
  | begin w fired => exact map_begin f c w fired
  | resume w => exact map_resume f c w
  | dismiss w => exact map_dismiss f c w
  | abandon w => exact map_abandon f c w
  | reset => exact map_reset f c

theorem isWoken_map : (c.map f).isWoken w = c.isWoken w := by
  unfold isWoken phase?
  rw [wait?_map]
  cases c.wait? w with
  | none => rfl
  | some x => cases phase : x.phase <;> simp [Wait.map, Phase.map, phase]

theorem newlyWoken_map (before after : Channel α) :
    (before.map f).newlyWoken (after.map f) = before.newlyWoken after := by
  have length : (after.map f).waits.length = after.waits.length := List.length_map ..
  unfold newlyWoken
  simp only [length, isWoken_map]

end Channel

namespace Loop

-- A loop whose channels hold other values in the same places.
def map (f : α → β) (l : Loop α) : Loop β := ⟨fun n => (l.channel n).map f, l.tokens, l.ready⟩

namespace Action

def map (f : α → β) : Action α → Action β
  | .publish n v => .publish n (f v)
  | .start n t => .start n t
  | .waitNow n t => .waitNow n t
  | .addToken fired => .addToken fired
  | .cancel t => .cancel t
  | .cancelAfter t delay => .cancelAfter t delay
  | .ripen => .ripen
  | .abandon w => .abandon w
  | .reset n => .reset n
  | .turn position => .turn position

end Action

variable (f : α → β) (l : Loop α)

theorem map_onChannel (n : Nat) (op : Channel.Operation α) :
    (l.onChannel n (·.apply op)).map f = (l.map f).onChannel n (·.apply (op.map f)) := by
  have woken : ((l.channel n).map f).newlyWoken (((l.channel n).map f).apply (op.map f)) =
      (l.channel n).newlyWoken ((l.channel n).apply op) := by
    rw [← Channel.map_apply]
    exact Channel.newlyWoken_map ..
  unfold onChannel map
  dsimp only
  rw [woken]
  congr 1
  funext m
  by_cases here : m = n
  · simp only [if_pos here]
    exact Channel.map_apply f (l.channel n) op
  · simp only [if_neg here]

theorem map_onToken (t : Nat) (g : Token WaitId → Token WaitId × List WaitId) :
    (l.onToken t g).map f = (l.map f).onToken t g := by
  have tokens : (l.map f).token? t = l.token? t := rfl
  unfold onToken
  rw [tokens]
  cases l.token? t <;> rfl

theorem tokenOf_map (w : WaitId) : (l.map f).tokenOf w = l.tokenOf w := by
  unfold tokenOf map
  dsimp only
  rw [Channel.wait?_map]
  cases (l.channel w.channel).wait? w.number <;> rfl

theorem map_beginWait (w : WaitId) : (l.beginWait w).map f = (l.map f).beginWait w := by
  have begun : (l.onChannel w.channel (·.begin w.number ((l.tokenOf w).any l.hasFired))).map f =
      (l.map f).onChannel w.channel (·.begin w.number ((l.tokenOf w).any l.hasFired)) :=
    map_onChannel f l _ (.begin w.number _)
  have fired : (l.map f).hasFired = l.hasFired := rfl
  unfold beginWait
  rw [tokenOf_map, fired]
  cases token : l.tokenOf w with
  | none =>
    rw [token] at begun
    exact begun
  | some t =>
    rw [token] at begun
    dsimp only
    rw [← begun]
    have inLine (l : Loop α) : ((l.map f).channel w.channel).isInLine w.number =
        (l.channel w.channel).isInLine w.number := Channel.isInLine_map ..
    rw [inLine]
    split
    · exact map_onToken ..
    · rfl

theorem map_resumeWait (w : WaitId) : (l.resumeWait w).map f = (l.map f).resumeWait w := by
  have resumed : (l.onChannel w.channel (·.resume w.number)).map f =
      (l.map f).onChannel w.channel (·.resume w.number) :=
    map_onChannel f l _ (.resume w.number)
  unfold resumeWait
  dsimp only
  rw [← resumed, tokenOf_map]
  split
  · exact map_onToken ..
  · rfl

theorem map_run (t : Turn) : (l.run t).map f = (l.map f).run t := by
  cases t with
  | «begin» w => exact map_beginWait f l w
  | resume w => exact map_resumeWait f l w
  | dismiss w => exact map_onChannel f l _ (.dismiss w.number)
  | elapse t => exact map_onToken f l t _
  | task number => rfl

theorem map_act (a : Action α) : (l.act a).map f = (l.map f).act (a.map f) := by
  cases a with
  | publish n v => exact map_onChannel f l n (.publish v)
  | start n t =>
    have started : (l.onChannel n (·.start t)).map f = (l.map f).onChannel n (·.start t) :=
      map_onChannel f l n (.start t)
    have length : ((l.map f).channel n).waits.length = (l.channel n).waits.length :=
      List.length_map ..
    rw [Action.map, act, act, start, start]
    dsimp only
    rw [← started, length]
    rfl
  | waitNow n t =>
    have started : (l.onChannel n (·.start t)).map f = (l.map f).onChannel n (·.start t) :=
      map_onChannel f l n (.start t)
    have length : ((l.map f).channel n).waits.length = (l.channel n).waits.length :=
      List.length_map ..
    rw [Action.map, act, act, waitNow, waitNow]
    dsimp only
    rw [map_beginWait, ← started, length]
  | addToken fired | ripen => rfl
  | cancel t => exact map_onToken f l t _
  | cancelAfter t delay => exact map_onToken f l t _
  | abandon w => exact map_onChannel f l _ (.abandon w.number)
  | reset n => exact map_onChannel f l n .reset
  | turn position =>
    have ready : (l.map f).ready = l.ready := rfl
    rw [act, turnAt, Action.map, act, turnAt, ready]
    cases l.ready[position]? with
    | none => rfl
    | some t => exact map_run f { l with ready := l.ready.eraseIdx position } t

theorem map_play (acts : List (Action α)) :
    (l.play acts).map f = (l.map f).play (acts.map (Action.map f)) := by
  induction acts generalizing l with
  | nil => rfl
  | cons a acts ih =>
    have step := ih (l.act a)
    rw [map_act] at step
    exact step

-- Every value gets the time of its publication, which is the number of actions before it.
def stamp (acts : List (Action α)) : List (Action (Nat × α)) :=
  acts.mapIdx fun time a => a.map (Prod.mk time)

theorem stamp_concat (acts : List (Action α)) (a : Action α) :
    stamp (acts ++ [a]) = stamp acts ++ [a.map (Prod.mk acts.length)] := List.mapIdx_concat

-- Without the stamps this is the run of the bare values.
theorem map_play_stamp (acts : List (Action α)) :
    (play {} (stamp acts)).map Prod.snd = play {} acts := by
  have bare : (stamp acts).map (Action.map Prod.snd) = acts := by
    apply List.ext_getElem?
    intro i
    simp only [stamp, List.getElem?_map, List.getElem?_mapIdx, Option.map_map]
    cases acts[i]? with
    | none => rfl
    | some a => cases a <;> rfl
  rw [map_play, bare]
  rfl

end Loop

end HubContract
