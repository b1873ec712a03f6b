import HubContract.Channel.Loop
import HubContract.Proofs.Channel.Operation

namespace HubContract.Loop

open HubContract.Number HubContract.Channel

variable {α : Type}

inductive Action (α : Type) where
  | publish (channel : Nat) (value : α)
  -- a task that is to wait
  | start (channel : Nat) (token : Option Nat)
  -- a task that is under way begins to wait
  | waitNow (channel : Nat) (token : Option Nat)
  | addToken (fired : Bool)
  | cancel (token : Nat)
  | cancelAfter (token : Nat) (delay : Except Fault Binary64)
  | ripen
  -- the task of a wait is cancelled
  | abandon (wait : WaitId)
  | reset (channel : Nat)
  -- do what is ready at a position
  | turn (position : Nat)

-- Do what is ready at a position.
def turnAt (l : Loop α) (position : Nat) : Loop α :=
  match l.ready[position]? with
  | none => l
  | some t => { l with ready := l.ready.eraseIdx position }.run t

-- In order this is the turn of the loop.
theorem turnAt_zero (l : Loop α) : l.turnAt 0 = l.turn := by
  unfold turnAt turn
  cases ready : l.ready with
  | nil => rfl
  | cons t rest => rfl

def act (l : Loop α) : Action α → Loop α
  | .publish n v => l.publish n v
  | .start n t => (l.start n t).2
  | .waitNow n t => (l.waitNow n t).2
  | .addToken fired => (l.addToken { fired }).2
  | .cancel t => l.cancel t
  | .cancelAfter t delay => (l.cancelAfter t delay).2
  | .ripen => l.ripen
  | .abandon w => l.abandon w
  | .reset n => l.reset n
  | .turn position => l.turnAt position

-- The loop after actions in turn.
def play (l : Loop α) (acts : List (Action α)) : Loop α := acts.foldl act l

theorem play_append (l : Loop α) (acts acts' : List (Action α)) :
    l.play (acts ++ acts') = (l.play acts).play acts' := List.foldl_append

theorem play_concat (l : Loop α) (acts : List (Action α)) (a : Action α) :
    l.play (acts ++ [a]) = (l.play acts).act a := by
  rw [play_append]
  rfl

section

variable (l : Loop α) (n : Nat)

theorem channel_onChannel (m : Nat) (f : Channel α → Channel α) :
    (l.onChannel m f).channel n = if n = m then f (l.channel n) else l.channel n := by
  by_cases same : n = m
  · subst same
    rfl
  · simp [onChannel, same]

@[simp] theorem channel_onToken (t : Nat) (f : Token WaitId → Token WaitId × List WaitId) :
    (l.onToken t f).channel = l.channel := by
  unfold onToken
  cases l.token? t <;> rfl

theorem channel_beginWait (w : WaitId) :
    (l.beginWait w).channel n =
      if n = w.channel then (l.channel n).begin w.number ((l.tokenOf w).any l.hasFired)
      else l.channel n := by
  unfold beginWait
  cases l.tokenOf w with
  | none => exact channel_onChannel ..
  | some t =>
    dsimp only
    split
    · rw [channel_onToken]
      exact channel_onChannel ..
    · exact channel_onChannel ..

theorem channel_resumeWait (w : WaitId) :
    (l.resumeWait w).channel n =
      if n = w.channel then (l.channel n).resume w.number else l.channel n := by
  unfold resumeWait
  dsimp only
  split
  · rw [channel_onToken]
    exact channel_onChannel ..
  · exact channel_onChannel ..

-- A wait that has just been started has the token that it was given.
theorem tokenOf_onChannel_start (token : Option Nat) :
    (l.onChannel n (·.start token)).tokenOf ⟨n, (l.channel n).waits.length⟩ = token := by
  simp [tokenOf, channel_onChannel, Channel.start, wait?]

-- What a turn does with a channel.
def turnEffects : Turn → List (Operation α)
  | .begin w =>
    if n = w.channel then [.begin w.number ((l.tokenOf w).any l.hasFired)] else []
  | .resume w => if n = w.channel then [.resume w.number] else []
  | .dismiss w => if n = w.channel then [.dismiss w.number] else []
  | .elapse _ | .task _ => []

-- What an action does with a channel.
def effects : Action α → List (Operation α)
  | .publish m v => if n = m then [.publish v] else []
  | .start m t => if n = m then [.start t] else []
  | .waitNow m t =>
    if n = m then [.start t, .begin (l.channel n).waits.length (t.any l.hasFired)] else []
  | .abandon w => if n = w.channel then [.abandon w.number] else []
  | .reset m => if n = m then [.reset] else []
  | .turn position => (l.ready[position]?.map (l.turnEffects n)).getD []
  | .addToken _ | .cancel _ | .cancelAfter .. | .ripen => []

theorem channel_run (t : Turn) : (l.run t).channel n = (l.channel n).run (l.turnEffects n t) := by
  cases t with
  | «begin» w =>
    rw [Loop.run, channel_beginWait, turnEffects]
    split <;> rfl
  | resume w =>
    rw [Loop.run, channel_resumeWait, turnEffects]
    split <;> rfl
  | dismiss w =>
    rw [Loop.run, channel_onChannel, turnEffects]
    split <;> rfl
  | elapse t =>
    rw [Loop.run, channel_onToken]
    rfl
  | task number => rfl

theorem channel_act (a : Action α) :
    (l.act a).channel n = (l.channel n).run (l.effects n a) := by
  cases a with
  | publish m v =>
    rw [act, Loop.publish, channel_onChannel, effects]
    split <;> rfl
  | start m t =>
    rw [effects]
    refine (channel_onChannel l n m (·.start t)).trans ?_
    split <;> rfl
  | waitNow m t =>
    rw [act, waitNow, channel_beginWait, effects, channel_onChannel]
    split
    case isTrue same =>
      subst same
      rw [tokenOf_onChannel_start]
      rfl
    case isFalse => rfl
  | abandon w =>
    rw [act, Loop.abandon, channel_onChannel, effects]
    split <;> rfl
  | reset m =>
    rw [act, Loop.reset, channel_onChannel, effects]
    split <;> rfl
  | turn position =>
    rw [act, turnAt, effects]
    cases l.ready[position]? with
    | none => rfl
    | some t => exact channel_run { l with ready := l.ready.eraseIdx position } n t
  | cancel t | cancelAfter t delay =>
    refine (congrFun (channel_onToken ..) n).trans ?_
    rfl
  | addToken fired | ripen => rfl

-- All that has an operation done with a channel.
inductive Asks : Action α → Operation α → Prop where
  | publish (v : α) : Asks (.publish n v) (.publish v)
  | start (token : Option Nat) : Asks (.start n token) (.start token)
  -- a task that is under way starts a wait and begins it at once
  | startNow (token : Option Nat) : Asks (.waitNow n token) (.start token)
  | beginNow (token : Option Nat) :
      Asks (.waitNow n token) (.begin (l.channel n).waits.length (token.any l.hasFired))
  | abandon (w : Nat) : Asks (.abandon ⟨n, w⟩) (.abandon w)
  | reset : Asks (.reset n) .reset
  | begin (position w : Nat) :
      Asks (.turn position) (.begin w ((l.tokenOf ⟨n, w⟩).any l.hasFired))
  | resume (position w : Nat) : Asks (.turn position) (.resume w)
  | dismiss (position w : Nat) : Asks (.turn position) (.dismiss w)

theorem asks_of_mem_effects {op : Operation α} {a : Action α} (does : op ∈ l.effects n a) :
    l.Asks n a op := by
  cases a with
  | publish m v | start m t | reset m =>
    simp only [effects] at does
    split at does
    case isTrue same =>
      subst same
      obtain rfl := List.mem_singleton.mp does
      constructor
    case isFalse => cases does
  | waitNow m t =>
    simp only [effects] at does
    split at does
    case isTrue same =>
      subst same
      obtain rfl | later := List.mem_cons.mp does
      · exact .startNow t
      · obtain rfl := List.mem_singleton.mp later
        exact .beginNow t
    case isFalse => cases does
  | abandon w =>
    simp only [effects] at does
    split at does
    case isTrue same =>
      subst same
      obtain rfl := List.mem_singleton.mp does
      exact .abandon w.number
    case isFalse => cases does
  | turn position =>
    simp only [effects] at does
    cases ready : l.ready[position]? with
    | none => simp [ready] at does
    | some t =>
      cases t with
      | «begin» w | resume w | dismiss w =>
        simp only [ready, Option.map_some, Option.getD_some, turnEffects] at does
        split at does
        case isTrue same =>
          subst same
          obtain rfl := List.mem_singleton.mp does
          constructor
        case isFalse => cases does
      | elapse t | task number => simp [ready, turnEffects] at does
  | addToken fired | cancel t | cancelAfter t delay | ripen => cases does

-- What is done with a channel was asked for there.
theorem of_mem_effects {op : Operation α} {a : Action α} (does : op ∈ l.effects n a) :
    (∀ v, op = .publish v → a = .publish n v) ∧ (∀ w, op = .abandon w → a = .abandon ⟨n, w⟩) ∧
      (op = .reset → a = .reset n) := by
  cases l.asks_of_mem_effects n does <;> simp

-- An action does at most one thing that is more than starting a wait.
theorem effects_cases (a : Action α) :
    l.effects n a = [] ∨ (∃ op, l.effects n a = [op]) ∨
      ∃ t w fired, l.effects n a = [.start t, .begin w fired] := by
  cases a with
  | publish m v | start m t | abandon w | reset m =>
    simp only [effects]
    split
    · exact .inr (.inl ⟨_, rfl⟩)
    · exact .inl rfl
  | waitNow m t =>
    simp only [effects]
    split
    · exact .inr (.inr ⟨t, _, _, rfl⟩)
    · exact .inl rfl
  | turn position =>
    simp only [effects]
    cases l.ready[position]? with
    | none => exact .inl rfl
    | some t =>
      cases t with
      | «begin» w | resume w | dismiss w =>
        simp only [Option.map_some, Option.getD_some, turnEffects]
        split
        · exact .inr (.inl ⟨_, rfl⟩)
        · exact .inl rfl
      | elapse t | task number => exact .inl rfl
  | addToken fired | cancel t | cancelAfter t delay | ripen => exact .inl rfl

end

-- What a run does with a channel.
def history (n : Nat) (l : Loop α) : List (Action α) → List (Operation α)
  | [] => []
  | a :: acts => l.effects n a ++ history n (l.act a) acts

theorem channel_play (n : Nat) (l : Loop α) (acts : List (Action α)) :
    (l.play acts).channel n = (l.channel n).run (history n l acts) := by
  induction acts generalizing l with
  | nil => rfl
  | cons a acts ih =>
    have rest := ih (l.act a)
    rw [channel_act] at rest
    rw [history, Channel.run_append]
    exact rest

theorem mem_of_mem_history {n : Nat} {l : Loop α} {acts : List (Action α)} {op : Operation α}
    (does : op ∈ history n l acts) : (∀ w, op = .abandon w → .abandon ⟨n, w⟩ ∈ acts) ∧
      (op = .reset → .reset n ∈ acts) := by
  induction acts generalizing l with
  | nil => cases does
  | cons a acts ih =>
    obtain now | later := List.mem_append.mp does
    · obtain ⟨-, abandons, resets⟩ := of_mem_effects l n now
      exact ⟨fun w same => abandons w same ▸ List.mem_cons_self,
        fun same => resets same ▸ List.mem_cons_self⟩
    · exact ⟨fun w same => List.mem_cons_of_mem _ ((ih later).1 w same),
        fun same => List.mem_cons_of_mem _ ((ih later).2 same)⟩

end HubContract.Loop
