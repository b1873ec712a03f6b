import HubContract.Proofs.Channel.Run
import Mathlib.Algebra.BigOperators.Group.List.Basic
import Mathlib.Algebra.GroupWithZero.Nat
import Mathlib.Data.List.Perm.Subperm

namespace HubContract

variable {α : Type}

namespace Channel

variable {c c' : Channel α} {w : Nat} {y : Wait α}

theorem newlyWoken_eq_nil (no : ∀ w, c'.isWoken w → c.isWoken w) : c.newlyWoken c' = [] := by
  refine List.filter_eq_nil_iff.mpr fun w _ new => ?_
  rw [Bool.and_eq_true, Bool.not_eq_true'] at new
  rw [no w new.1] at new
  cases new.2

theorem isWoken_congr {c c' : Channel α} {w w' : Nat} (same : c'.wait? w' = c.wait? w) :
    c'.isWoken w' = c.isWoken w := by
  simp only [isWoken, phase?, same]

-- Nobody is woken but the wait that changes.
theorem Puts.eq_of_mem_newlyWoken (puts : Puts c c' w y) {w' : Nat} (new : w' ∈ c.newlyWoken c') :
    w' = w := by
  obtain ⟨-, new⟩ := List.mem_filter.mp new
  by_contra other
  have same : c'.isWoken w' = c.isWoken w' :=
    isWoken_congr ((puts w').trans (if_neg (Ne.symm other)))
  rw [same] at new
  cases woken : c.isWoken w' <;> simp [woken] at new

theorem Puts.newlyWoken_length_le (puts : Puts c c' w y) : (c.newlyWoken c').length ≤ 1 := by
  have once : (c.newlyWoken c').Nodup := List.nodup_range.filter _
  have only : c.newlyWoken c' ⊆ [w] := fun w' new =>
    List.mem_singleton.mpr (puts.eq_of_mem_newlyWoken new)
  exact (List.subperm_of_subset once only).length_le

theorem Puts.newlyWoken_of_ended {e : Ending α} (puts : Puts c c' w y) (ended : y.phase = .ended e) :
    c.newlyWoken c' = [] := by
  refine newlyWoken_eq_nil fun w' woken => ?_
  by_cases here : w = w'
  · subst here
    simp [isWoken, phase?, puts w, ended] at woken
  · rwa [isWoken_congr ((puts w').trans (if_neg here))] at woken

theorem newlyWoken_begin (c : Channel α) (w : Nat) (fired : Bool) :
    c.newlyWoken (c.begin w fired) = [] := by
  obtain ⟨-, same⟩ | ⟨x, found, -, cases⟩ := c.begin_cases w fired
  · rw [same]
    exact newlyWoken_eq_nil fun _ => id
  obtain ⟨e, -, ended⟩ | ⟨v, rest, -, taken⟩ | ⟨-, enters⟩ := cases
  · rw [ended]
    exact (puts_setPhase found _).newlyWoken_of_ended rfl
  · rw [taken]
    have puts : Puts c ({ c with items := rest }.setPhase w (.ended (.value v))) w _ :=
      puts_setPhase found _
    exact puts.newlyWoken_of_ended rfl
  · rw [enters]
    have puts : Puts c ({ c with line := c.line ++ [w] }.update w fun x =>
        { x with phase := .inLine, generation := c.generation }) w _ := puts_update found _
    refine newlyWoken_eq_nil fun w' woken => ?_
    by_cases here : w = w'
    · subst here
      simp [isWoken, phase?, puts w] at woken
    · rwa [isWoken_congr ((puts w').trans (if_neg here))] at woken

theorem newlyWoken_resume (c : Channel α) (w : Nat) : c.newlyWoken (c.resume w) = [] := by
  obtain same | ⟨x, found, cases⟩ := c.resume_cases w
  · rw [same]
    exact newlyWoken_eq_nil fun _ => id
  have ends (items : List α) (e : Ending α) :
      c.newlyWoken ({ c with line := c.line.erase w, items }.setPhase w (.ended e)) = [] := by
    have puts : Puts c ({ c with line := c.line.erase w, items }.setPhase w (.ended e)) w _ :=
      puts_setPhase found _
    exact puts.newlyWoken_of_ended rfl
  obtain ⟨v, -, -, after⟩ | ⟨v, -, -, -, after⟩ | ⟨v, -, -, -, after⟩ | ⟨e, -, -, after⟩ := cases
  · rw [after]
    exact ends c.items (.value v)
  · rw [after]
    exact ends (v :: c.items) .abandoned
  · rw [after]
    exact ends c.items .abandoned
  · rw [after]
    exact ends c.items e

theorem newlyWoken_dismiss_length_le (c : Channel α) (w : Nat) :
    (c.newlyWoken (c.dismiss w)).length ≤ 1 := by
  obtain same | ⟨x, found, -, refused⟩ := c.dismiss_cases w
  · rw [same, newlyWoken_eq_nil fun _ => id]
    exact Nat.zero_le 1
  · rw [refused]
    have puts : Puts c ({ c with line := c.line.erase w }.setPhase w (.refused .canceled)) w _ :=
      puts_setPhase found _
    exact puts.newlyWoken_length_le

end Channel

-- How many turns may follow from a turn, and itself.
def Turn.weight : Turn → Nat
  | .begin _ => 3
  | .dismiss _ => 2
  | .resume _ | .elapse _ | .task _ => 1

namespace Loop

open Channel

variable {l : Loop α}

def weight (l : Loop α) : Nat :=
  (l.ready.map Turn.weight).sum + (l.tokens.map fun t => 2 * t.callbacks.length).sum

theorem weight_onChannel (l : Loop α) (n : Nat) (f : Channel α → Channel α) :
    (l.onChannel n f).weight = l.weight + ((l.channel n).newlyWoken (f (l.channel n))).length := by
  simp [weight, onChannel, Turn.weight, Function.comp_def]
  omega

-- Callbacks that are called are no longer held.
theorem weight_onToken (l : Loop α) (t : Nat) (f : Token WaitId → Token WaitId × List WaitId)
    {k : Nat} (more : ∀ token, (f token).1.callbacks.length + (f token).2.length ≤
      token.callbacks.length + k) : (l.onToken t f).weight ≤ l.weight + 2 * k := by
  unfold onToken
  cases there : l.token? t with
  | none => exact Nat.le_add_right ..
  | some token =>
    obtain ⟨inside, same⟩ := List.getElem?_eq_some_iff.mp there
    have total (token : Token WaitId) := List.sum_set (l.tokens.map fun t => 2 * t.callbacks.length) t
      (2 * token.callbacks.length)
    have before := total token
    have after := total (f token).1
    have unchanged : (l.tokens.map fun t => 2 * t.callbacks.length).set t
        (2 * token.callbacks.length) = l.tokens.map fun t => 2 * t.callbacks.length := by
      rw [← same, ← List.map_set, List.set_getElem_self]
    rw [unchanged, List.length_map, if_pos inside] at before
    rw [List.length_map, if_pos inside] at after
    have called : (((f token).2.map Turn.dismiss).map Turn.weight).sum = 2 * (f token).2.length := by
      simp [Turn.weight, Function.comp_def, Nat.mul_comm]
    have bounded := more token
    simp only [weight, List.map_append, List.sum_append, called, List.map_set]
    omega

theorem weight_beginWait (l : Loop α) (w : WaitId) : (l.beginWait w).weight ≤ l.weight + 2 := by
  have begun : (l.onChannel w.channel
      (·.begin w.number ((l.tokenOf w).any l.hasFired))).weight = l.weight := by
    rw [weight_onChannel, newlyWoken_begin]
    rfl
  unfold beginWait
  dsimp only
  cases token : l.tokenOf w with
  | none =>
    rw [token] at begun
    exact begun.le.trans (Nat.le_add_right ..)
  | some t =>
    rw [token] at begun
    dsimp only
    split
    · refine (weight_onToken _ t _ (k := 1) fun token => ?_).trans (by rw [begun])
      unfold Token.register
      split <;> simp
    · exact begun.le.trans (Nat.le_add_right ..)

theorem weight_resumeWait (l : Loop α) (w : WaitId) : (l.resumeWait w).weight ≤ l.weight := by
  have resumed : (l.onChannel w.channel (·.resume w.number)).weight = l.weight := by
    rw [weight_onChannel, newlyWoken_resume]
    rfl
  unfold resumeWait
  dsimp only
  split
  · refine (weight_onToken _ _ _ (k := 0) fun token => ?_).trans resumed.le
    simpa [Token.unregister] using List.length_erase_le
  · exact resumed.le

-- A turn weighs more than all that it makes ready.
theorem weight_run_lt (l : Loop α) (t : Turn) : (l.run t).weight < l.weight + t.weight := by
  cases t with
  | «begin» w => exact (weight_beginWait l w).trans_lt (Nat.lt_succ_self _)
  | resume w => exact (weight_resumeWait l w).trans_lt (Nat.lt_succ_self _)
  | dismiss w =>
    rw [run, weight_onChannel]
    have := newlyWoken_dismiss_length_le (l.channel w.channel) w.number
    simp only [Turn.weight]
    omega
  | elapse t =>
    refine (weight_onToken l t Token.elapse (k := 0) fun token => ?_).trans_lt (Nat.lt_succ_self _)
    unfold Token.elapse Token.cancel
    split
    · split <;> simp
    · simp
  | task number => exact Nat.lt_succ_self _

theorem weight_turn_lt (busy : l.ready ≠ []) : l.turn.weight < l.weight := by
  unfold turn
  cases ready : l.ready with
  | nil => exact absurd ready busy
  | cons t rest =>
    refine (weight_run_lt _ t).trans_eq ?_
    simp only [weight, ready, List.map_cons, List.sum_cons]
    omega

theorem ready_turns {k : Nat} (enough : l.weight ≤ k) : (turns k l).ready = [] := by
  induction k generalizing l with
  | zero =>
    rw [turns]
    by_contra busy
    have := weight_turn_lt busy
    omega
  | succ k ih =>
    unfold turns
    split
    case isTrue idle => exact List.isEmpty_iff.mp idle
    case isFalse busy =>
      have := weight_turn_lt fun idle => busy (List.isEmpty_iff.mpr idle)
      exact ih (by omega)

theorem weight_le_bound (l : Loop α) : l.weight ≤ l.bound := by
  have ready (ts : List Turn) : (ts.map Turn.weight).sum ≤ 3 * ts.length := by
    induction ts with
    | nil => exact Nat.zero_le _
    | cons t ts ih =>
      have : t.weight ≤ 3 := by cases t <;> simp [Turn.weight]
      simp only [List.map_cons, List.sum_cons, List.length_cons]
      omega
  have callbacks (ts : List (Token WaitId)) : (ts.map fun t => 2 * t.callbacks.length).sum ≤
      3 * ts.foldr (fun t n => t.callbacks.length + 1 + n) 0 := by
    induction ts with
    | nil => exact Nat.zero_le _
    | cons t ts ih =>
      simp only [List.map_cons, List.sum_cons, List.foldr_cons]
      omega
  have := ready l.ready
  have := callbacks l.tokens
  unfold weight bound
  omega

-- Nothing is left to do in the end.
theorem ready_settle (l : Loop α) : l.settle.ready = [] := ready_turns (weight_le_bound _)

theorem turn_of_idle (idle : l.ready.isEmpty) : l.turn = l := by
  unfold turn
  rw [List.isEmpty_iff.mp idle]

theorem turns_of_idle (idle : l.ready.isEmpty) (k : Nat) : turns k l = l := by
  cases k with
  | zero => rfl
  | succ k => exact if_pos idle

theorem turns_eq_play (k : Nat) (l : Loop α) : turns k l = l.play (.replicate k (.turn 0)) := by
  induction k generalizing l with
  | zero => rfl
  | succ k ih =>
    have first : l.play (.replicate (k + 1) (.turn 0)) = l.turn.play (.replicate k (.turn 0)) := by
      rw [← turnAt_zero]
      rfl
    rw [turns, first, ← ih]
    split
    case isTrue idle => rw [turn_of_idle idle, turns_of_idle idle]
    case isFalse => rfl

-- To take all turns is a run like others, which asks for nothing from outside.
def leftovers (l : Loop α) : List (Action α) := .ripen :: .replicate l.ripen.bound (.turn 0)

theorem settle_eq_play (l : Loop α) : l.settle = l.play l.leftovers := turns_eq_play ..

end Loop

end HubContract
