import HubContract.Reconnect
import Mathlib.Order.Bounds.Basic

namespace HubContract.ReconnectPolicy

open HubContract.Number

variable {p : ReconnectPolicy} {t u : BackoffTier} {ts : List BackoffTier} {attempt : Int} {room n : Nat}

-- The attempts of the `i`-th tier and of those in front of it.
def attemptsThrough (p : ReconnectPolicy) (i : Nat) : Nat := totalAttempts ⟨p.tiers.take (i + 1)⟩

-- The tier that an attempt falls to: the first through which there are more attempts than come before it.
def FallsTo (p : ReconnectPolicy) (attempt : Int) (t : BackoffTier) : Prop :=
  ∃ i, IsLeast {j | attempt < p.attemptsThrough j} i ∧ p.tiers[i]? = some t

-- The `i`-th tier has more attempts than a list can count, or more than there is room for behind the tiers
-- in front and `n` further entries.
def Exceeds (room n : Nat) (p : ReconnectPolicy) (i : Nat) : Prop :=
  ∃ t, p.tiers[i]? = some t ∧ (maxCount < t.attempts ∨ room < n + p.attemptsThrough i)

-- How it fails if the delays of a tier cannot be listed.
def faultOf (t : BackoffTier) : Fault := if maxCount < t.attempts then .overflow else .memory

-- One delay for each attempt, whether there is room for them or not.
def schedule (p : ReconnectPolicy) : List Binary64 :=
  p.tiers.flatMap fun t => List.replicate t.attempts t.delay

theorem totalAttempts_cons (t : BackoffTier) (ts : List BackoffTier) :
    totalAttempts ⟨t :: ts⟩ = t.attempts + totalAttempts ⟨ts⟩ := rfl

theorem attemptsThrough_zero (t : BackoffTier) (ts : List BackoffTier) :
    attemptsThrough ⟨t :: ts⟩ 0 = t.attempts := rfl

theorem attemptsThrough_succ (t : BackoffTier) (ts : List BackoffTier) (i : Nat) :
    attemptsThrough ⟨t :: ts⟩ (i + 1) = t.attempts + attemptsThrough ⟨ts⟩ i := rfl

theorem schedule_cons (t : BackoffTier) (ts : List BackoffTier) :
    schedule ⟨t :: ts⟩ = List.replicate t.attempts t.delay ++ schedule ⟨ts⟩ := rfl

theorem length_schedule (p : ReconnectPolicy) : p.schedule.length = p.totalAttempts := by
  obtain ⟨ts⟩ := p
  induction ts with
  | nil => rfl
  | cons t ts ih => rw [schedule_cons, List.length_append, List.length_replicate, ih, totalAttempts_cons]

-- Whether the delays can be listed: the first tier decides, or those behind it with the room that it leaves.

theorem exceeds_zero : Exceeds room n ⟨t :: ts⟩ 0 ↔ maxCount < t.attempts ∨ room < n + t.attempts := by
  simp [Exceeds, attemptsThrough_zero]

theorem exceeds_succ {i : Nat} :
    Exceeds room n ⟨t :: ts⟩ (i + 1) ↔ Exceeds room (n + t.attempts) ⟨ts⟩ i := by
  simp [Exceeds, attemptsThrough_succ, Nat.add_assoc]

theorem extend_eq_ok {delays : List Binary64} (fits : ¬Exceeds room delays.length ⟨t :: ts⟩ 0) :
    extend room delays t = .ok (delays ++ List.replicate t.attempts t.delay) := by
  obtain ⟨counted, held⟩ := not_or.mp (mt exceeds_zero.mpr fits)
  rw [extend, if_neg counted, if_neg held]

theorem extend_eq_error {delays : List Binary64} (exceeds : Exceeds room delays.length ⟨t :: ts⟩ 0) :
    extend room delays t = .error (faultOf t) := by
  unfold extend faultOf
  split
  case isTrue => rfl
  case isFalse counted => rw [if_pos ((exceeds_zero.mp exceeds).resolve_left counted)]

theorem foldlM_extend (room : Nat) (ts : List BackoffTier) (delays : List Binary64) :
    (∀ i, ¬Exceeds room delays.length ⟨ts⟩ i) ∧
        ts.foldlM (extend room) delays = .ok (delays ++ schedule ⟨ts⟩) ∨
      ∃ i t, IsLeast {j | Exceeds room delays.length ⟨ts⟩ j} i ∧ ts[i]? = some t ∧
        ts.foldlM (extend room) delays = .error (faultOf t) := by
  induction ts generalizing delays with
  | nil =>
    refine .inl ⟨fun i ⟨t, found, _⟩ => by simp at found, ?_⟩
    rw [schedule, List.flatMap_nil, List.append_nil]
    rfl
  | cons t ts ih =>
    rw [List.foldlM_cons]
    by_cases first : Exceeds room delays.length ⟨t :: ts⟩ 0
    · refine .inr ⟨0, t, ⟨first, fun _ _ => Nat.zero_le _⟩, rfl, ?_⟩
      rw [extend_eq_error first]
      rfl
    · -- what is listed by then takes the room of the first tier
      have kept : (delays ++ List.replicate t.attempts t.delay).length = delays.length + t.attempts := by
        rw [List.length_append, List.length_replicate]
      have rest := ih (delays ++ List.replicate t.attempts t.delay)
      rw [kept] at rest
      rw [extend_eq_ok first]
      obtain ⟨fits, run⟩ | ⟨i, u, ⟨exceeds, least⟩, found, run⟩ := rest
      · refine .inl ⟨fun i => ?_, by rw [schedule_cons, ← List.append_assoc]; exact run⟩
        cases i with
        | zero => exact first
        | succ i => exact mt exceeds_succ.mp (fits i)
      · refine .inr ⟨i + 1, u, ⟨exceeds_succ.mpr exceeds, fun j more => ?_⟩, found, run⟩
        cases j with
        | zero => exact absurd more first
        | succ j => exact Nat.succ_le_succ (least (exceeds_succ.mp more))

-- What the first tier does with an attempt: it is waited for as that says, or handed on.

theorem getElem?_schedule_cons (begun : 0 ≤ attempt) : (schedule ⟨t :: ts⟩)[attempt.toNat]? =
    if attempt < t.attempts then some t.delay else (schedule ⟨ts⟩)[(attempt - t.attempts).toNat]? := by
  rw [schedule_cons]
  split
  case isTrue first =>
    rw [List.getElem?_append_left (by simpa using by omega), List.getElem?_replicate, if_pos (by omega)]
  case isFalse later =>
    rw [List.getElem?_append_right (by simpa using by omega), List.length_replicate]
    congr 1
    omega

theorem fallsTo_cons_of_lt (first : attempt < t.attempts) : FallsTo ⟨t :: ts⟩ attempt t :=
  ⟨0, ⟨first, fun _ _ => Nat.zero_le _⟩, rfl⟩

theorem fallsTo_cons_of_le (later : t.attempts ≤ attempt) (falls : FallsTo ⟨ts⟩ (attempt - t.attempts) u) :
    FallsTo ⟨t :: ts⟩ attempt u := by
  obtain ⟨i, ⟨enough, least⟩, here⟩ := falls
  have enough : attempt - t.attempts < attemptsThrough ⟨ts⟩ i := enough
  refine ⟨i + 1, ⟨?_, fun j more => ?_⟩, here⟩
  · show attempt < attemptsThrough ⟨t :: ts⟩ (i + 1)
    rw [attemptsThrough_succ]
    omega
  · have more : attempt < attemptsThrough ⟨t :: ts⟩ j := more
    cases j with
    | zero =>
      rw [attemptsThrough_zero] at more
      omega
    | succ j =>
      rw [attemptsThrough_succ] at more
      have others : attempt - t.attempts < attemptsThrough ⟨ts⟩ j := by omega
      exact Nat.succ_le_succ (least others)

theorem exists_fallsTo (begun : 0 ≤ attempt) (within : attempt < totalAttempts ⟨ts⟩) :
    ∃ t, FallsTo ⟨ts⟩ attempt t ∧ (schedule ⟨ts⟩)[attempt.toNat]? = some t.delay := by
  induction ts generalizing attempt with
  | nil => exact absurd within (Int.not_lt.mpr begun)
  | cons t ts ih =>
    rw [getElem?_schedule_cons begun]
    split
    case isTrue first => exact ⟨t, fallsTo_cons_of_lt first, rfl⟩
    case isFalse later =>
      rw [totalAttempts_cons] at within
      have handedOn : ∃ u, FallsTo ⟨ts⟩ (attempt - t.attempts) u ∧
          (schedule ⟨ts⟩)[(attempt - t.attempts).toNat]? = some u.delay := ih (by omega) (by omega)
      obtain ⟨u, falls, delay⟩ := handedOn
      exact ⟨u, fallsTo_cons_of_le (Int.not_lt.mp later) falls, delay⟩

theorem nextDelay_of_delays_eq_ok {delays : List Binary64} (listed : p.delays room = .ok delays) :
    p.nextDelay room (.int attempt) = .ok (if 0 ≤ attempt then delays[attempt.toNat]? else none) := by
  rw [nextDelay, listed]
  rfl

theorem nextDelay_of_delays_eq_error {f : Fault} (failed : p.delays room = .error f) (attempt : Data) :
    p.nextDelay room attempt = .error f := by
  rw [nextDelay, failed]
  rfl

-- As long as there is room for the delays, they are as many as the attempts, and whoever asks with a whole
-- number is answered: with what the tier says that the attempt falls to, and with nothing before the first
-- and behind the last attempt. Otherwise the first tier that is too long decides how both fail, whatever
-- attempt is asked for.
theorem nextDelay_by_tier (room : Nat) (p : ReconnectPolicy) (attempt : Int) :
    ((∀ i, ¬p.Exceeds room 0 i) ∧ (∃ delays, p.delays room = .ok delays ∧ delays.length = p.totalAttempts) ∧
      if 0 ≤ attempt ∧ attempt < p.totalAttempts then
        ∃ t, p.FallsTo attempt t ∧ p.nextDelay room (.int attempt) = .ok (some t.delay)
      else p.nextDelay room (.int attempt) = .ok none) ∨
    ∃ i t, IsLeast {j | p.Exceeds room 0 j} i ∧ p.tiers[i]? = some t ∧ p.delays room = .error (faultOf t) ∧
      p.nextDelay room (.int attempt) = .error (faultOf t) := by
  obtain ⟨fits, run⟩ | ⟨i, t, least, found, run⟩ := foldlM_extend room p.tiers []
  · refine .inl ⟨fits, ⟨p.schedule, run, length_schedule p⟩, ?_⟩
    have answer : p.nextDelay room (.int attempt) =
        .ok (if 0 ≤ attempt then p.schedule[attempt.toNat]? else none) := nextDelay_of_delays_eq_ok run
    rw [answer]
    split
    case isTrue inside =>
      obtain ⟨t, falls, delay⟩ := exists_fallsTo inside.1 inside.2
      exact ⟨t, falls, by rw [if_pos inside.1, ← delay]⟩
    case isFalse outside =>
      split
      case isTrue begun =>
        rw [List.getElem?_eq_none_iff.mpr (by rw [length_schedule]; omega)]
      case isFalse => rfl
  · exact .inr ⟨i, t, least, found, run, nextDelay_of_delays_eq_error run (.int attempt)⟩

-- A tier in the middle that has no attempts is passed by.
example (a b c : Binary64) : [-1, 0, 1, 2, 3].map (fun n => nextDelay 3 ⟨[⟨2, a⟩, ⟨0, b⟩, ⟨1, c⟩]⟩ (.int n)) =
    [.ok none, .ok (some a), .ok (some a), .ok (some c), .ok none] := rfl

-- One attempt more than a list can count, and none of them can be asked for.
theorem nextDelay_by_tier_endless :
    let p : ReconnectPolicy := ⟨[⟨9223372036854775808, .ofNat 1⟩]⟩
    p.totalAttempts = 9223372036854775808 ∧ p.delays 4294967296 = .error .overflow ∧
      p.nextDelay 4294967296 (.int (-1)) = .error .overflow ∧
      p.nextDelay 4294967296 (.int 0) = .error .overflow := by
  decide +kernel

end HubContract.ReconnectPolicy
