import HubContract.Proofs.Channel.PutBack
import Mathlib.Data.List.Induction

namespace HubContract

variable {α : Type}

namespace Channel

-- There is no value, or nobody who wants one.
def IsIdle (c : Channel α) : Prop := c.items = [] ∨ c.standing = []

-- A wait that puts its value back as soon as it resumes.
def PutsBack (c : Channel α) (w : Nat) : Prop :=
  ∃ x v, c.wait? w = some x ∧ x.phase = .handed v ∧ x.doomed = true ∧ x.generation = c.generation

variable {c c' : Channel α} {w : Nat} {op : Operation α}

theorem PutsBack.putBack_ne_nil (back : c.PutsBack w) : c.putBack (.resume w) ≠ [] := by
  obtain ⟨⟨token, phase, generation, doomed⟩, v, found, rfl, rfl, rfl⟩ := back
  simp [putBack, found]

theorem exists_putsBack (back : c.putBack op ≠ []) : ∃ w, op = .resume w ∧ c.PutsBack w := by
  cases op with
  | resume w =>
    obtain ⟨x, v, found, phase, doomed, current, -⟩ | ⟨none, -⟩ := c.putBack_resume_cases w
    · exact ⟨w, rfl, x, v, found, phase, doomed, current⟩
    · exact absurd none back
  | start | publish | «begin» | dismiss | abandon | reset => exact absurd rfl back

-- A value that comes back goes unnoticed by everyone who stands in line.
theorem Shift.isIdle_iff (shift : Shift c c' op) (back : c.putBack op ≠ []) :
    c'.IsIdle ↔ c.standing = [] := by
  cases shift with
  | leave none => exact absurd none back
  | enter | keep | hand => exact absurd rfl back
  | back _ items standing =>
    rw [IsIdle, items, standing]
    exact or_iff_right (List.cons_ne_nil _ _)

-- What one operation preserves.
theorem Shift.isIdle (shift : Shift c c' op) (idle : c.IsIdle)
    (alone : c.putBack op ≠ [] → c.standing = []) : c'.IsIdle := by
  cases shift with
  | leave _ items standing =>
    obtain none | nobody := idle
    · exact .inl (List.suffix_nil.mp (none ▸ items))
    · exact .inr (List.sublist_nil.mp (nobody ▸ standing))
  | enter _ items => exact .inl items
  | keep _ standing => exact .inr standing
  | hand items somebody => exact .inl (items.trans (idle.resolve_right somebody))
  | back putBack _ standing => exact .inr (standing.trans (alone (by simp [putBack])))

end Channel

namespace Loop

open Channel

variable {n : Nat} {acts : List (Action α)}

-- Whenever a wait of a channel puts its value back, nobody stands in line there.
def PutsBackAlone (n : Nat) (acts : List (Action α)) : Prop :=
  ∀ front a back w, acts = front ++ a :: back → .resume w ∈ (play {} front).effects n a →
    ((play {} front).channel n).PutsBack w → ((play {} front).channel n).standing = []

theorem isIdle_act {l : Loop α} {a : Action α} (idle : (l.channel n).IsIdle)
    (alone : ∀ w, .resume w ∈ l.effects n a → (l.channel n).PutsBack w → (l.channel n).standing = []) :
    ((l.act a).channel n).IsIdle := by
  rw [channel_act]
  obtain none | ⟨op, one⟩ | ⟨t, w, fired, two⟩ := l.effects_cases n a
  · rw [none]
    exact idle
  · rw [one] at alone ⊢
    refine (shift_apply _ op).isIdle idle fun back => ?_
    obtain ⟨w, rfl, puts⟩ := exists_putsBack back
    exact alone w List.mem_cons_self puts
  · rw [two]
    have started := (shift_apply _ (.start t)).isIdle idle (absurd rfl)
    exact (shift_apply _ (.begin w fired)).isIdle started (absurd rfl)

theorem isIdle_play (alone : PutsBackAlone n acts) : ((play {} acts).channel n).IsIdle := by
  induction acts using List.reverseRecOn with
  | nil => exact .inl rfl
  | append_singleton acts a ih =>
    rw [play_concat]
    refine isIdle_act (ih ?_) fun w => alone acts a [] w rfl
    rintro front b back w rfl
    exact alone front b (back ++ [a]) w (by simp)

-- At no time of a run a value lies there while someone stands in line, if and only if no wait puts its
-- value back while others stand in line.
theorem idle_throughout_iff (acts : List (Action α)) (n : Nat) :
    (∀ front back, acts = front ++ back → ((play {} front).channel n).IsIdle) ↔
      PutsBackAlone n acts := by
  constructor
  · rintro idle front a back w rfl does putsBack
    have effect : (play {} front).effects n a = [.resume w] := by
      obtain none | ⟨op, one⟩ | ⟨t, w', fired, two⟩ := (play {} front).effects_cases n a
      · rw [none] at does
        cases does
      · rw [one] at does
        rw [one, List.mem_singleton.mp does]
      · simp [two] at does
    have after : (play {} (front ++ [a])).channel n = ((play {} front).channel n).resume w := by
      rw [play_concat, channel_act, effect]
      rfl
    have idle := idle (front ++ [a]) back (by simp)
    rw [after] at idle
    exact ((shift_resume _ w).isIdle_iff putsBack.putBack_ne_nil).mp idle
  · rintro alone front back rfl
    refine isIdle_play fun front' a back' w same => ?_
    exact alone front' a (back' ++ back) w (by simp [same])

-- Wait 0 is handed the value and its task is cancelled. The value comes back, and wait 1 stands in line
-- beside it.
theorem idle_throughout_putBack :
    let acts : List (Action Nat) :=
      [.waitNow 0 none, .waitNow 0 none, .publish 0 7, .abandon ⟨0, 0⟩, .turn 0]
    ((play {} acts).channel 0).items = [7] ∧ ((play {} acts).channel 0).standing = [1] ∧
      (play {} acts).ready = [] ∧ ¬ ((play {} acts).channel 0).IsIdle := by
  intro acts
  have items : ((play {} acts).channel 0).items = [7] := by decide
  have standing : ((play {} acts).channel 0).standing = [1] := by decide
  refine ⟨items, standing, by decide, ?_⟩
  rintro (none | nobody)
  · rw [items] at none
    cases none
  · rw [standing] at nobody
    cases nobody

end Loop

end HubContract
