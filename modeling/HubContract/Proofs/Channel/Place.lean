import HubContract.Proofs.Channel.Fate
import Mathlib.Data.List.Induction
import Mathlib.Data.List.Nodup

namespace HubContract

variable {α : Type}

namespace Channel

inductive Place where
  | returned (wait : Nat)
  | handed (wait : Nat)
  | buffered (position : Nat)
  deriving DecidableEq, Repr

def at? (c : Channel α) : Place → Option α
  | .returned w =>
    match c.phase? w with
    | some (.ended (.value v)) => some v
    | _ => none
  | .handed w =>
    match c.phase? w with
    | some (.handed v) => some v
    | _ => none
  | .buffered i => c.items[i]?

variable {c : Channel α} {w : Nat} {x : Wait α} {v : α}

theorem value?_eq_some_iff : x.value? = some v ↔ x.phase = .handed v ∨ x.phase = .ended (.value v) := by
  unfold Wait.value? Phase.value?
  cases x.phase with
  | ended e => cases e <;> simp
  | fresh | inLine | handed u | refused failure | dropped => simp

theorem at?_returned_iff :
    c.at? (.returned w) = some v ↔ ∃ x, c.wait? w = some x ∧ x.phase = .ended (.value v) := by
  simp only [at?, phase?]
  cases c.wait? w with
  | none => simp
  | some x =>
    cases phase : x.phase with
    | ended e => cases e <;> simp [phase]
    | fresh | inLine | handed u | refused failure | dropped => simp [phase]

theorem at?_handed_iff :
    c.at? (.handed w) = some v ↔ ∃ x, c.wait? w = some x ∧ x.phase = .handed v := by
  simp only [at?, phase?]
  cases c.wait? w with
  | none => simp
  | some x => cases phase : x.phase <;> simp [phase]

theorem exists_at? (held : v ∈ c.contents) : ∃ p, c.at? p = some v := by
  obtain buffered | given := List.mem_append.mp held
  · obtain ⟨i, found⟩ := List.mem_iff_getElem?.mp buffered
    exact ⟨.buffered i, found⟩
  · obtain ⟨x, inside, value⟩ := List.mem_filterMap.mp given
    obtain ⟨w, found⟩ := List.mem_iff_getElem?.mp inside
    obtain handed | returned := value?_eq_some_iff.mp value
    · exact ⟨.handed w, at?_handed_iff.mpr ⟨x, found, handed⟩⟩
    · exact ⟨.returned w, at?_returned_iff.mpr ⟨x, found, returned⟩⟩

-- Two waits with one value are one wait.
theorem wait_unique {ws : List (Wait α)} (distinct : (values ws).Nodup) {i j : Nat} {y : Wait α}
    (first : ws[i]? = some x) (firstValue : x.value? = some v)
    (second : ws[j]? = some y) (secondValue : y.value? = some v) : i = j := by
  have apart := List.pairwise_filterMap.mp distinct
  rw [List.pairwise_iff_getElem] at apart
  obtain ⟨hi, rfl⟩ := List.getElem?_eq_some_iff.mp first
  obtain ⟨hj, rfl⟩ := List.getElem?_eq_some_iff.mp second
  obtain before | same | after := Nat.lt_trichotomy i j
  · exact absurd rfl (apart i j hi hj before v firstValue v secondValue)
  · exact same
  · exact absurd rfl (apart j i hj hi after v secondValue v firstValue)

-- The wait of a place, with the value in its hands.
theorem wait_of_at? {p : Place} (held : c.at? p = some v) :
    (∃ i, p = .buffered i ∧ c.items[i]? = some v) ∨
      ∃ w x, (p = .returned w ∧ x.phase = .ended (.value v) ∨ p = .handed w ∧ x.phase = .handed v) ∧
        c.wait? w = some x ∧ x.value? = some v := by
  cases p with
  | returned w =>
    obtain ⟨x, found, phase⟩ := at?_returned_iff.mp held
    exact .inr ⟨w, x, .inl ⟨rfl, phase⟩, found, value?_eq_some_iff.mpr (.inr phase)⟩
  | handed w =>
    obtain ⟨x, found, phase⟩ := at?_handed_iff.mp held
    exact .inr ⟨w, x, .inr ⟨rfl, phase⟩, found, value?_eq_some_iff.mpr (.inl phase)⟩
  | buffered i => exact .inl ⟨i, rfl, held⟩

theorem at?_inj (distinct : c.contents.Nodup) {p p' : Place} (held : c.at? p = some v)
    (held' : c.at? p' = some v) : p = p' := by
  obtain ⟨items, given, apart⟩ := List.nodup_append.mp distinct
  have elsewhere {i w : Nat} {x : Wait α} (buffered : c.items[i]? = some v)
      (found : c.wait? w = some x) (value : x.value? = some v) : False :=
    apart v (List.mem_of_getElem? buffered) v
      (List.mem_filterMap.mpr ⟨x, List.mem_of_getElem? found, value⟩) rfl
  obtain ⟨i, rfl, buffered⟩ | ⟨w, x, place, found, value⟩ := wait_of_at? held <;>
    obtain ⟨j, rfl, buffered'⟩ | ⟨w', x', place', found', value'⟩ := wait_of_at? held'
  · have inside := (List.getElem?_eq_some_iff.mp buffered).1
    rw [(List.getElem?_inj inside items).mp (buffered.trans buffered'.symm)]
  · exact (elsewhere buffered found' value').elim
  · exact (elsewhere buffered' found value).elim
  · obtain rfl := wait_unique given found value found' value'
    rw [found] at found'
    obtain rfl := Option.some.inj found'
    obtain ⟨rfl, phase⟩ | ⟨rfl, phase⟩ := place <;> obtain ⟨rfl, phase'⟩ | ⟨rfl, phase'⟩ := place'
    · rfl
    · rw [phase] at phase'
      cases phase'
    · rw [phase] at phase'
      cases phase'
    · rfl

end Channel

namespace Loop

open Channel

variable (n : Nat)

-- What was published on a channel since its last reset, one action later.
def remember (since : List α) : Action α → List α
  | .publish m v => if n = m then since ++ [v] else since
  | .reset m => if n = m then [] else since
  | _ => since

theorem foldl_remember_effects (l : Loop α) (since : List α) (a : Action α) :
    (l.effects n a).foldl Channel.remember since = remember n since a := by
  cases a with
  | publish m v | start m t | waitNow m t | abandon w | reset m =>
    simp only [effects, remember]
    split <;> rfl
  | turn position =>
    simp only [effects, remember]
    cases l.ready[position]? with
    | none => rfl
    | some t =>
      cases t with
      | «begin» w | resume w | dismiss w =>
        simp only [Option.map_some, Option.getD_some, turnEffects]
        split <;> rfl
      | elapse t | task number => rfl
  | addToken fired | cancel t | cancelAfter t delay | ripen => rfl

-- What was published on a channel since its last reset.
def published (acts : List (Action α)) : List α := acts.foldl (remember n) []

theorem published_concat (acts : List (Action α)) (a : Action α) :
    published n (acts ++ [a]) = remember n (published n acts) a := by
  simp [published]

theorem mem_published_stamp {acts : List (Action α)} {i : Nat} {v : α}
    (publication : acts[i]? = some (.publish n v)) (current : ∀ j, i < j → acts[j]? ≠ some (.reset n)) :
    (i, v) ∈ published n (stamp acts) := by
  induction acts using List.reverseRecOn with
  | nil => simp at publication
  | append_singleton acts a ih =>
    rw [stamp_concat, published_concat]
    obtain before | rfl | after := Nat.lt_trichotomy i acts.length
    · rw [List.getElem?_append_left before] at publication
      have inside := ih publication fun j later => by
        by_cases old : j < acts.length
        · simpa [List.getElem?_append_left old] using current j later
        · simp [List.getElem?_eq_none (Nat.le_of_not_lt old)]
      have last : a ≠ .reset n := by simpa using current acts.length before
      cases a with
      | publish m u =>
        simp only [Action.map, remember]
        split
        · exact List.mem_append_left _ inside
        · exact inside
      | reset m =>
        have other : n ≠ m := fun same => last (same ▸ rfl)
        simpa [Action.map, remember, other] using inside
      | start | waitNow | addToken | cancel | cancelAfter | ripen | abandon | turn => exact inside
    · obtain rfl : a = .publish n v := by simpa using publication
      simp [Action.map, remember]
    · have beyond : (acts ++ [a]).length ≤ i := by
        rw [List.length_append]
        exact after
      rw [List.getElem?_eq_none beyond] at publication
      cases publication

-- What one action preserves.
theorem custody_act {time : Nat} {since : List (Nat × α)} {l : Loop (Nat × α)}
    (custody : Custody time since (l.channel n)) (a : Action α) :
    Custody (time + 1) (remember n since (a.map (Prod.mk time)))
      ((l.act (a.map (Prod.mk time))).channel n) := by
  rw [channel_act, ← foldl_remember_effects n l]
  by_cases publication : ∃ u, a = .publish n u
  · obtain ⟨u, rfl⟩ := publication
    have effect : l.effects n ((Action.publish n u).map (Prod.mk time)) = [.publish (time, u)] := by
      simp [effects, Action.map]
    rw [effect]
    exact custody.publish u
  · refine (custody.run fun op does v published => publication ?_).later
    subst published
    have same := (of_mem_effects l n does).1 v rfl
    cases a with
    | publish m u =>
      obtain ⟨rfl, -⟩ := Action.publish.inj same
      exact ⟨u, rfl⟩
    | start | waitNow | addToken | cancel | cancelAfter | ripen | abandon | reset | turn => cases same

-- What a whole run preserves.
theorem custody_play (acts : List (Action α)) :
    Custody acts.length (published n (stamp acts)) ((play {} (stamp acts)).channel n) := by
  induction acts using List.reverseRecOn with
  | nil =>
    refine ⟨List.nodup_nil, ?_, ?_, ?_⟩
    · intro v held
      cases held
    · intro v recent
      cases recent
    · intro w x found
      cases found
  | append_singleton acts a ih =>
    rw [stamp_concat, published_concat, play_concat, List.length_append]
    exact custody_act n ih a

theorem ending?_play {l : Loop α} {w : Nat} {e : Ending α} (finished : (l.channel n).ending? w = some e)
    (acts : List (Action α)) : ((l.play acts).channel n).ending? w = some e := by
  induction acts generalizing l with
  | nil => exact finished
  | cons a acts ih =>
    have next : ((l.act a).channel n).ending? w = some e := by
      rw [channel_act]
      exact ending?_run finished _
    exact ih next

-- Values are told apart by the time of their publication. No two waits ever return the same one, and
-- one published since the last reset is in one place at any time.
theorem one_place_for_each (acts : List (Action α)) (n : Nat) :
    (play {} (stamp acts)).map Prod.snd = play {} acts ∧
    (∀ k k' w w' v, ((play {} ((stamp acts).take k)).channel n).ending? w = some (.value v) →
      ((play {} ((stamp acts).take k')).channel n).ending? w' = some (.value v) → w = w') ∧
    ∀ i v, acts[i]? = some (.publish n v) → (∀ j, i < j → acts[j]? ≠ some (.reset n)) →
      ∃! p, ((play {} (stamp acts)).channel n).at? p = some (i, v) := by
  have custody := custody_play n acts
  refine ⟨map_play_stamp acts, fun k k' w w' v finished finished' => ?_, fun i v publication current => ?_⟩
  · have final (k w : Nat)
        (finished : ((play {} ((stamp acts).take k)).channel n).ending? w = some (.value v)) :
        ((play {} (stamp acts)).channel n).at? (.returned w) = some v := by
      have later := ending?_play n finished ((stamp acts).drop k)
      rw [← play_append, List.take_append_drop] at later
      exact at?_returned_iff.mpr (ending?_iff.mp later)
    exact Place.returned.inj (at?_inj custody.nodup (final k w finished) (final k' w' finished'))
  · have held := custody.kept _ (mem_published_stamp n publication current)
    obtain ⟨p, place⟩ := exists_at? held
    exact ⟨p, place, fun p' place' => at?_inj custody.nodup place' place⟩

-- A wait whose task is cancelled after a value was handed to it puts the value back.
theorem one_place_for_each_putBack :
    let acts : List (Action Nat) := [.waitNow 0 none, .publish 0 7, .abandon ⟨0, 0⟩, .turn 0]
    acts[1]? = some (.publish 0 7) ∧ (∀ j, 1 < j → acts[j]? ≠ some (.reset 0)) ∧
      ((play {} (stamp (acts.take 3))).channel 0).at? (.handed 0) = some (1, 7) ∧
      ((play {} (stamp acts)).channel 0).at? (.buffered 0) = some (1, 7) ∧
      ∃! p, ((play {} (stamp acts)).channel 0).at? p = some (1, 7) := by
  intro acts
  have publication : acts[1]? = some (.publish 0 7) := rfl
  have current (j : Nat) (_ : 1 < j) : acts[j]? ≠ some (.reset 0) := by
    intro same
    have inside := List.mem_of_getElem? same
    simp [acts] at inside
  exact ⟨publication, current, by decide, by decide,
    (one_place_for_each acts 0).2.2 1 7 publication current⟩

end Loop

end HubContract
