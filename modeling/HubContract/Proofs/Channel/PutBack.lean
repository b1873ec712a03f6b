import HubContract.Proofs.Channel.Order
import HubContract.Proofs.Channel.Place
import Mathlib.Data.List.Perm.Subperm

namespace HubContract

variable {α : Type}

def Wait.handed? (x : Wait α) : Option α :=
  match x.phase with
  | .handed v => some v
  | _ => none

namespace Channel

-- The value in the hands of a wait that has not learned of it.
def handed? (c : Channel α) (w : Nat) : Option α := (c.wait? w).bind Wait.handed?

-- What an operation puts back into the buffer.
def putBack (c : Channel α) : Operation α → List α
  | .resume w =>
    match c.wait? w with
    | some { phase := .handed v, doomed := true, generation, .. } =>
      if generation = c.generation then [v] else []
    | _ => []
  | _ => []

-- What operations put back, in that order.
def putBacks (c : Channel α) : List (Operation α) → List α
  | [] => []
  | op :: ops => c.putBack op ++ (c.apply op).putBacks ops

-- All that an operation can mean for the buffer and for those who were handed something.
inductive Shift (c c' : Channel α) : Operation α → Prop where
  -- values leave in front, if at all
  | leave {op : Operation α} (none : c.putBack op = []) (items : c'.items <:+ c.items)
      (standing : c'.standing.Sublist c.standing)
      (handed : ∀ w v, c'.handed? w = some v → c.handed? w = some v) : Shift c c' op
  -- a wait begins and there is nothing
  | enter {w : Nat} {fired : Bool} (none : c.items = []) (items : c'.items = [])
      (handed : ∀ w v, c'.handed? w = some v → c.handed? w = some v) : Shift c c' (.begin w fired)
  -- a value that nobody wants yet
  | keep {v : α} (items : c'.items = c.items ++ [v]) (standing : c'.standing = [])
      (handed : ∀ w v, c'.handed? w = some v → c.handed? w = some v) : Shift c c' (.publish v)
  -- a value for the first in line
  | hand {v : α} (items : c'.items = c.items) (somebody : c.standing ≠ [])
      (handed : ∀ w u, c'.handed? w = some u → u = v ∨ c.handed? w = some u) :
      Shift c c' (.publish v)
  -- a value that comes back
  | back {w : Nat} {v : α} (putBack : c.putBack (.resume w) = [v]) (items : c'.items = v :: c.items)
      (standing : c'.standing = c.standing) (held : c.handed? w = some v)
      (handed : ∀ w' u, c'.handed? w' = some u → w' ≠ w ∧ c.handed? w' = some u) :
      Shift c c' (.resume w)

section

variable {c c' : Channel α} {w : Nat} {x y : Wait α} {v : α}

theorem Puts.handed? (puts : Puts c c' w y) (w' : Nat) :
    c'.handed? w' = if w = w' then y.handed? else c.handed? w' := by
  unfold Channel.handed?
  rw [puts w']
  split <;> rfl

-- Nobody is handed anything if one wait changes that is handed nothing.
theorem Puts.handed_of_none (puts : Puts c c' w y) (none : y.handed? = none) :
    ∀ w' v, c'.handed? w' = some v → w' ≠ w ∧ c.handed? w' = some v := by
  intro w' v handed
  rw [puts.handed? w'] at handed
  split at handed
  case isTrue => rw [none] at handed; cases handed
  case isFalse other => exact ⟨Ne.symm other, handed⟩

theorem Puts.handed_of_same (puts : Puts c c' w y) (same : y.handed? = c.handed? w) :
    c'.handed? = c.handed? := by
  funext w'
  rw [puts.handed? w']
  split
  case isTrue here => rw [same, here]
  case isFalse => rfl

theorem exists_wait_of_handed? (held : c.handed? w = some v) :
    ∃ x, c.wait? w = some x ∧ x.value? = some v := by
  obtain ⟨x, found, hands⟩ := Option.bind_eq_some_iff.mp held
  unfold Wait.handed? at hands
  split at hands
  case h_1 phase =>
    obtain rfl := Option.some.inj hands
    exact ⟨x, found, value?_eq_some_iff.mpr (.inl phase)⟩
  case h_2 => cases hands

theorem mem_contents_of_handed? (held : c.handed? w = some v) : v ∈ c.contents :=
  have ⟨_, found, value⟩ := exists_wait_of_handed? held
  mem_contents found value

-- No two waits have the same value in their hands.
theorem handed?_inj (distinct : c.contents.Nodup) {w w' : Nat} (held : c.handed? w = some v)
    (held' : c.handed? w' = some v) : w = w' := by
  obtain ⟨x, found, value⟩ := exists_wait_of_handed? held
  obtain ⟨y, found', value'⟩ := exists_wait_of_handed? held'
  exact wait_unique (List.nodup_append.mp distinct).2.1 found value found' value'

-- A wait that changes and neither stands in line nor is handed anything.
theorem Puts.shift {op : Operation α} (puts : Puts c c' w y) (none : c.putBack op = [])
    (items : c'.items <:+ c.items) (line : c'.line.Sublist c.line) (out : y.isInLine = false)
    (empty : y.handed? = Option.none) : Shift c c' op :=
  .leave none items (puts.standing_sublist out line) fun w' u handed =>
    (puts.handed_of_none empty w' u handed).2

theorem shift_start (c : Channel α) (token : Option Nat) :
    Shift c (c.start token) (.start token) :=
  (puts_start c token).shift rfl (List.suffix_refl _) (.refl _) rfl rfl

theorem shift_publish (c : Channel α) (v : α) : Shift c (c.publish v) (.publish v) := by
  obtain ⟨-, kept⟩ | ⟨skipped, w, rest, x, line, -, found, phase, handed⟩ := c.publish_cases v
  · rw [kept]
    exact .keep rfl rfl fun _ _ => id
  · rw [handed]
    have puts : Puts c ({ c with line := rest }.setPhase w (.handed v)) w _ := puts_setPhase found _
    have first : w ∈ c.standing := List.mem_filter.mpr
      ⟨by simp [line], isInLine_iff.mpr ⟨x, found, phase⟩⟩
    refine .hand rfl (List.ne_nil_of_mem first) fun w' u held => ?_
    rw [puts.handed? w'] at held
    split at held
    · exact .inl (Option.some.inj held).symm
    · exact .inr held

theorem shift_begin (c : Channel α) (w : Nat) (fired : Bool) :
    Shift c (c.begin w fired) (.begin w fired) := by
  obtain ⟨-, same⟩ | ⟨x, found, phase, cases⟩ := c.begin_cases w fired
  · rw [same]
    exact .leave rfl (List.suffix_refl _) (.refl _) fun _ _ => id
  obtain ⟨e, -, ended⟩ | ⟨v, rest, items, taken⟩ | ⟨items, enters⟩ := cases
  · rw [ended]
    exact (puts_setPhase found _).shift rfl (List.suffix_refl _) (.refl _) rfl rfl
  · rw [taken]
    have puts : Puts c ({ c with items := rest }.setPhase w (.ended (.value v))) w _ :=
      puts_setPhase found _
    exact puts.shift rfl (items ▸ List.suffix_cons v rest) (.refl _) rfl rfl
  · rw [enters]
    have puts : Puts c ({ c with line := c.line ++ [w] }.update w fun x =>
        { x with phase := .inLine, generation := c.generation }) w _ := puts_update found _
    exact .enter items items fun w' u handed => (puts.handed_of_none rfl w' u handed).2

-- A wait that resumes puts its value back, or it does nothing to the buffer.
theorem putBack_resume_cases (c : Channel α) (w : Nat) :
    (∃ x v, c.wait? w = some x ∧ x.phase = .handed v ∧ x.doomed = true ∧
      x.generation = c.generation ∧ c.putBack (.resume w) = [v] ∧
      c.resume w = { c with line := c.line.erase w, items := v :: c.items }.setPhase w
        (.ended .abandoned)) ∨
    c.putBack (.resume w) = [] ∧ (c.resume w = { c with line := c.line.erase w } ∨
      ∃ x e, c.wait? w = some x ∧
        c.resume w = { c with line := c.line.erase w }.setPhase w (.ended e)) := by
  simp only [resume, putBack]
  cases found : c.wait? w with
  | none => exact .inr ⟨rfl, .inl rfl⟩
  | some x =>
    obtain ⟨token, phase, generation, doomed⟩ := x
    cases phase with
    | handed v =>
      cases doomed with
      | false => exact .inr ⟨rfl, .inr ⟨_, .value v, rfl, rfl⟩⟩
      | true =>
        have after {items items' : List α} (same : items = items') :=
          congrArg (fun items => setPhase { c with line := c.line.erase w, items } w
            (.ended .abandoned)) same
        by_cases current : generation = c.generation
        · exact .inl ⟨_, v, rfl, rfl, rfl, current, if_pos current, after (if_pos current)⟩
        · exact .inr ⟨if_neg current, .inr ⟨_, .abandoned, rfl, after (if_neg current)⟩⟩
    | refused failure =>
      cases doomed with
      | false => exact .inr ⟨rfl, .inr ⟨_, .failed failure, rfl, rfl⟩⟩
      | true => exact .inr ⟨rfl, .inr ⟨_, .abandoned, rfl, rfl⟩⟩
    | dropped => exact .inr ⟨rfl, .inr ⟨_, .abandoned, rfl, rfl⟩⟩
    | fresh | inLine | ended e => exact .inr ⟨rfl, .inl rfl⟩

theorem shift_resume (c : Channel α) (w : Nat) : Shift c (c.resume w) (.resume w) := by
  have left : (c.line.erase w).Sublist c.line := List.erase_sublist
  obtain ⟨x, v, found, phase, -, -, putBack, after⟩ | ⟨none, same | ⟨x, e, found, after⟩⟩ :=
    c.putBack_resume_cases w
  · have puts : Puts c ({ c with line := c.line.erase w, items := v :: c.items }.setPhase w
        (.ended .abandoned)) w _ := puts_setPhase found _
    -- who was handed something stands in line no more, so that nobody leaves it
    have outside : c.isInLine w = false := by simp [isInLine_eq_any, found, Wait.isInLine, phase]
    have inLine := puts.isInLine_eq outside.symm
    rw [after]
    refine .back putBack rfl ?_ ?_ (puts.handed_of_none rfl)
    · calc
        (c.line.erase w).filter (isInLine _) = (c.line.erase w).filter c.isInLine := by rw [inLine]
        _ = c.standing.erase w := List.erase_filter.symm
        _ = c.standing := List.erase_of_not_mem fun inside => by
          have stands := (List.mem_filter.mp inside).2
          rw [outside] at stands
          cases stands
    · simp [Channel.handed?, found, Wait.handed?, phase]
  · rw [same]
    exact .leave none (List.suffix_refl _) (left.filter _) fun _ _ => id
  · have puts : Puts c ({ c with line := c.line.erase w }.setPhase w (.ended e)) w _ :=
      puts_setPhase found _
    rw [after]
    exact puts.shift none (List.suffix_refl _) left rfl rfl

theorem shift_dismiss (c : Channel α) (w : Nat) : Shift c (c.dismiss w) (.dismiss w) := by
  obtain same | ⟨x, found, -, refused⟩ := c.dismiss_cases w
  · rw [same]
    exact .leave rfl (List.suffix_refl _) (.refl _) fun _ _ => id
  · rw [refused]
    have puts : Puts c ({ c with line := c.line.erase w }.setPhase w (.refused .canceled)) w _ :=
      puts_setPhase found _
    exact puts.shift rfl (List.suffix_refl _) List.erase_sublist rfl rfl

theorem shift_abandon (c : Channel α) (w : Nat) : Shift c (c.abandon w) (.abandon w) := by
  obtain same | ⟨x, found, ⟨-, dropped⟩ | ⟨-, doomed⟩⟩ := c.abandon_cases w
  · rw [same]
    exact .leave rfl (List.suffix_refl _) (.refl _) fun _ _ => id
  · rw [dropped]
    exact (puts_setPhase found _).shift rfl (List.suffix_refl _) (.refl _) rfl rfl
  · rw [doomed]
    have puts := puts_update found fun x => { x with doomed := true }
    have inLine : (c.update w fun x => { x with doomed := true }).isInLine = c.isInLine :=
      puts.isInLine_eq (by rw [isInLine_eq_any, found]; rfl)
    have handed : (c.update w fun x => { x with doomed := true }).handed? = c.handed? :=
      puts.handed_of_same (by rw [handed?, found]; rfl)
    refine .leave rfl (List.suffix_refl _) ?_ fun w' u held => handed ▸ held
    rw [standing, inLine]
    exact .refl _

theorem shift_reset (c : Channel α) : Shift c c.reset .reset := by
  refine .leave rfl (List.nil_suffix ..) (List.nil_sublist _) fun w v handed => ?_
  obtain same | ⟨x, -, -, after⟩ := c.reset_cases w
  · rwa [Channel.handed?, same] at handed
  · simp [Channel.handed?, after, Wait.handed?] at handed

-- What one operation does.
theorem shift_apply (c : Channel α) : ∀ op, Shift c (c.apply op) op
  | .start token => shift_start c token
  | .publish v => shift_publish c v
  | .begin w fired => shift_begin c w fired
  | .resume w => shift_resume c w
  | .dismiss w => shift_dismiss c w
  | .abandon w => shift_abandon c w
  | .reset => shift_reset c

end

-- A buffer at a time: some of what came back, the last one first, and then what was published for
-- nobody. Values come with the time of their publication.
structure IsLaid (time : Nat) (back rear : List (Nat × α)) (c : Channel (Nat × α)) : Prop where
  items : ∃ front, front.Sublist back.reverse ∧ c.items = front ++ rear
  sorted : rear.Pairwise (·.1 < ·.1)
  idle : rear = [] ∨ c.standing = []
  -- whatever was handed over is older than what was published for nobody
  older : ∀ u, (u ∈ back ∨ ∃ w, c.handed? w = some u) → ∀ v ∈ rear, u.1 < v.1
  past : ∀ u ∈ back, u.1 < time
  -- what came back is in nobody's hands again
  once : ∀ u ∈ back, ∀ w, c.handed? w ≠ some u
  nodup : back.Nodup

section

variable {time : Nat} {back rear : List (Nat × α)} {c c' : Channel (Nat × α)}
  {op : Operation (Nat × α)}

theorem isLaid_empty : IsLaid time [] [] ({} : Channel (Nat × α)) :=
  ⟨⟨[], .refl _, rfl⟩, .nil, .inl rfl, by simp, by simp, by simp, .nil⟩

theorem IsLaid.later (laid : IsLaid time back rear c) : IsLaid (time + 1) back rear c :=
  { laid with past := fun u came => (laid.past u came).trans (Nat.lt_succ_self time) }

variable {w : Nat} {v : Nat × α} (laid : IsLaid time back rear c)

include laid

theorem IsLaid.leave (fewer : c'.items <:+ c.items) (standing : c'.standing.Sublist c.standing)
    (handed : ∀ w v, c'.handed? w = some v → c.handed? w = some v) :
    ∃ rear', IsLaid time back rear' c' := by
  obtain ⟨front, part, items⟩ := laid.items
  obtain ⟨front', rear', part', rest, kept⟩ : ∃ front' rear', front' <:+ front ∧ rear' <:+ rear ∧
      c'.items = front' ++ rear' := by
    obtain ⟨gone, left⟩ := fewer
    rw [items] at left
    obtain ⟨between, rfl, after⟩ | ⟨between, rfl, after⟩ := List.append_eq_append_iff.mp left
    · exact ⟨between, rear, List.suffix_append .., List.suffix_refl _, after⟩
    · exact ⟨[], c'.items, List.nil_suffix, ⟨between, after.symm⟩, rfl⟩
  refine ⟨rear', ⟨front', part'.sublist.trans part, kept⟩, laid.sorted.sublist rest.sublist, ?_,
    fun u handedOver v inside => ?_, laid.past, fun u came w held => ?_, laid.nodup⟩
  · refine laid.idle.imp (fun empty => ?_) fun nobody => ?_
    · exact List.suffix_nil.mp (empty ▸ rest)
    · exact List.sublist_nil.mp (nobody ▸ standing)
  · have before : u ∈ back ∨ ∃ w, c.handed? w = some u :=
      handedOver.imp_right fun ⟨w, held⟩ => ⟨w, handed w u held⟩
    exact laid.older u before v (rest.subset inside)
  · exact laid.once u came w (handed w u held)

-- Where nothing lies, nothing that was published for nobody does.
theorem IsLaid.enter (after : c'.items = [])
    (handed : ∀ w v, c'.handed? w = some v → c.handed? w = some v) : IsLaid time back [] c' :=
  ⟨⟨[], List.nil_sublist _, after⟩, .nil, .inl rfl, by simp, laid.past,
    fun u came w held => laid.once u came w (handed w u held), laid.nodup⟩

theorem IsLaid.keep (earlier : ∀ v ∈ c.contents, v.1 < time) (now : v.1 = time)
    (after : c'.items = c.items ++ [v]) (standing : c'.standing = [])
    (handed : ∀ w v, c'.handed? w = some v → c.handed? w = some v) :
    IsLaid time back (rear ++ [v]) c' := by
  obtain ⟨front, part, items⟩ := laid.items
  have inside (u : Nat × α) (mem : u ∈ rear) : u.1 < v.1 := by
    rw [now]
    exact earlier u (List.mem_append_left _ (items ▸ List.mem_append_right _ mem))
  refine ⟨⟨front, part, ?_⟩, ?_, .inr standing, fun u handedOver => ?_, laid.past,
    fun u came w held => laid.once u came w (handed w u held), laid.nodup⟩
  · rw [after, items, List.append_assoc]
  · refine List.pairwise_append.mpr ⟨laid.sorted, List.pairwise_singleton .., ?_⟩
    simpa using inside
  · have before : u ∈ back ∨ ∃ w, c.handed? w = some u :=
      handedOver.imp_right fun ⟨w, held⟩ => ⟨w, handed w u held⟩
    refine List.forall_mem_append.mpr ⟨laid.older u before, List.forall_mem_singleton.mpr ?_⟩
    rw [now]
    obtain came | ⟨w, held⟩ := before
    · exact laid.past u came
    · exact earlier u (mem_contents_of_handed? held)

-- Somebody was waiting, so nothing lies there that was published for nobody.
theorem IsLaid.hand (now : v.1 = time) (after : c'.items = c.items) (somebody : c.standing ≠ [])
    (handed : ∀ w u, c'.handed? w = some u → u = v ∨ c.handed? w = some u) :
    IsLaid time back [] c' := by
  obtain ⟨front, part, items⟩ := laid.items
  rw [laid.idle.resolve_right somebody] at items
  refine ⟨⟨front, part, after.trans items⟩, .nil, .inl rfl, by simp, laid.past,
    fun u came w held => ?_, laid.nodup⟩
  obtain rfl | before := handed w u held
  · exact (laid.past u came).ne now
  · exact laid.once u came w before

theorem IsLaid.putBack (distinct : c.contents.Nodup) (earlier : ∀ v ∈ c.contents, v.1 < time)
    (after : c'.items = v :: c.items) (standing : c'.standing = c.standing)
    (held : c.handed? w = some v)
    (handed : ∀ w' u, c'.handed? w' = some u → w' ≠ w ∧ c.handed? w' = some u) :
    IsLaid time (back ++ [v]) rear c' := by
  obtain ⟨front, part, items⟩ := laid.items
  refine ⟨⟨v :: front, ?_, ?_⟩, laid.sorted, ?_, fun u handedOver => ?_, ?_, ?_, ?_⟩
  · rw [List.reverse_append]
    exact part.cons_cons v
  · rw [after, items, List.cons_append]
  · exact laid.idle.imp_right standing.trans
  · obtain came | ⟨w', held'⟩ := handedOver
    · obtain before | last := List.mem_append.mp came
      · exact laid.older u (.inl before)
      · rw [List.mem_singleton.mp last]
        exact laid.older v (.inr ⟨w, held⟩)
    · exact laid.older u (.inr ⟨w', (handed w' u held').2⟩)
  · refine List.forall_mem_append.mpr ⟨laid.past, List.forall_mem_singleton.mpr ?_⟩
    exact earlier v (mem_contents_of_handed? held)
  · refine List.forall_mem_append.mpr ⟨fun u came w' held' => ?_, List.forall_mem_singleton.mpr ?_⟩
    · exact laid.once u came w' (handed w' u held').2
    · intro w' held'
      obtain ⟨other, held'⟩ := handed w' v held'
      exact other (handed?_inj distinct held' held)
  · refine List.nodup_append.mpr ⟨laid.nodup, List.nodup_singleton v, ?_⟩
    rintro u came v' last rfl
    rw [List.mem_singleton.mp last] at came
    exact laid.once v came w held

-- What one operation preserves.
theorem IsLaid.apply (distinct : c.contents.Nodup) (earlier : ∀ v ∈ c.contents, v.1 < time)
    (op : Operation (Nat × α)) (now : ∀ v, op = .publish v → v.1 = time) :
    ∃ rear', IsLaid time (back ++ c.putBack op) rear' (c.apply op) := by
  have same (none : c.putBack op = []) : back ++ c.putBack op = back := by
    rw [none, List.append_nil]
  cases c.shift_apply op with
  | leave none fewer standing handed =>
    rw [same none]
    exact laid.leave fewer standing handed
  | enter none after handed =>
    rw [same rfl]
    exact ⟨[], laid.enter after handed⟩
  | keep after standing handed =>
    rw [same rfl]
    exact ⟨_, laid.keep earlier (now _ rfl) after standing handed⟩
  | hand after somebody handed =>
    rw [same rfl]
    exact ⟨[], laid.hand (now _ rfl) after somebody handed⟩
  | back putBack after standing held handed =>
    rw [putBack]
    exact ⟨rear, laid.putBack distinct earlier after standing held handed⟩

end

-- All of a buffer that came back, as it was put back.
theorem IsLaid.items_eq [DecidableEq α] {time : Nat} {back rear : List (Nat × α)}
    {c : Channel (Nat × α)} (laid : IsLaid time back rear c) :
    c.items = (back.filter (· ∈ c.items)).reverse ++ rear := by
  obtain ⟨front, part, items⟩ := laid.items
  have apart (u : Nat × α) (came : u ∈ back) : u ∉ rear := fun inside =>
    Nat.lt_irrefl u.1 (laid.older u (.inl came) u inside)
  have there (u : Nat × α) (came : u ∈ back.reverse) : u ∈ c.items ↔ u ∈ front := by
    rw [items, List.mem_append, or_iff_left (apart u (List.mem_reverse.mp came))]
  have distinct : back.reverse.Nodup := List.nodup_reverse.mpr laid.nodup
  have whole : back.reverse.filter (· ∈ front) = front := by
    have within : front.Sublist (back.reverse.filter (· ∈ front)) := by
      have filtered := part.filter fun u => decide (u ∈ front)
      rwa [List.filter_eq_self.mpr (by simp)] at filtered
    refine (within.eq_of_length_le ?_).symm
    have once : (back.reverse.filter (· ∈ front)).Nodup := distinct.filter _
    have fewer := List.subperm_of_subset once fun u mem =>
      of_decide_eq_true (List.mem_filter.mp mem).2
    exact fewer.length_le
  have same : back.reverse.filter (· ∈ c.items) = front := by
    refine Eq.trans (List.filter_congr fun u came => ?_) whole
    simp only [there u came]
  rw [← List.filter_reverse, same, ← items]

end Channel

namespace Loop

open Channel

variable {n : Nat}

-- What comes back into the buffer of a channel in a run, in that order.
def putBacks (n : Nat) (l : Loop α) : List (Action α) → List α
  | [] => []
  | a :: acts => (l.channel n).putBacks (l.effects n a) ++ putBacks n (l.act a) acts

theorem putBacks_concat (l : Loop α) (acts : List (Action α)) (a : Action α) :
    putBacks n l (acts ++ [a]) =
      putBacks n l acts ++ ((l.play acts).channel n).putBacks ((l.play acts).effects n a) := by
  induction acts generalizing l with
  | nil => exact List.append_nil _
  | cons b acts ih =>
    rw [List.cons_append, putBacks, putBacks, ih, List.append_assoc]
    rfl

theorem isLaid_act {time : Nat} {since back rear : List (Nat × α)} {l : Loop (Nat × α)}
    (custody : Custody time since (l.channel n)) (laid : IsLaid time back rear (l.channel n))
    (a : Action α) :
    ∃ rear', IsLaid (time + 1)
      (back ++ (l.channel n).putBacks (l.effects n (a.map (Prod.mk time)))) rear'
      ((l.act (a.map (Prod.mk time))).channel n) := by
  have now (v : Nat × α) (does : .publish v ∈ l.effects n (a.map (Prod.mk time))) : v.1 = time := by
    have same := (of_mem_effects l n does).1 v rfl
    cases a with
    | publish m u =>
      obtain ⟨-, rfl⟩ := Action.publish.inj same
      rfl
    | start | waitNow | addToken | cancel | cancelAfter | ripen | abandon | reset | turn => cases same
  rw [channel_act]
  obtain none | ⟨op, one⟩ | ⟨t, w, fired, two⟩ := l.effects_cases n (a.map (Prod.mk time))
  · rw [none, Channel.putBacks, List.append_nil]
    exact ⟨rear, laid.later⟩
  · rw [one] at now ⊢
    obtain ⟨rear', after⟩ := laid.apply custody.nodup custody.past op fun v same =>
      now v (same ▸ List.mem_cons_self)
    rw [Channel.putBacks, Channel.putBacks, List.append_nil]
    exact ⟨rear', after.later⟩
  · rw [two]
    obtain ⟨rear₁, started⟩ := laid.apply custody.nodup custody.past (.start t) (by simp)
    have custody := custody.start t
    obtain ⟨rear₂, begun⟩ := started.apply custody.nodup custody.past (.begin w fired) (by simp)
    rw [List.append_assoc] at begun
    rw [Channel.putBacks, Channel.putBacks, Channel.putBacks, List.append_nil]
    exact ⟨rear₂, begun.later⟩

theorem isLaid_play (acts : List (Action α)) :
    ∃ rear, IsLaid acts.length (putBacks n {} (stamp acts)) rear ((play {} (stamp acts)).channel n) := by
  induction acts using List.reverseRecOn with
  | nil => exact ⟨[], isLaid_empty⟩
  | append_singleton acts a ih =>
    obtain ⟨rear, laid⟩ := ih
    rw [stamp_concat, putBacks_concat, play_concat, List.length_append]
    exact isLaid_act (custody_play n acts) laid a

-- Values are told apart by the time of their publication. A value that came back lies in front of all
-- that were published for nobody, which are in the order of their publication, and so the whole
-- buffer is in that order if and only if what came back into it came the latest first.
theorem items_sorted_iff [DecidableEq α] (acts : List (Action α)) (n : Nat) :
    (play {} (stamp acts)).map Prod.snd = play {} acts ∧
    let items := ((play {} (stamp acts)).channel n).items
    let back := (putBacks n {} (stamp acts)).filter (· ∈ items)
    (∃ rest, items = back.reverse ++ rest ∧ rest.Pairwise (·.1 < ·.1) ∧
      ∀ u ∈ putBacks n {} (stamp acts), ∀ v ∈ rest, u.1 < v.1) ∧
    (items.Pairwise (·.1 < ·.1) ↔ back.Pairwise fun u v => v.1 < u.1) := by
  obtain ⟨rest, laid⟩ := isLaid_play (n := n) acts
  have older (u : Nat × α) (came : u ∈ putBacks n {} (stamp acts)) : ∀ v ∈ rest, u.1 < v.1 :=
    laid.older u (.inl came)
  refine ⟨map_play_stamp acts, ⟨rest, laid.items_eq, laid.sorted, older⟩, ?_⟩
  constructor
  · intro sorted
    rw [laid.items_eq] at sorted
    exact List.pairwise_reverse.mp (List.pairwise_append.mp sorted).1
  · intro sorted
    rw [laid.items_eq]
    refine List.pairwise_append.mpr ⟨List.pairwise_reverse.mpr sorted, laid.sorted, ?_⟩
    intro u came v inside
    exact older u (List.mem_of_mem_filter (List.mem_reverse.mp came)) v inside

-- Waits 0 and 1 are handed 7 and 8 and their tasks are cancelled. The values come back in that order,
-- so that 7 ends up behind 8.
theorem items_sorted_iff_two :
    let acts : List (Action Nat) := [.waitNow 0 none, .waitNow 0 none, .publish 0 7, .publish 0 8,
      .abandon ⟨0, 0⟩, .abandon ⟨0, 1⟩, .turn 0, .turn 0]
    putBacks 0 {} (stamp acts) = [(2, 7), (3, 8)] ∧
      ((play {} (stamp acts)).channel 0).items = [(3, 8), (2, 7)] ∧
      ¬ ((play {} (stamp acts)).channel 0).items.Pairwise (·.1 < ·.1) := by
  decide

end Loop

end HubContract
