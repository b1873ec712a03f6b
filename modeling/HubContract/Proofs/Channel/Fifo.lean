import HubContract.Proofs.Channel.Place

namespace HubContract

variable {α β : Type}

namespace Channel

-- The waits that `after` has given a value and `before` had not.
def newlyGiven (before after : Channel α) : List (Nat × α) :=
  (List.range after.waits.length).filterMap fun w =>
    if (before.given? w).isNone then (after.given? w).map (Prod.mk w) else none

-- The waits that have begun in `after` and had not in `before`.
def newlyBegun (before after : Channel α) : List Nat :=
  (List.range after.waits.length).filter fun w => after.hasBegun w && !before.hasBegun w

-- What is new in each of the operations, one after the other.
def trace (news : Channel α → Channel α → List β) (c : Channel α) : List (Operation α) → List β
  | [] => []
  | op :: ops => news c (c.apply op) ++ trace news (c.apply op) ops

-- The waits that get values while operations are done, in that order.
def obtained (c : Channel α) (ops : List (Operation α)) : List (Nat × α) := c.trace newlyGiven ops

-- The waits that begin while operations are done, in that order.
def begun (c : Channel α) (ops : List (Operation α)) : List Nat := c.trace newlyBegun ops

section

variable {c c' : Channel α} {w : Nat} {v : α} {op : Operation α}

theorem trace_append (news : Channel α → Channel α → List β) (c : Channel α)
    (ops ops' : List (Operation α)) :
    c.trace news (ops ++ ops') = c.trace news ops ++ (c.run ops).trace news ops' := by
  induction ops generalizing c with
  | nil => rfl
  | cons op ops ih =>
    rw [List.cons_append, trace, trace, ih, List.append_assoc]
    rfl

theorem obtained_cons (c : Channel α) (op : Operation α) (ops : List (Operation α)) :
    c.obtained (op :: ops) = c.newlyGiven (c.apply op) ++ (c.apply op).obtained ops := rfl

theorem begun_cons (c : Channel α) (op : Operation α) (ops : List (Operation α)) :
    c.begun (op :: ops) = c.newlyBegun (c.apply op) ++ (c.apply op).begun ops := rfl

-- A search that hits one number only.
theorem filterMap_range_eq_singleton {f : Nat → Option β} {k : Nat} {b : β}
    (inside : w < k) (hit : f w = some b) (miss : ∀ w', w ≠ w' → f w' = none) :
    (List.range k).filterMap f = [b] := by
  induction k with
  | zero => cases inside
  | succ k ih =>
    rw [List.range_succ, List.filterMap_append]
    by_cases last : w = k
    · subst last
      have before : (List.range w).filterMap f = [] :=
        List.filterMap_eq_nil_iff.mpr fun w' earlier =>
          miss w' (Nat.ne_of_gt (List.mem_range.mp earlier))
      simp [before, hit]
    · rw [ih (by omega)]
      simp [miss k last]

theorem lt_length_of_given? (given : c.given? w = some v) : w < c.waits.length := by
  obtain ⟨x, found, -⟩ := Option.bind_eq_some_iff.mp given
  exact (List.getElem?_eq_some_iff.mp found).1

theorem lt_length_of_hasBegun (begun : c.hasBegun w) : w < c.waits.length := by
  obtain ⟨x, found, -⟩ := (Option.any_eq_true ..).mp begun
  exact (List.getElem?_eq_some_iff.mp found).1

theorem newlyGiven_eq_nil (same : c'.given? = c.given?) : c.newlyGiven c' = [] := by
  refine List.filterMap_eq_nil_iff.mpr fun w _ => ?_
  rw [same]
  cases c.given? w <;> rfl

theorem Gives.newlyGiven (gives : Gives c c' w v) : c.newlyGiven c' = [(w, v)] := by
  have given : c'.given? w = some v := by rw [gives.2 w, if_pos rfl]
  refine filterMap_range_eq_singleton (lt_length_of_given? given) ?_ fun w' other => ?_
  · simp [gives.1, given]
  · rw [gives.2 w', if_neg other]
    cases c.given? w' <;> rfl

theorem mem_newlyBegun : w ∈ c.newlyBegun c' ↔ c'.hasBegun w ∧ c.hasBegun w = false := by
  unfold newlyBegun
  rw [List.mem_filter, List.mem_range, Bool.and_eq_true, Bool.not_eq_true']
  constructor
  · exact And.right
  · intro begins
    exact ⟨lt_length_of_hasBegun begins.1, begins⟩

theorem nodup_newlyBegun : (c.newlyBegun c').Nodup := List.nodup_range.filter _

theorem newlyBegun_eq_nil (same : c'.hasBegun = c.hasBegun) : c.newlyBegun c' = [] := by
  refine List.filter_eq_nil_iff.mpr fun w _ => ?_
  rw [same]
  cases c.hasBegun w <;> simp

theorem Begins.newlyBegun (begins : Begins c c' w) : c.newlyBegun c' = [w] := by
  have begun : c'.hasBegun w = true := by rw [begins.2 w, if_pos rfl]
  unfold Channel.newlyBegun
  rw [← List.filterMap_eq_filter]
  refine filterMap_range_eq_singleton (lt_length_of_hasBegun begun) ?_ fun w' other => ?_
  · simp [Option.guard, begins.1, begun]
  · have same := begins.2 w'
    rw [if_neg other] at same
    cases known : c.hasBegun w' <;> simp [Option.guard, same, known]

theorem Move.begun_mono (move : Move c c' op) (begun : c.hasBegun w) : c'.hasBegun w := by
  have grows {w' : Nat} (begins : Begins c c' w') : c'.hasBegun w := by
    rw [begins.2 w]
    split
    · rfl
    · exact begun
  cases move with
  | fail _ _ _ begins => exact grows begins
  | take _ _ _ begins => exact grows begins
  | enter _ _ _ _ begins => exact grows begins
  | rest _ _ _ _ _ same => rwa [same]
  | keep _ _ _ _ same => rwa [same]
  | hand _ _ _ same => rwa [same]
  | reset _ _ _ same => rwa [same]

-- What was taken, with what is still there, is what was published.
theorem Move.flow (move : Move c c' op) (idle : c.items = [] ∨ c.standing = [])
    (notReset : op ≠ .reset) {taken since : List α} (all : taken ++ c.items = since) :
    taken ++ (c.newlyGiven c').map Prod.snd ++ c'.items = remember since op := by
  subst all
  cases move with
  | rest notPublish _ items _ given =>
    have same : remember (taken ++ c.items) op = taken ++ c.items := by
      cases op with
      | publish v => exact absurd rfl (notPublish v)
      | reset => exact absurd rfl notReset
      | start | «begin» | resume | dismiss | abandon => rfl
    simp [newlyGiven_eq_nil given, items, same]
  | fail items _ given => simp [newlyGiven_eq_nil given, items, remember]
  | take items _ gives => simp [gives.newlyGiven, items, remember]
  | enter none items _ given => simp [newlyGiven_eq_nil given, none, items, remember]
  | keep items _ _ given => simp [newlyGiven_eq_nil given, items, remember]
  | hand items standing gives =>
    -- someone stands in line, so there are no values that came earlier
    obtain none | nobody := idle
    · simp [gives.newlyGiven, items, none, remember]
    · rw [nobody] at standing
      cases standing
  | reset => exact absurd rfl notReset

-- Those who were served, with those who stand in line, are in the order in which they began.
theorem Move.queue (move : Move c c' op) (idle : c.items = [] ∨ c.standing = [])
    {served began : List Nat} (order : (served ++ c.standing).Sublist began) :
    (served ++ (c.newlyGiven c').map Prod.fst ++ c'.standing).Sublist
      (began ++ c.newlyBegun c') := by
  cases move with
  | rest _ _ _ standing given begun =>
    rw [newlyGiven_eq_nil given, newlyBegun_eq_nil begun, List.append_nil]
    simpa using (standing.append_left served).trans order
  | fail _ standing given begins =>
    rw [newlyGiven_eq_nil given, begins.newlyBegun, standing]
    simpa using order.trans (List.sublist_append_left ..)
  | take items standing gives begins =>
    obtain none | nobody := idle
    · rw [none] at items
      cases items
    · rw [nobody, List.append_nil] at order
      rw [gives.newlyGiven, begins.newlyBegun, standing, nobody, List.append_nil]
      exact order.append (.refl _)
  | enter _ _ standing given begins =>
    rw [newlyGiven_eq_nil given, begins.newlyBegun, standing]
    simpa using order.append (.refl [_])
  | keep _ _ standing given begun =>
    rw [newlyGiven_eq_nil given, newlyBegun_eq_nil begun, standing]
    simpa using (List.sublist_append_left ..).trans order
  | hand _ standing gives begun =>
    rw [gives.newlyGiven, newlyBegun_eq_nil begun]
    simpa using (standing.append_left served).trans order
  | reset _ standing given begun =>
    rw [newlyGiven_eq_nil given, newlyBegun_eq_nil begun, standing]
    simpa using (List.sublist_append_left ..).trans order

-- Who has begun and does not stand in line gets nothing more.
theorem Move.settled (move : Move c c' op) (begun : c.hasBegun w) (out : w ∉ c.standing) :
    c'.given? w = c.given? w ∧ w ∉ c'.standing := by
  have other {w' : Nat} (begins : Begins c c' w') : w' ≠ w := by
    rintro rfl
    have notYet := begins.1
    rw [begun] at notYet
    cases notYet
  cases move with
  | rest _ _ _ standing given => exact ⟨congrFun given w, fun inside => out (standing.subset inside)⟩
  | fail _ standing given => exact ⟨congrFun given w, standing ▸ out⟩
  | take _ standing gives begins =>
    refine ⟨?_, standing ▸ out⟩
    rw [gives.2 w, if_neg (other begins)]
  | enter _ _ standing given begins =>
    refine ⟨congrFun given w, fun inside => ?_⟩
    rw [standing] at inside
    obtain before | last := List.mem_append.mp inside
    · exact out before
    · exact other begins (List.mem_singleton.mp last).symm
  | keep _ _ standing given => exact ⟨congrFun given w, by simp [standing]⟩
  | hand _ standing gives =>
    refine ⟨?_, fun inside => out (standing.subset (List.mem_cons_of_mem _ inside))⟩
    rw [gives.2 w, if_neg]
    rintro rfl
    exact out (standing.subset List.mem_cons_self)
  | reset _ standing given => exact ⟨congrFun given w, by simp [standing]⟩

end

-- No task is cancelled.
def Undisturbed (ops : List (Operation α)) : Prop := ∀ w, .abandon w ∉ ops

section

variable {c : Channel α} {op : Operation α} {ops : List (Operation α)}

theorem Undisturbed.head (undisturbed : Undisturbed (op :: ops)) (w : Nat) : op ≠ .abandon w :=
  fun same => undisturbed w (same ▸ List.mem_cons_self)

theorem Undisturbed.tail (undisturbed : Undisturbed (op :: ops)) : Undisturbed ops :=
  fun w inside => undisturbed w (List.mem_cons_of_mem _ inside)

theorem flow_run (orderly : c.IsOrderly) (undisturbed : Undisturbed ops)
    (current : .reset ∉ ops) {taken since : List α} (all : taken ++ c.items = since) :
    taken ++ (c.obtained ops).map Prod.snd ++ (c.run ops).items = ops.foldl remember since := by
  induction ops generalizing c taken since with
  | nil => simpa [obtained, trace, run_nil] using all
  | cons op ops ih =>
    have move := move_apply orderly.toIsTidy undisturbed.head
    have step := move.flow orderly.idle (fun same => current (same ▸ List.mem_cons_self)) all
    have rest := ih (isOrderly_apply orderly undisturbed.head) undisturbed.tail
      (fun inside => current (List.mem_cons_of_mem _ inside)) step
    rw [obtained_cons, List.map_append, ← List.append_assoc taken]
    exact rest

theorem queue_run (orderly : c.IsOrderly) (undisturbed : Undisturbed ops)
    {served began : List Nat} (order : (served ++ c.standing).Sublist began) :
    (served ++ (c.obtained ops).map Prod.fst ++ (c.run ops).standing).Sublist
      (began ++ c.begun ops) := by
  induction ops generalizing c served began with
  | nil => simpa [obtained, begun, trace, run_nil] using order
  | cons op ops ih =>
    have move := move_apply orderly.toIsTidy undisturbed.head
    have rest := ih (isOrderly_apply orderly undisturbed.head) undisturbed.tail (move.queue orderly.idle order)
    rw [obtained_cons, begun_cons, List.map_append, ← List.append_assoc served, ← List.append_assoc began]
    exact rest

-- Each wait begins once, and then it has begun.
theorem begun_run (orderly : c.IsOrderly) (undisturbed : Undisturbed ops) :
    (c.begun ops).Nodup ∧ ∀ w, (w ∈ c.begun ops → c.hasBegun w = false) ∧
      (w ∈ c.begun ops ∨ c.hasBegun w → (c.run ops).hasBegun w) := by
  induction ops generalizing c with
  | nil => simp [begun, trace, run]
  | cons op ops ih =>
    have move := move_apply orderly.toIsTidy undisturbed.head
    obtain ⟨nodup, later⟩ := ih (isOrderly_apply orderly undisturbed.head) undisturbed.tail
    have notBefore {w : Nat} (inside : w ∈ (c.apply op).begun ops) : c.hasBegun w = false := by
      have notYet := (later w).1 inside
      rw [Bool.eq_false_iff] at notYet ⊢
      exact fun begun => notYet (move.begun_mono begun)
    refine ⟨List.nodup_append.mpr ⟨nodup_newlyBegun, nodup, ?_⟩, fun w => ⟨fun inside => ?_, ?_⟩⟩
    · rintro w first _ second rfl
      have notYet := (later w).1 second
      rw [(mem_newlyBegun.mp first).1] at notYet
      cases notYet
    · obtain first | second := List.mem_append.mp inside
      · exact (mem_newlyBegun.mp first).2
      · exact notBefore second
    · rintro (inside | before)
      · obtain first | second := List.mem_append.mp inside
        · exact (later w).2 (.inr (mem_newlyBegun.mp first).1)
        · exact (later w).2 (.inl second)
      · exact (later w).2 (.inr (move.begun_mono before))

theorem settled_run (orderly : c.IsOrderly) (undisturbed : Undisturbed ops) {w : Nat}
    (begun : c.hasBegun w) (out : w ∉ c.standing) : (c.run ops).given? w = c.given? w := by
  induction ops generalizing c with
  | nil => rfl
  | cons op ops ih =>
    have move := move_apply orderly.toIsTidy undisturbed.head
    obtain ⟨same, outside⟩ := move.settled begun out
    have rest := ih (isOrderly_apply orderly undisturbed.head) undisturbed.tail (move.begun_mono begun) outside
    exact rest.trans same

theorem isOrderly_run (orderly : c.IsOrderly) (undisturbed : Undisturbed ops) :
    (c.run ops).IsOrderly := by
  induction ops generalizing c with
  | nil => exact orderly
  | cons op ops ih =>
    exact ih (isOrderly_apply orderly undisturbed.head) undisturbed.tail

end

end Channel

namespace Loop

open Channel

-- What is new on a channel in each of the actions, one after the other.
def trace (news : Channel α → Channel α → List β) (n : Nat) (l : Loop α) : List (Action α) → List β
  | [] => []
  | a :: acts => news (l.channel n) ((l.act a).channel n) ++ trace news n (l.act a) acts

-- The waits on a channel that get values in a run, with the values, in that order.
def obtained (n : Nat) (l : Loop α) (acts : List (Action α)) : List (Nat × α) :=
  l.trace newlyGiven n acts

-- The waits on a channel that begin in a run, in that order.
def begun (n : Nat) (l : Loop α) (acts : List (Action α)) : List Nat := l.trace newlyBegun n acts

variable {n : Nat} {l : Loop α} {acts : List (Action α)}

section

variable {news : Channel α → Channel α → List β} (idle : ∀ c, news c c = [])
  (started : ∀ c c' token, news (c.start token) c' = news c c')

include idle started

-- Where a wait that is only started is no news, an action and its operations bring the same.
theorem news_act (a : Action α) : news (l.channel n) ((l.act a).channel n) =
    (l.channel n).trace news (l.effects n a) := by
  rw [channel_act]
  obtain none | ⟨op, one⟩ | ⟨t, w, fired, two⟩ := l.effects_cases n a
  · rw [none]
    exact idle _
  · rw [one]
    exact (List.append_nil _).symm
  · have first : news (l.channel n) ((l.channel n).apply (.start t)) = [] := by
      rw [← started _ _ t]
      exact idle _
    have second := started (l.channel n) (((l.channel n).apply (.start t)).apply (.begin w fired)) t
    rw [two, Channel.trace, Channel.trace, first]
    exact second.symm.trans (List.append_nil _).symm

theorem trace_eq : l.trace news n acts = (l.channel n).trace news (history n l acts) := by
  induction acts generalizing l with
  | nil => rfl
  | cons a acts ih =>
    rw [trace, news_act idle started, ih, channel_act, history, trace_append]

end

theorem newlyGiven_start (c c' : Channel α) (token : Option Nat) :
    (c.start token).newlyGiven c' = c.newlyGiven c' := by
  unfold newlyGiven
  rw [given?_start]

theorem obtained_eq : obtained n l acts = (l.channel n).obtained (history n l acts) :=
  trace_eq (fun _ => newlyGiven_eq_nil rfl) newlyGiven_start

theorem begun_eq : begun n l acts = (l.channel n).begun (history n l acts) := by
  refine trace_eq (fun c => newlyBegun_eq_nil rfl) fun c c' token => ?_
  unfold newlyBegun
  rw [hasBegun_start]

theorem foldl_remember_history (since : List α) :
    (history n l acts).foldl Channel.remember since = acts.foldl (remember n) since := by
  induction acts generalizing l since with
  | nil => rfl
  | cons a acts ih =>
    rw [history, List.foldl_append, foldl_remember_effects, ih]
    rfl

theorem undisturbed_history (undisturbed : ∀ w, .abandon ⟨n, w⟩ ∉ acts) :
    Undisturbed (history n l acts) :=
  fun w inside => undisturbed w ((mem_of_mem_history inside).1 w rfl)

theorem isOrderly_play (undisturbed : ∀ w, .abandon ⟨n, w⟩ ∉ acts) :
    ((play {} acts).channel n).IsOrderly := by
  rw [channel_play]
  exact isOrderly_run isOrderly_empty (undisturbed_history undisturbed)

-- What one action keeps, and brings.

section

variable {a : Action α}

theorem undisturbed_effects (calm : ∀ w, a ≠ .abandon ⟨n, w⟩) : Undisturbed (l.effects n a) :=
  fun w inside => calm w ((of_mem_effects l n inside).2.1 w rfl)

theorem isOrderly_act (orderly : (l.channel n).IsOrderly) (calm : ∀ w, a ≠ .abandon ⟨n, w⟩) :
    ((l.act a).channel n).IsOrderly := by
  rw [channel_act]
  exact isOrderly_run orderly (undisturbed_effects calm)

theorem flow_act (orderly : (l.channel n).IsOrderly) (calm : ∀ w, a ≠ .abandon ⟨n, w⟩)
    (current : a ≠ .reset n) {taken since : List α} (all : taken ++ (l.channel n).items = since) :
    taken ++ ((l.channel n).newlyGiven ((l.act a).channel n)).map Prod.snd ++
      ((l.act a).channel n).items = remember n since a := by
  have flow := flow_run orderly (undisturbed_effects calm)
    (fun inside => current ((of_mem_effects l n inside).2.2 rfl)) all
  rw [foldl_remember_effects, ← channel_act] at flow
  rw [news_act (fun _ => newlyGiven_eq_nil rfl) newlyGiven_start]
  exact flow

end

theorem hasBegun_play (undisturbed : ∀ w, .abandon ⟨n, w⟩ ∉ acts) {w : Nat}
    (began : w ∈ begun n {} acts) : ((play {} acts).channel n).hasBegun w := by
  rw [begun_eq] at began
  rw [channel_play]
  exact ((begun_run isOrderly_empty (undisturbed_history undisturbed)).2 w).2 (.inl began)

-- A reset is the end for every wait that has begun.
theorem given?_play_reset (orderly : (l.channel n).IsOrderly)
    (undisturbed : ∀ w, .abandon ⟨n, w⟩ ∉ acts) {w : Nat} (began : (l.channel n).hasBegun w) :
    ((l.play (.reset n :: acts)).channel n).given? w = (l.channel n).given? w := by
  have reset : (l.act (.reset n)).channel n = (l.channel n).reset := by
    rw [act, Loop.reset, channel_onChannel, if_pos rfl]
  have after : ((l.act (.reset n)).channel n).IsOrderly := by
    have undisturbed : ∀ w, (.reset : Operation α) ≠ .abandon w := by simp
    rw [reset]
    exact isOrderly_apply orderly undisturbed
  have settled : ((l.act (.reset n)).channel n).hasBegun w ∧
      ((l.act (.reset n)).channel n).given? w = (l.channel n).given? w := by
    rw [reset]
    exact ⟨(move_reset _).begun_mono began, congrFun (given?_reset _) w⟩
  have rest := settled_run after (undisturbed_history (l := l.act (.reset n)) undisturbed) settled.1
    (by rw [reset]; exact List.not_mem_nil)
  rw [← channel_play] at rest
  exact rest.trans settled.2

theorem abandon_mem_of_mem_mapIdx {β : Type} {g : Nat → α → β} {w : WaitId}
    (inside : .abandon w ∈ acts.mapIdx fun i a => a.map (g i)) : .abandon w ∈ acts := by
  obtain ⟨i, within, same⟩ := List.mem_mapIdx.mp inside
  cases there : acts[i] with
  | abandon w' =>
    rw [there] at same
    obtain rfl := Action.abandon.inj same
    exact there ▸ List.getElem_mem within
  | _ =>
    rw [there] at same
    cases same

theorem stamp_append_cons (front back : List (Action α)) (a : Action α) :
    stamp (front ++ a :: back) = stamp front ++ a.map (Prod.mk front.length) ::
      back.mapIdx fun i a => a.map (Prod.mk (i + 1 + front.length)) := by
  simp [stamp, List.mapIdx_append, List.mapIdx_cons]

-- What was obtained since the last reset, with what is still there, is what was published since then.
theorem flow_play {front back : List (Action α)} (undisturbed : ∀ w, .abandon ⟨n, w⟩ ∉ front ++ back)
    (start : front = [] ∨ front.getLast? = some (.reset n)) (current : .reset n ∉ back) :
    (obtained n (play {} front) back).map Prod.snd ++ ((play {} (front ++ back)).channel n).items =
      published n (front ++ back) := by
  have calm : ∀ w, .abandon ⟨n, w⟩ ∉ back := fun w inside =>
    undisturbed w (List.mem_append_right _ inside)
  have before : ∀ w, .abandon ⟨n, w⟩ ∉ front := fun w inside =>
    undisturbed w (List.mem_append_left _ inside)
  -- nothing is there at first, or right after a reset
  have fresh : ((play {} front).channel n).items = [] ∧ published n front = [] := by
    obtain rfl | last := start
    · exact ⟨rfl, rfl⟩
    · obtain ⟨front, rfl⟩ := List.getLast?_eq_some_iff.mp last
      rw [play_concat, published_concat, act, Loop.reset, channel_onChannel, if_pos rfl]
      simp [remember, Channel.reset]
  have nothing : [] ++ ((play {} front).channel n).items = [] := fresh.1
  have flow := flow_run (isOrderly_play before) (undisturbed_history (l := play {} front) calm)
    (fun inside => current ((mem_of_mem_history inside).2 rfl)) nothing
  rw [foldl_remember_history, ← obtained_eq, ← channel_play, ← play_append] at flow
  have since := fresh.2
  rw [published] at since
  rw [published, List.foldl_append, since]
  exact flow

-- Whoever had begun before a reset has a value from before it, if any.
theorem lt_of_ending?_play {front back : List (Action α)}
    (undisturbed : ∀ w, .abandon ⟨n, w⟩ ∉ front ++ .reset n :: back) {w time : Nat} {v : α}
    (began : w ∈ begun n {} front)
    (finished : ((play {} (stamp (front ++ .reset n :: back))).channel n).ending? w =
      some (.value (time, v))) : time < front.length := by
  have before : ∀ w, .abandon ⟨n, w⟩ ∉ front := fun w inside =>
    undisturbed w (List.mem_append_left _ inside)
  have calm : ∀ w, .abandon ⟨n, w⟩ ∉ back := fun w inside =>
    undisturbed w (List.mem_append_right _ (List.mem_cons_of_mem _ inside))
  -- the channel right before the reset, where the wait has begun
  have bare : ((play {} (stamp front)).channel n).map Prod.snd = (play {} front).channel n :=
    congrArg (fun l => l.channel n) (map_play_stamp front)
  have begun : ((play {} (stamp front)).channel n).hasBegun w := by
    rw [← hasBegun_map Prod.snd, bare]
    exact hasBegun_play before began
  have given : ((play {} (stamp (front ++ .reset n :: back))).channel n).given? w =
      ((play {} (stamp front)).channel n).given? w := by
    rw [stamp_append_cons, play_append]
    exact given?_play_reset
      (isOrderly_play fun w inside => before w (abandon_mem_of_mem_mapIdx inside))
      (fun w inside => calm w (abandon_mem_of_mem_mapIdx inside)) begun
  obtain ⟨x, found, phase⟩ := ending?_iff.mp finished
  have value : x.value? = some (time, v) := value?_eq_some_iff.mpr (.inr phase)
  have held : ((play {} (stamp front)).channel n).given? w = some (time, v) := by
    rw [← given, Channel.given?, found]
    exact value
  obtain ⟨y, there, hasIt⟩ := Option.bind_eq_some_iff.mp held
  exact (custody_play n front).past _ (mem_contents there hasIt)

-- On a channel none of whose waits is cancelled as a task: what was obtained since the last reset and
-- what is still there is all that was published since then, in order. Waits are served in the order in
-- which they began, each of them once. And whoever began before a reset never returns a value
-- published after it.
theorem first_come_first_served (acts : List (Action α)) (n : Nat)
    (undisturbed : ∀ w, .abandon ⟨n, w⟩ ∉ acts) :
    (∀ front back, acts = front ++ back → (front = [] ∨ front.getLast? = some (.reset n)) →
      .reset n ∉ back →
      (obtained n (play {} front) back).map Prod.snd ++ ((play {} acts).channel n).items =
        published n acts) ∧
    (begun n {} acts).Nodup ∧ ((obtained n {} acts).map Prod.fst).Sublist (begun n {} acts) ∧
    (play {} (stamp acts)).map Prod.snd = play {} acts ∧
    ∀ front back w time v, acts = front ++ .reset n :: back → w ∈ begun n {} front →
      ((play {} (stamp acts)).channel n).ending? w = some (.value (time, v)) →
      time < front.length := by
  refine ⟨?_, ?_, ?_, map_play_stamp acts, ?_⟩
  · rintro front back rfl start current
    exact flow_play undisturbed start current
  · rw [begun_eq]
    exact (begun_run isOrderly_empty (undisturbed_history undisturbed)).1
  · rw [obtained_eq, begun_eq]
    have nobody : ([] ++ ({} : Channel α).standing).Sublist [] := .refl _
    have queue := queue_run isOrderly_empty (undisturbed_history (l := {}) undisturbed) nobody
    exact (List.sublist_append_left ..).trans queue
  · rintro front back w time v rfl began finished
    exact lt_of_ending?_play undisturbed began finished

-- Wait 1 begins first and takes what is there, wait 0 is handed what comes, wait 2 is still in line when
-- the channel is reset, and the last value stays.
theorem first_come_first_served_three :
    let acts : List (Action Nat) := [.publish 0 7, .start 0 none, .waitNow 0 none, .turn 0,
      .publish 0 8, .turn 0, .waitNow 0 none, .reset 0, .publish 0 9]
    (∀ w, .abandon ⟨0, w⟩ ∉ acts) ∧ obtained 0 {} acts = [(1, 7), (0, 8)] ∧
      begun 0 {} acts = [1, 0, 2] ∧ ((play {} acts).channel 0).items = [9] ∧
      ((obtained 0 {} acts).map Prod.fst).Sublist (begun 0 {} acts) := by
  intro acts
  have undisturbed (w : Nat) : .abandon ⟨0, w⟩ ∉ acts := by simp [acts]
  exact ⟨undisturbed, by decide, by decide, by decide,
    (first_come_first_served acts 0 undisturbed).2.2.1⟩

end Loop

end HubContract
