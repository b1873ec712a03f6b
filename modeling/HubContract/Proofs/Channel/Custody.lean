import HubContract.Proofs.Channel.Stamp

namespace HubContract

variable {α : Type}

theorem Phase.value?_ended_eq_none {e : Ending α} (noValue : ∀ v, e ≠ .value v) :
    (Phase.ended e).value? = none := by
  cases e with
  | value v => exact absurd rfl (noValue v)
  | failed failure | abandoned => rfl

namespace Channel

def values (ws : List (Wait α)) : List α := ws.filterMap Wait.value?

-- Everything that is somewhere.
def contents (c : Channel α) : List α := c.items ++ values c.waits

theorem values_cons (x : Wait α) (ws : List (Wait α)) :
    values (x :: ws) = x.value?.toList ++ values ws := by
  cases held : x.value? <;> simp [values, held]

theorem values_congr {ws ws' : List (Wait α)}
    (same : ∀ i : Nat, ws[i]?.map Wait.value? = ws'[i]?.map Wait.value?) : values ws = values ws' := by
  have maps : ws.map Wait.value? = ws'.map Wait.value? := by
    apply List.ext_getElem?
    simpa using same
  have held (ws : List (Wait α)) : values ws = (ws.map Wait.value?).filterMap id := by
    rw [List.filterMap_map]
    rfl
  rw [held, maps, ← held]

-- What a wait gives up and what it gets are all that changes.
theorem values_modify_perm {ws : List (Wait α)} {w : Nat} {x : Wait α} (found : ws[w]? = some x)
    (g : Wait α → Wait α) :
    ((g x).value?.toList ++ values ws).Perm (x.value?.toList ++ values (ws.modify w g)) := by
  induction ws generalizing w with
  | nil => simp at found
  | cons y ws ih =>
    cases w with
    | zero =>
      obtain rfl : y = x := by simpa using found
      rw [List.modify_zero_cons, values_cons, values_cons]
      exact List.perm_append_comm_assoc ..
    | succ w =>
      have rest := (ih (by simpa using found)).append_left y.value?.toList
      rw [List.modify_succ_cons, values_cons, values_cons]
      exact (List.perm_append_comm_assoc ..).trans (rest.trans (List.perm_append_comm_assoc ..))

variable {c : Channel α} {w : Nat} {x : Wait α}

theorem contents_setPhase_perm (found : c.wait? w = some x) (p : Phase α) :
    (p.value?.toList ++ c.contents).Perm (x.value?.toList ++ (c.setPhase w p).contents) := by
  have moved := (values_modify_perm found fun x => { x with phase := p }).append_left c.items
  exact (List.perm_append_comm_assoc ..).trans (moved.trans (List.perm_append_comm_assoc ..))

theorem contents_reset (c : Channel α) : c.reset.contents = values c.waits := by
  refine values_congr fun w => ?_
  show (c.reset.wait? w).map _ = (c.wait? w).map _
  rw [wait?_reset]
  split
  case isTrue inLine =>
    obtain ⟨x, found, phase⟩ := isInLine_iff.mp inLine.2
    simp [found, phase, Wait.value?, Phase.value?]
  case isFalse => rfl

theorem mem_contents (found : c.wait? w = some x) {v : α} (held : x.value? = some v) :
    v ∈ c.contents :=
  List.mem_append_right _ (List.mem_filterMap.mpr ⟨x, List.mem_of_getElem? found, held⟩)

-- What was published since the last reset, one operation later.
def remember (since : List α) : Operation α → List α
  | .publish v => since ++ [v]
  | .reset => []
  | _ => since

-- A wait in line stands there since the last reset, and one that was handed a value published since
-- then stood in line since then.
def IsCurrent (since : List α) (c : Channel α) : Prop :=
  ∀ w x, c.wait? w = some x →
    (w ∈ c.line ∧ x.phase = .inLine) ∨ (∃ v ∈ since, x.phase = .handed v) →
    x.generation = c.generation

section

variable {since : List α} {c' : Channel α} {p : Phase α}

theorem IsCurrent.of_waits (current : IsCurrent since c) (waits : c'.waits = c.waits)
    (line : ∀ w ∈ c'.line, w ∈ c.line) (generation : c'.generation = c.generation) :
    IsCurrent since c' := by
  intro w x found stands
  rw [generation]
  refine current w x (by simpa only [wait?, waits] using found) ?_
  obtain ⟨inLine, phase⟩ | handed := stands
  · exact .inl ⟨line w inLine, phase⟩
  · exact .inr handed

theorem IsCurrent.setPhase (current : IsCurrent since c) (w : Nat) (notInLine : p ≠ .inLine)
    (notHanded : ∀ v, p ≠ .handed v) : IsCurrent since (c.setPhase w p) := by
  intro w' x' found stands
  rw [wait?_setPhase] at found
  split at found
  · obtain ⟨x, -, rfl⟩ := Option.map_eq_some_iff.mp found
    obtain ⟨-, phase⟩ | ⟨v, -, phase⟩ := stands
    · exact absurd phase notInLine
    · exact absurd phase (notHanded v)
  · exact current w' x' found stands

-- No wait was handed a value that is nowhere.
theorem IsCurrent.add {v : α} (current : IsCurrent since c) (new : v ∉ c.contents) :
    IsCurrent (since ++ [v]) c := by
  intro w x found stands
  obtain inLine | ⟨u, recent, handed⟩ := stands
  · exact current w x found (.inl inLine)
  · obtain old | last := List.mem_append.mp recent
    · exact current w x found (.inr ⟨u, old, handed⟩)
    · obtain rfl := List.mem_singleton.mp last
      exact absurd (mem_contents found (by simp [Wait.value?, Phase.value?, handed])) new

theorem IsCurrent.hand (current : IsCurrent since c) (found : c.wait? w = some x)
    (generation : x.generation = c.generation) (v : α) :
    IsCurrent since (c.setPhase w (.handed v)) := by
  intro w' x' found' stands
  rw [wait?_setPhase] at found'
  split at found'
  case isTrue same =>
    subst same
    rw [found] at found'
    obtain rfl := Option.some.inj found'
    exact generation
  case isFalse => exact current w' x' found' stands

theorem IsCurrent.start (current : IsCurrent since c) (token : Option Nat) :
    IsCurrent since (c.start token) := by
  intro w' x' found stands
  rw [wait?_start] at found
  split at found
  · obtain rfl := Option.some.inj found
    obtain ⟨-, phase⟩ | ⟨v, -, phase⟩ := stands <;> cases phase
  · exact current w' x' found stands

-- A wait that is about to stand in line stands there from now on.
theorem IsCurrent.enter (current : IsCurrent since c) (w : Nat) :
    IsCurrent since ({ c with line := c.line ++ [w] }.update w fun x =>
      { x with phase := .inLine, generation := c.generation }) := by
  intro w' x' found stands
  rw [wait?_update] at found
  split at found
  case isTrue =>
    obtain ⟨x, -, rfl⟩ := Option.map_eq_some_iff.mp found
    rfl
  case isFalse other =>
    refine current w' x' found ?_
    obtain ⟨inLine, phase⟩ | handed := stands
    · obtain before | new := List.mem_append.mp inLine
      · exact .inl ⟨before, phase⟩
      · exact absurd (List.mem_singleton.mp new).symm other
    · exact .inr handed

theorem IsCurrent.doom (current : IsCurrent since c) (w : Nat) :
    IsCurrent since (c.update w fun x => { x with doomed := true }) := by
  intro w' x' found stands
  rw [wait?_update] at found
  split at found
  · obtain ⟨x, before, rfl⟩ := Option.map_eq_some_iff.mp found
    exact current w' x before stands
  · exact current w' x' found stands

theorem isCurrent_reset (c : Channel α) : IsCurrent [] c.reset := by
  intro w x found stands
  obtain ⟨inLine, -⟩ | ⟨v, none, -⟩ := stands
  · cases inLine
  · cases none

end

-- At a time, with what was published since the last reset. Values come with the time of their
-- publication.
structure Custody (time : Nat) (since : List (Nat × α)) (c : Channel (Nat × α)) : Prop where
  nodup : c.contents.Nodup
  past : ∀ v ∈ c.contents, v.1 < time
  kept : ∀ v ∈ since, v ∈ c.contents
  current : IsCurrent since c

section

variable {time : Nat} {since : List (Nat × α)} {c c' : Channel (Nat × α)} {w : Nat}
  {x : Wait (Nat × α)} {p : Phase (Nat × α)} {v : Nat × α}

theorem Custody.later (custody : Custody time since c) : Custody (time + 1) since c :=
  { custody with past := fun v held => (custody.past v held).trans (Nat.lt_succ_self time) }

-- Values that only change places.
theorem Custody.of_perm (custody : Custody time since c) (moved : c'.contents.Perm c.contents)
    (current : IsCurrent since c') : Custody time since c' where
  nodup := moved.nodup_iff.mpr custody.nodup
  past v held := custody.past v (moved.mem_iff.mp held)
  kept v recent := moved.mem_iff.mpr (custody.kept v recent)
  current := current

-- A value that gets its first place.
theorem Custody.of_perm_cons {u : α} (custody : Custody time since c)
    (moved : c'.contents.Perm ((time, u) :: c.contents)) (current : IsCurrent (since ++ [(time, u)]) c') :
    Custody (time + 1) (since ++ [(time, u)]) c' where
  nodup := by
    have new : (time, u) ∉ c.contents := fun held => Nat.lt_irrefl time (custody.past _ held)
    exact moved.nodup_iff.mpr (List.nodup_cons.mpr ⟨new, custody.nodup⟩)
  past v held := by
    obtain rfl | before := List.mem_cons.mp (moved.mem_iff.mp held)
    · exact Nat.lt_succ_self time
    · exact (custody.past v before).trans (Nat.lt_succ_self time)
  kept v recent := by
    obtain old | last := List.mem_append.mp recent
    · exact moved.mem_iff.mpr (List.mem_cons_of_mem _ (custody.kept v old))
    · exact moved.mem_iff.mpr (List.mem_cons.mpr (.inl (List.mem_singleton.mp last)))
  current := current

-- A wait that has no value gets none.
theorem contents_setPhase_of_none (found : c.wait? w = some x) (before : x.value? = none)
    (after : p.value? = none) : (c.setPhase w p).contents.Perm c.contents := by
  have moved := contents_setPhase_perm found p
  rw [before, after] at moved
  exact moved.symm

-- A wait keeps its value.
theorem contents_setPhase_of_same (found : c.wait? w = some x) (same : x.value? = p.value?) :
    (c.setPhase w p).contents.Perm c.contents := by
  have moved := contents_setPhase_perm found p
  rw [same] at moved
  exact ((List.perm_append_left_iff _).mp moved).symm

theorem contents_setPhase_of_gain (found : c.wait? w = some x) (before : x.value? = none)
    (after : p.value? = some v) : (c.setPhase w p).contents.Perm (v :: c.contents) := by
  have moved := contents_setPhase_perm found p
  rw [before, after] at moved
  exact moved.symm

theorem contents_setPhase_of_loss (found : c.wait? w = some x) (before : x.value? = some v)
    (after : p.value? = none) : c.contents.Perm (v :: (c.setPhase w p).contents) := by
  have moved := contents_setPhase_perm found p
  rw [before, after] at moved
  exact moved

theorem Custody.start (custody : Custody time since c) (token : Option Nat) :
    Custody time since (c.start token) := by
  refine custody.of_perm ?_ (custody.current.start token)
  have values : (c.start token).contents = c.contents := by
    simp [contents, Channel.start, values, Wait.value?, Phase.value?]
  rw [values]

theorem Custody.publish (custody : Custody time since c) (u : α) :
    Custody (time + 1) (since ++ [(time, u)]) (c.publish (time, u)) := by
  have new : (time, u) ∉ c.contents := fun held => Nat.lt_irrefl time (custody.past _ held)
  have current := custody.current.add new
  obtain ⟨-, kept⟩ | ⟨skipped, w, rest, x, line, -, found, phase, handed⟩ := c.publish_cases (time, u)
  · rw [kept]
    refine custody.of_perm_cons ?_ (current.of_waits rfl (by simp) rfl)
    simp only [contents, List.append_assoc]
    exact List.perm_middle
  · rw [handed]
    have first : w ∈ c.line := by simp [line]
    have generation := custody.current w x found (.inl ⟨first, phase⟩)
    have left : IsCurrent (since ++ [(time, u)]) { c with line := rest } := by
      refine current.of_waits rfl (fun s later => ?_) rfl
      simp only [line, List.mem_append, List.mem_cons]
      exact .inr (.inr later)
    refine custody.of_perm_cons ?_ (left.hand found generation (time, u))
    exact contents_setPhase_of_gain (c := { c with line := rest }) found
      (by simp [Wait.value?, Phase.value?, phase]) rfl

theorem Custody.begin (custody : Custody time since c) (w : Nat) (fired : Bool) :
    Custody time since (c.begin w fired) := by
  obtain ⟨-, same⟩ | ⟨x, found, phase, cases⟩ := c.begin_cases w fired
  · rw [same]
    exact custody.of_perm (.refl _) custody.current
  have empty : x.value? = none := by simp [Wait.value?, Phase.value?, phase]
  obtain ⟨e, noValue, ended⟩ | ⟨v, rest, items, taken⟩ | ⟨-, enters⟩ := cases
  · rw [ended]
    exact custody.of_perm
      (contents_setPhase_of_none found empty (Phase.value?_ended_eq_none noValue))
      (custody.current.setPhase w (by simp) (by simp))
  · rw [taken]
    have without : IsCurrent since { c with items := rest } :=
      custody.current.of_waits rfl (fun _ => id) rfl
    refine custody.of_perm ?_ (without.setPhase w (by simp) (by simp))
    have first : c.contents = v :: Channel.contents { c with items := rest } := by
      simp [contents, items]
    rw [first]
    exact contents_setPhase_of_gain (c := { c with items := rest }) found empty rfl
  · rw [enters]
    refine custody.of_perm ?_ (custody.current.enter w)
    have moved := values_modify_perm found fun x =>
      { x with phase := .inLine, generation := c.generation }
    rw [empty] at moved
    exact (moved.append_left c.items).symm

theorem Custody.resume (custody : Custody time since c) (w : Nat) :
    Custody time since (c.resume w) := by
  have left : IsCurrent since { c with line := c.line.erase w } :=
    custody.current.of_waits rfl (fun _ => List.mem_of_mem_erase) rfl
  obtain same | ⟨x, found, cases⟩ := c.resume_cases w
  · rw [same]
    exact custody.of_perm (.refl _) left
  obtain ⟨v, phase, -, returned⟩ | ⟨v, phase, -, -, putBack⟩ | ⟨v, phase, -, other, lost⟩ |
    ⟨e, phase, noValue, ended⟩ := cases
  · rw [returned]
    refine custody.of_perm ?_ (left.setPhase w (by simp) (by simp))
    exact contents_setPhase_of_same (c := { c with line := c.line.erase w }) found
      (by simp [Wait.value?, Phase.value?, phase])
  · rw [putBack]
    have back : IsCurrent since { c with line := c.line.erase w, items := v :: c.items } :=
      left.of_waits rfl (fun _ => id) rfl
    refine custody.of_perm ?_ (back.setPhase w (by simp) (by simp))
    have held : x.value? = some v := by simp only [Wait.value?, Phase.value?, phase]
    have moved : (v :: c.contents).Perm (v :: _) :=
      contents_setPhase_of_loss (p := .ended .abandoned)
        (c := { c with line := c.line.erase w, items := v :: c.items }) found held rfl
    exact moved.cons_inv.symm
  · -- Such a value was published before the last reset.
    rw [lost]
    have held : x.value? = some v := by simp only [Wait.value?, Phase.value?, phase]
    have moved : c.contents.Perm (v :: _) := contents_setPhase_of_loss (p := .ended .abandoned)
      (c := { c with line := c.line.erase w }) found held rfl
    have old : v ∉ since := fun recent =>
      other (custody.current w x found (.inr ⟨v, recent, phase⟩))
    refine ⟨(List.nodup_cons.mp (moved.nodup_iff.mp custody.nodup)).2, fun u held => ?_,
      fun u recent => ?_, left.setPhase w (by simp) (by simp)⟩
    · exact custody.past u (moved.mem_iff.mpr (List.mem_cons_of_mem _ held))
    · obtain rfl | held := List.mem_cons.mp (moved.mem_iff.mp (custody.kept u recent))
      · exact absurd recent old
      · exact held
  · rw [ended]
    have empty : x.value? = none := by
      obtain ⟨failure, phase⟩ | phase := phase <;> simp [Wait.value?, Phase.value?, phase]
    refine custody.of_perm ?_ (left.setPhase w (by simp) (by simp))
    exact contents_setPhase_of_none (c := { c with line := c.line.erase w }) found empty
      (Phase.value?_ended_eq_none noValue)

theorem Custody.dismiss (custody : Custody time since c) (w : Nat) :
    Custody time since (c.dismiss w) := by
  obtain same | ⟨x, found, phase, refused⟩ := c.dismiss_cases w
  · rw [same]
    exact custody.of_perm (.refl _) custody.current
  · rw [refused]
    have left : IsCurrent since { c with line := c.line.erase w } :=
      custody.current.of_waits rfl (fun _ => List.mem_of_mem_erase) rfl
    refine custody.of_perm ?_ (left.setPhase w (by simp) (by simp))
    exact contents_setPhase_of_none (c := { c with line := c.line.erase w }) found
      (by simp [Wait.value?, Phase.value?, phase]) rfl

theorem Custody.abandon (custody : Custody time since c) (w : Nat) :
    Custody time since (c.abandon w) := by
  obtain same | ⟨x, found, ⟨phase, dropped⟩ | ⟨-, doomed⟩⟩ := c.abandon_cases w
  · rw [same]
    exact custody.of_perm (.refl _) custody.current
  · rw [dropped]
    exact custody.of_perm
      (contents_setPhase_of_none found (by simp [Wait.value?, Phase.value?, phase]) rfl)
      (custody.current.setPhase w (by simp) (by simp))
  · rw [doomed]
    refine custody.of_perm ?_ (custody.current.doom w)
    have moved := values_modify_perm found fun x => { x with doomed := true }
    exact (((List.perm_append_left_iff _).mp moved).append_left c.items).symm

theorem Custody.reset (custody : Custody time since c) : Custody time [] c.reset := by
  have left : c.reset.contents.Sublist c.contents := by
    rw [contents_reset]
    exact List.sublist_append_right ..
  exact ⟨custody.nodup.sublist left, fun v held => custody.past v (left.subset held), by simp,
    isCurrent_reset c⟩

-- What an operation preserves that publishes nothing.
theorem Custody.apply (custody : Custody time since c) {op : Operation (Nat × α)}
    (quiet : ∀ v, op ≠ .publish v) : Custody time (remember since op) (c.apply op) := by
  cases op with
  | start token => exact custody.start token
  | publish v => exact absurd rfl (quiet v)
  | «begin» w fired => exact custody.begin w fired
  | resume w => exact custody.resume w
  | dismiss w => exact custody.dismiss w
  | abandon w => exact custody.abandon w
  | reset => exact custody.reset

theorem Custody.run (custody : Custody time since c) {ops : List (Operation (Nat × α))}
    (quiet : ∀ op ∈ ops, ∀ v, op ≠ .publish v) :
    Custody time (ops.foldl remember since) (c.run ops) := by
  induction ops generalizing since c with
  | nil => exact custody
  | cons op ops ih =>
    have first := custody.apply (quiet op List.mem_cons_self)
    exact ih first fun op' later => quiet op' (List.mem_cons_of_mem _ later)

end

end Channel

end HubContract
