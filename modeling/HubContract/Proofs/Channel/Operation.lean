import HubContract.Channel.Basic
import Mathlib.Data.List.TakeWhile

namespace HubContract

-- The value that a wait was given, whether it has learned of it or not.
def Phase.value? : Phase α → Option α
  | .handed v | .ended (.value v) => some v
  | _ => none

def Wait.value? (x : Wait α) : Option α := x.phase.value?

namespace Channel

variable {α : Type} {c c' : Channel α} {w w' : Nat}

inductive Operation (α : Type) where
  | start (token : Option Nat)
  | publish (value : α)
  | begin (wait : Nat) (fired : Bool)
  | resume (wait : Nat)
  | dismiss (wait : Nat)
  | abandon (wait : Nat)
  | reset
  deriving DecidableEq, Repr

def apply (c : Channel α) : Operation α → Channel α
  | .start token => c.start token
  | .publish value => c.publish value
  | .begin w fired => c.begin w fired
  | .resume w => c.resume w
  | .dismiss w => c.dismiss w
  | .abandon w => c.abandon w
  | .reset => c.reset

-- The channel after operations in turn.
def run (c : Channel α) (ops : List (Operation α)) : Channel α := ops.foldl apply c

theorem run_nil (c : Channel α) : c.run [] = c := rfl

theorem run_append (c : Channel α) (ops ops' : List (Operation α)) :
    c.run (ops ++ ops') = (c.run ops).run ops' := List.foldl_append

section

variable (c : Channel α) (f : Wait α → Wait α) (p : Phase α)

theorem wait?_update :
    (c.update w f).wait? w' = if w = w' then (c.wait? w').map f else c.wait? w' := by
  by_cases same : w = w' <;> simp [wait?, update, same]

theorem wait?_setPhase :
    (c.setPhase w p).wait? w' =
      if w = w' then (c.wait? w').map fun x => { x with phase := p } else c.wait? w' :=
  wait?_update ..

end

theorem wait?_start (c : Channel α) (token : Option Nat) (w : Nat) :
    (c.start token).wait? w = if w = c.waits.length then some { token } else c.wait? w := by
  unfold start wait?
  by_cases new : w = c.waits.length
  · simp [new]
  · by_cases old : w < c.waits.length
    · simp [List.getElem?_append_left old, new]
    · have beyond : c.waits.length < w := by omega
      have none : c.waits[w]? = none := List.getElem?_eq_none (by omega)
      simp [none, new]
      omega

-- One wait is as it is now, and the others are as they were.
def Puts (c c' : Channel α) (w : Nat) (y : Wait α) : Prop :=
  ∀ w', c'.wait? w' = if w = w' then some y else c.wait? w'

theorem puts_update {x : Wait α} (found : c.wait? w = some x) (f : Wait α → Wait α) :
    Puts c (c.update w f) w (f x) := by
  intro w'
  rw [wait?_update]
  by_cases same : w = w'
  · subst same
    simp [found]
  · simp [same]

theorem puts_setPhase {x : Wait α} (found : c.wait? w = some x) (p : Phase α) :
    Puts c (c.setPhase w p) w { x with phase := p } := puts_update found _

theorem puts_start (c : Channel α) (token : Option Nat) :
    Puts c (c.start token) c.waits.length { token } := by
  intro w'
  simp only [wait?_start, eq_comm]

theorem isInLine_iff : c.isInLine w ↔ ∃ x, c.wait? w = some x ∧ x.phase = .inLine := by
  unfold isInLine phase?
  cases c.wait? w with
  | none => simp
  | some x => cases phase : x.phase <;> simp [phase]

-- A value goes to the first who really stands in line. Without one it is kept, and then the line is
-- left by all.
theorem publish_cases (c : Channel α) (v : α) :
    ((∀ w ∈ c.line, c.isInLine w = false) ∧
      c.publish v = { c with line := [], items := c.items ++ [v] }) ∨
    ∃ skipped w rest x, c.line = skipped ++ w :: rest ∧ (∀ s ∈ skipped, c.isInLine s = false) ∧
      c.wait? w = some x ∧ x.phase = .inLine ∧
      c.publish v = { c with line := rest }.setPhase w (.handed v) := by
  have split := List.takeWhile_append_dropWhile (p := (!c.isInLine ·)) (l := c.line)
  have skipped : ∀ s ∈ c.line.takeWhile (!c.isInLine ·), c.isInLine s = false := by
    intro s hs
    simpa using List.mem_takeWhile_imp hs
  unfold publish
  cases left : c.line.dropWhile (!c.isInLine ·) with
  | nil =>
    rw [left, List.append_nil] at split
    exact .inl ⟨split ▸ skipped, rfl⟩
  | cons w rest =>
    have first : c.isInLine w := by
      have stops := List.head?_dropWhile_not (!c.isInLine ·) c.line
      simpa [left] using stops
    obtain ⟨x, found, phase⟩ := isInLine_iff.mp first
    rw [left] at split
    exact .inr ⟨_, w, rest, x, split.symm, skipped, found, phase, rfl⟩

-- Only a wait that has not looked at anything yet can begin, and it looks at the buffer once.
theorem begin_cases (c : Channel α) (w : Nat) (fired : Bool) :
    ((∀ x, c.wait? w = some x → x.phase ≠ .fresh) ∧ c.begin w fired = c) ∨
    ∃ x, c.wait? w = some x ∧ x.phase = .fresh ∧
      ((∃ e, (∀ v, e ≠ .value v) ∧ c.begin w fired = c.setPhase w (.ended e)) ∨
      (∃ v rest, c.items = v :: rest ∧
        c.begin w fired = { c with items := rest }.setPhase w (.ended (.value v))) ∨
      (c.items = [] ∧ c.begin w fired = { c with line := c.line ++ [w] }.update w fun x =>
        { x with phase := .inLine, generation := c.generation })) := by
  unfold begin
  split
  case h_1 token generation doomed found =>
    refine .inr ⟨_, found, rfl, ?_⟩
    split
    · exact .inl ⟨.abandoned, by simp, rfl⟩
    · split
      · exact .inl ⟨.failed .firedBefore, by simp, rfl⟩
      · split
        case h_1 v rest items => exact .inr (.inl ⟨v, rest, items, rfl⟩)
        case h_2 items => exact .inr (.inr ⟨items, rfl⟩)
  case h_2 other =>
    refine .inl ⟨fun x found fresh => ?_, rfl⟩
    obtain ⟨token, phase, generation, doomed⟩ := x
    subst fresh
    exact other _ _ _ found

-- A wait that was given something learns of it. Only a value whose task is cancelled goes back, and
-- only into the buffer that it came from.
theorem resume_cases (c : Channel α) (w : Nat) :
    c.resume w = { c with line := c.line.erase w } ∨
    ∃ x, c.wait? w = some x ∧
      ((∃ v, x.phase = .handed v ∧ x.doomed = false ∧
        c.resume w = { c with line := c.line.erase w }.setPhase w (.ended (.value v))) ∨
      (∃ v, x.phase = .handed v ∧ x.doomed = true ∧ x.generation = c.generation ∧
        c.resume w = { c with line := c.line.erase w, items := v :: c.items }.setPhase w
          (.ended .abandoned)) ∨
      (∃ v, x.phase = .handed v ∧ x.doomed = true ∧ x.generation ≠ c.generation ∧
        c.resume w = { c with line := c.line.erase w }.setPhase w (.ended .abandoned)) ∨
      (∃ e, ((∃ failure, x.phase = .refused failure) ∨ x.phase = .dropped) ∧ (∀ v, e ≠ .value v) ∧
        c.resume w = { c with line := c.line.erase w }.setPhase w (.ended e))) := by
  unfold resume
  split
  case h_1 token v generation found =>
    exact .inr ⟨_, found, .inl ⟨v, rfl, rfl, rfl⟩⟩
  case h_2 token v generation found =>
    refine .inr ⟨_, found, .inr ?_⟩
    by_cases same : generation = c.generation
    · exact .inl ⟨v, rfl, rfl, same, by rw [if_pos same]; rfl⟩
    · exact .inr (.inl ⟨v, rfl, rfl, same, by rw [if_neg same]; rfl⟩)
  case h_3 token failure generation found =>
    exact .inr ⟨_, found, .inr (.inr (.inr ⟨.failed failure, .inl ⟨_, rfl⟩, by simp, rfl⟩))⟩
  case h_4 token failure generation found =>
    exact .inr ⟨_, found, .inr (.inr (.inr ⟨.abandoned, .inl ⟨_, rfl⟩, by simp, rfl⟩))⟩
  case h_5 token generation doomed found =>
    exact .inr ⟨_, found, .inr (.inr (.inr ⟨.abandoned, .inr rfl, by simp, rfl⟩))⟩
  case h_6 => exact .inl rfl

theorem dismiss_cases (c : Channel α) (w : Nat) :
    c.dismiss w = c ∨
    ∃ x, c.wait? w = some x ∧ x.phase = .inLine ∧
      c.dismiss w = { c with line := c.line.erase w }.setPhase w (.refused .canceled) := by
  unfold dismiss
  split
  · rename_i inLine
    obtain ⟨x, found, phase⟩ := isInLine_iff.mp inLine
    exact .inr ⟨x, found, phase, rfl⟩
  · exact .inl rfl

-- A wait in line is dropped at once; another one only learns later that its task was cancelled.
theorem abandon_cases (c : Channel α) (w : Nat) :
    c.abandon w = c ∨
    ∃ x, c.wait? w = some x ∧
      ((x.phase = .inLine ∧ c.abandon w = c.setPhase w .dropped) ∨
        ((∀ e, x.phase ≠ .ended e) ∧ c.abandon w = c.update w fun x => { x with doomed := true })) := by
  unfold abandon phase?
  cases found : c.wait? w with
  | none => exact .inl rfl
  | some x =>
    cases phase : x.phase with
    | inLine => exact .inr ⟨x, rfl, .inl ⟨phase, by simp [phase]⟩⟩
    | ended e => exact .inl (by simp [phase])
    | fresh | handed v | refused failure | dropped =>
      exact .inr ⟨x, rfl, .inr ⟨by simp [phase], by simp [phase]⟩⟩

theorem wait?_foldl_close (c : Channel α) (line : List Nat) (w : Nat) :
    (line.foldl (fun c w => if c.isInLine w then c.setPhase w (.refused .closed) else c) c).wait? w =
      if w ∈ line ∧ c.isInLine w then
        (c.wait? w).map fun x => { x with phase := .refused .closed }
      else c.wait? w := by
  induction line generalizing c with
  | nil => simp
  | cons v line ih =>
    rw [List.foldl_cons, ih]
    by_cases first : c.isInLine v
    · have later (h : w ≠ v) : (c.setPhase v (.refused .closed)).wait? w = c.wait? w := by
        rw [wait?_setPhase, if_neg h.symm]
      by_cases same : w = v
      · subst same
        have refused : (c.setPhase w (.refused .closed)).isInLine w = false := by
          rw [Bool.eq_false_iff, ne_eq, isInLine_iff]
          rintro ⟨x, found, phase⟩
          rw [wait?_setPhase, if_pos rfl] at found
          obtain ⟨y, -, rfl⟩ := Option.map_eq_some_iff.mp found
          cases phase
        simp [first, refused, wait?_setPhase]
      · have kept : (c.setPhase v (.refused .closed)).isInLine w = c.isInLine w := by
          simp only [isInLine, phase?, later same]
        simp only [first, if_true, later same, kept, List.mem_cons, same, false_or]
    · by_cases same : w = v
      · subst same
        simp [first]
      · simp [first, same]

-- Those who stand in line are refused, and nothing else happens to a wait.
theorem wait?_reset (c : Channel α) (w : Nat) :
    c.reset.wait? w =
      if w ∈ c.line ∧ c.isInLine w then (c.wait? w).map fun x => { x with phase := .refused .closed }
      else c.wait? w :=
  wait?_foldl_close c c.line w

theorem ending?_iff {e : Ending α} :
    c.ending? w = some e ↔ ∃ x, c.wait? w = some x ∧ x.phase = .ended e := by
  unfold ending? phase?
  cases c.wait? w with
  | none => simp
  | some x => cases phase : x.phase <;> simp [phase]

end Channel

end HubContract
