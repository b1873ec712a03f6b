import HubContract.Proofs.Channel.Custody
import Mathlib.Data.List.Nodup

namespace HubContract

variable {α : Type}

def Wait.hasBegun (x : Wait α) : Bool :=
  match x.phase with
  | .fresh => false
  | _ => true

def Wait.isInLine (x : Wait α) : Bool :=
  match x.phase with
  | .inLine => true
  | _ => false

namespace Channel

-- The value that a wait was given.
def given? (c : Channel α) (w : Nat) : Option α := (c.wait? w).bind Wait.value?

def hasBegun (c : Channel α) (w : Nat) : Bool := (c.wait? w).any Wait.hasBegun

-- Those in line who still want a value.
def standing (c : Channel α) : List Nat := c.line.filter c.isInLine

variable {c c' : Channel α} {w w' : Nat} {x y : Wait α} {p : Phase α} {v : α}

theorem isInLine_eq_any (c : Channel α) (w : Nat) : c.isInLine w = (c.wait? w).any Wait.isInLine := by
  unfold isInLine phase? Wait.isInLine
  cases c.wait? w with
  | none => rfl
  | some x => cases phase : x.phase <;> simp [phase]

theorem hasBegun_map {β : Type} (f : α → β) (c : Channel α) (w : Nat) :
    (c.map f).hasBegun w = c.hasBegun w := by
  unfold hasBegun
  rw [wait?_map]
  cases c.wait? w with
  | none => rfl
  | some x => cases phase : x.phase <;> simp [Wait.hasBegun, Wait.map, Phase.map, phase]

theorem Puts.given? (puts : Puts c c' w y) (w' : Nat) :
    c'.given? w' = if w = w' then y.value? else c.given? w' := by
  unfold Channel.given?
  rw [puts w']
  split <;> rfl

theorem Puts.hasBegun (puts : Puts c c' w y) (w' : Nat) :
    c'.hasBegun w' = if w = w' then y.hasBegun else c.hasBegun w' := by
  unfold Channel.hasBegun
  rw [puts w']
  split <;> rfl

theorem Puts.isInLine (puts : Puts c c' w y) (w' : Nat) :
    c'.isInLine w' = if w = w' then y.isInLine else c.isInLine w' := by
  rw [isInLine_eq_any, isInLine_eq_any, puts w']
  split <;> rfl

theorem Puts.given?_eq (puts : Puts c c' w y) (same : y.value? = c.given? w) :
    c'.given? = c.given? := by
  funext w'
  rw [puts.given? w']
  split
  case isTrue here => rw [same, here]
  case isFalse => rfl

theorem Puts.hasBegun_eq (puts : Puts c c' w y) (same : y.hasBegun = c.hasBegun w) :
    c'.hasBegun = c.hasBegun := by
  funext w'
  rw [puts.hasBegun w']
  split
  case isTrue here => rw [same, here]
  case isFalse => rfl

theorem Puts.isInLine_eq (puts : Puts c c' w y) (same : y.isInLine = c.isInLine w) :
    c'.isInLine = c.isInLine := by
  funext w'
  rw [puts.isInLine w']
  split
  case isTrue here => rw [same, here]
  case isFalse => rfl

-- Who does not stand in line now is taken out of it.
theorem Puts.standing_sublist (puts : Puts c c' w y) (out : y.isInLine = false)
    (line : c'.line.Sublist c.line) : c'.standing.Sublist c.standing := by
  refine (line.filter _).trans (List.monotone_filter_right _ fun w' inLine => ?_)
  rw [puts.isInLine w'] at inLine
  split at inLine
  · rw [out] at inLine
    cases inLine
  · exact inLine

-- One wait gets a value, and no other.
def Gives (c c' : Channel α) (w : Nat) (v : α) : Prop :=
  c.given? w = none ∧ ∀ w', c'.given? w' = if w = w' then some v else c.given? w'

-- One wait begins, and no other.
def Begins (c c' : Channel α) (w : Nat) : Prop :=
  c.hasBegun w = false ∧ ∀ w', c'.hasBegun w' = if w = w' then true else c.hasBegun w'

-- All that an operation can mean for the order of values and waits.
inductive Move (c c' : Channel α) : Operation α → Prop where
  | rest {op : Operation α} (notPublish : ∀ v, op ≠ .publish v) (notReset : op ≠ .reset)
      (items : c'.items = c.items) (standing : c'.standing.Sublist c.standing)
      (given : c'.given? = c.given?) (begun : c'.hasBegun = c.hasBegun) : Move c c' op
  -- a wait begins only to end
  | fail {w : Nat} {fired : Bool} (items : c'.items = c.items) (standing : c'.standing = c.standing)
      (given : c'.given? = c.given?) (begins : Begins c c' w) : Move c c' (.begin w fired)
  -- a wait begins with the first value that is there
  | take {w : Nat} {fired : Bool} {v : α} (items : c.items = v :: c'.items)
      (standing : c'.standing = c.standing) (gives : Gives c c' w v) (begins : Begins c c' w) :
      Move c c' (.begin w fired)
  -- a wait begins and there is nothing
  | enter {w : Nat} {fired : Bool} (none : c.items = []) (items : c'.items = [])
      (standing : c'.standing = c.standing ++ [w]) (given : c'.given? = c.given?)
      (begins : Begins c c' w) : Move c c' (.begin w fired)
  -- a value that nobody wants yet
  | keep {v : α} (items : c'.items = c.items ++ [v]) (nobody : c.standing = [])
      (standing : c'.standing = []) (given : c'.given? = c.given?)
      (begun : c'.hasBegun = c.hasBegun) : Move c c' (.publish v)
  -- a value for the first in line
  | hand {w : Nat} {v : α} (items : c'.items = c.items)
      (standing : (w :: c'.standing).Sublist c.standing) (gives : Gives c c' w v)
      (begun : c'.hasBegun = c.hasBegun) : Move c c' (.publish v)
  | reset (items : c'.items = []) (standing : c'.standing = []) (given : c'.given? = c.given?)
      (begun : c'.hasBegun = c.hasBegun) : Move c c' .reset

-- No task was cancelled, and who is in line has begun.
structure IsTidy (c : Channel α) : Prop where
  calm : ∀ w x, c.wait? w = some x → x.doomed = false
  entered : ∀ w ∈ c.line, c.hasBegun w

-- A wait that is only started has no part in anything yet.
theorem given?_start (c : Channel α) (token : Option Nat) : (c.start token).given? = c.given? := by
  have beyond : c.wait? c.waits.length = none := List.getElem?_eq_none (Nat.le_refl _)
  refine (puts_start c token).given?_eq ?_
  rw [given?, beyond]
  rfl

theorem hasBegun_start (c : Channel α) (token : Option Nat) :
    (c.start token).hasBegun = c.hasBegun := by
  have beyond : c.wait? c.waits.length = none := List.getElem?_eq_none (Nat.le_refl _)
  refine (puts_start c token).hasBegun_eq ?_
  rw [hasBegun, beyond]
  rfl

theorem move_start (token : Option Nat) : Move c (c.start token) (.start token) :=
  .rest (by simp) (by simp) rfl ((puts_start c token).standing_sublist rfl (.refl _))
    (given?_start c token) (hasBegun_start c token)

theorem move_publish (v : α) : Move c (c.publish v) (.publish v) := by
  obtain ⟨nobody, kept⟩ | ⟨skipped, w, rest, x, line, passed, found, phase, handed⟩ :=
    c.publish_cases v
  · rw [kept]
    refine .keep rfl ?_ rfl rfl rfl
    exact List.filter_eq_nil_iff.mpr fun w inside => by simp [nobody w inside]
  · rw [handed]
    have puts : Puts c ({ c with line := rest }.setPhase w (.handed v)) w _ := puts_setPhase found _
    have stands : c.standing = w :: rest.filter c.isInLine := by
      have first : c.isInLine w := isInLine_iff.mpr ⟨x, found, phase⟩
      have none : skipped.filter c.isInLine = [] :=
        List.filter_eq_nil_iff.mpr fun s hs => by simp [passed s hs]
      rw [standing, line, List.filter_append, none, List.filter_cons_of_pos first]
      rfl
    refine .hand (w := w) rfl ?_ ⟨?_, puts.given?⟩ (puts.hasBegun_eq ?_)
    · rw [stands]
      have left : Puts { c with line := rest } _ w _ := puts
      exact (left.standing_sublist rfl (.refl _)).cons_cons w
    · simp [given?, found, Wait.value?, Phase.value?, phase]
    · simp [hasBegun, found, Wait.hasBegun, phase]

theorem move_begin (tidy : c.IsTidy) (w : Nat) (fired : Bool) :
    Move c (c.begin w fired) (.begin w fired) := by
  obtain ⟨-, same⟩ | ⟨x, found, phase, cases⟩ := c.begin_cases w fired
  · rw [same]
    exact .rest (by simp) (by simp) rfl (.refl _) rfl rfl
  have notBegun : c.hasBegun w = false := by simp [hasBegun, found, Wait.hasBegun, phase]
  have empty : c.given? w = none := by simp [given?, found, Wait.value?, Phase.value?, phase]
  have outside : c.isInLine w = false := by simp [isInLine_eq_any, found, Wait.isInLine, phase]
  obtain ⟨e, noValue, ended⟩ | ⟨v, rest, items, taken⟩ | ⟨items, enters⟩ := cases
  · rw [ended]
    have puts := puts_setPhase found (.ended e)
    refine .fail rfl ?_ (puts.given?_eq ?_) ⟨notBegun, puts.hasBegun⟩
    · exact congrArg c.line.filter (puts.isInLine_eq outside.symm)
    · rw [empty]
      exact Phase.value?_ended_eq_none noValue
  · rw [taken]
    have puts : Puts c ({ c with items := rest }.setPhase w (.ended (.value v))) w _ :=
      puts_setPhase found _
    refine .take items ?_ ⟨empty, puts.given?⟩ ⟨notBegun, puts.hasBegun⟩
    exact congrArg c.line.filter (puts.isInLine_eq outside.symm)
  · rw [enters]
    have puts : Puts c ({ c with line := c.line ++ [w] }.update w fun x =>
        { x with phase := .inLine, generation := c.generation }) w _ := puts_update found _
    refine .enter items items ?_ (puts.given?_eq empty.symm) ⟨notBegun, puts.hasBegun⟩
    -- who is in line has begun, so this wait is not there yet
    have notThere : w ∉ c.line := fun inside => by
      have begun := tidy.entered w inside
      rw [notBegun] at begun
      cases begun
    have others : c.line.filter (Channel.isInLine _) = c.standing :=
      List.filter_congr fun w' inside => by
        have other : w ≠ w' := fun same => notThere (same ▸ inside)
        rw [puts.isInLine w', if_neg other]
    have itself : List.filter (Channel.isInLine _) [w] = [w] :=
      List.filter_cons_of_pos (by rw [puts.isInLine w, if_pos rfl]; rfl)
    refine (List.filter_append ..).trans ?_
    rw [others, itself]

theorem move_resume (tidy : c.IsTidy) (w : Nat) : Move c (c.resume w) (.resume w) := by
  have left : (c.line.erase w).Sublist c.line := List.erase_sublist
  obtain same | ⟨x, found, cases⟩ := c.resume_cases w
  · rw [same]
    exact .rest (by simp) (by simp) rfl (left.filter _) rfl rfl
  have calm := tidy.calm w x found
  obtain ⟨v, phase, -, after⟩ | ⟨v, -, doomed, -⟩ | ⟨v, -, doomed, -⟩ | ⟨e, phase, noValue, after⟩ :=
    cases
  · rw [after]
    have puts : Puts c ({ c with line := c.line.erase w }.setPhase w (.ended (.value v))) w _ :=
      puts_setPhase found _
    refine .rest (by simp) (by simp) rfl (puts.standing_sublist rfl left) (puts.given?_eq ?_)
      (puts.hasBegun_eq ?_)
    · simp [given?, found, Wait.value?, Phase.value?, phase]
    · simp [hasBegun, found, Wait.hasBegun, phase]
  · rw [calm] at doomed
    cases doomed
  · rw [calm] at doomed
    cases doomed
  · rw [after]
    have puts : Puts c ({ c with line := c.line.erase w }.setPhase w (.ended e)) w _ :=
      puts_setPhase found _
    refine .rest (by simp) (by simp) rfl (puts.standing_sublist rfl left) (puts.given?_eq ?_)
      (puts.hasBegun_eq ?_)
    · refine (Phase.value?_ended_eq_none noValue).trans ?_
      obtain ⟨failure, phase⟩ | phase := phase <;> simp [given?, found, Wait.value?, Phase.value?, phase]
    · obtain ⟨failure, phase⟩ | phase := phase <;> simp [hasBegun, found, Wait.hasBegun, phase]

theorem move_dismiss (w : Nat) : Move c (c.dismiss w) (.dismiss w) := by
  obtain same | ⟨x, found, phase, refused⟩ := c.dismiss_cases w
  · rw [same]
    exact .rest (by simp) (by simp) rfl (.refl _) rfl rfl
  · rw [refused]
    have puts : Puts c ({ c with line := c.line.erase w }.setPhase w (.refused .canceled)) w _ :=
      puts_setPhase found _
    refine .rest (by simp) (by simp) rfl (puts.standing_sublist rfl List.erase_sublist)
      (puts.given?_eq ?_) (puts.hasBegun_eq ?_)
    · simp [given?, found, Wait.value?, Phase.value?, phase]
    · simp [hasBegun, found, Wait.hasBegun, phase]

theorem reset_cases (c : Channel α) (w : Nat) : c.reset.wait? w = c.wait? w ∨
    ∃ x, c.wait? w = some x ∧ x.phase = .inLine ∧
      c.reset.wait? w = some { x with phase := .refused .closed } := by
  rw [wait?_reset]
  split
  case isTrue inLine =>
    obtain ⟨x, found, phase⟩ := isInLine_iff.mp inLine.2
    exact .inr ⟨x, found, phase, by rw [found]; rfl⟩
  case isFalse => exact .inl rfl

theorem given?_reset (c : Channel α) : c.reset.given? = c.given? := by
  funext w
  obtain same | ⟨x, found, phase, after⟩ := c.reset_cases w
  · rw [given?, same, given?]
  · simp [given?, found, after, Wait.value?, Phase.value?, phase]

theorem hasBegun_reset (c : Channel α) : c.reset.hasBegun = c.hasBegun := by
  funext w
  obtain same | ⟨x, found, phase, after⟩ := c.reset_cases w
  · rw [hasBegun, same, hasBegun]
  · simp [hasBegun, found, after, Wait.hasBegun, phase]

theorem move_reset (c : Channel α) : Move c c.reset .reset :=
  .reset rfl rfl (given?_reset c) (hasBegun_reset c)

-- What one operation does, unless it cancels a task.
theorem move_apply (tidy : c.IsTidy) {op : Operation α} (undisturbed : ∀ w, op ≠ .abandon w) :
    Move c (c.apply op) op := by
  cases op with
  | start token => exact move_start token
  | publish v => exact move_publish v
  | «begin» w fired => exact move_begin tidy w fired
  | resume w => exact move_resume tidy w
  | dismiss w => exact move_dismiss w
  | abandon w => exact absurd rfl (undisturbed w)
  | reset => exact move_reset c

-- Either there is no value or nobody stands in line.
structure IsOrderly (c : Channel α) : Prop extends IsTidy c where
  idle : c.items = [] ∨ c.standing = []

theorem Move.idle {op : Operation α} (move : Move c c' op) (idle : c.items = [] ∨ c.standing = []) :
    c'.items = [] ∨ c'.standing = [] := by
  cases move with
  | rest _ _ items standing =>
    obtain none | nobody := idle
    · exact .inl (items.trans none)
    · exact .inr (List.sublist_nil.mp (nobody ▸ standing))
  | fail items standing => rwa [items, standing]
  | take items standing =>
    obtain none | nobody := idle
    · rw [none] at items
      cases items
    · exact .inr (standing.trans nobody)
  | enter _ items => exact .inl items
  | keep _ _ standing => exact .inr standing
  | hand items standing =>
    obtain none | nobody := idle
    · exact .inl (items.trans none)
    · rw [nobody] at standing
      cases standing
  | reset items => exact .inl items

theorem isOrderly_empty : ({} : Channel α).IsOrderly :=
  ⟨⟨fun _ _ found => (by cases found), fun _ inside => absurd inside List.not_mem_nil⟩, .inl rfl⟩

end Channel

end HubContract
