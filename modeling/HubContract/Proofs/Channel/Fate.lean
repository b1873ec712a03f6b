import HubContract.Proofs.Channel.Order

namespace HubContract

variable {α : Type}

-- What a wait ends with that goes on.
def Wait.learns? (x : Wait α) : Option (Ending α) :=
  match x.phase, x.doomed with
  | .handed v, false => some (.value v)
  | .refused failure, false => some (.failed failure)
  | .handed _, true | .refused _, true | .dropped, _ => some .abandoned
  | _, _ => none

-- It is what it was told, unless its task was cancelled.
theorem Wait.learns?_cases {x : Wait α} {e : Ending α} (learns : x.learns? = some e) :
    (∃ v, x.phase = .handed v ∧ x.doomed = false ∧ e = .value v) ∨
    (∃ failure, x.phase = .refused failure ∧ x.doomed = false ∧ e = .failed failure) ∨
    (x.doomed = true ∨ x.phase = .dropped) ∧ e = .abandoned := by
  obtain ⟨token, phase, generation, doomed⟩ := x
  cases phase <;> cases doomed <;> simp_all [Wait.learns?, eq_comm]

namespace Channel

-- All that an operation can make of one wait.
inductive Fares (c : Channel α) (w : Nat) : Operation α → Option (Wait α) → Prop where
  | same {op : Operation α}
      (begun : ∀ fired, op = .begin w fired → ∀ x, c.wait? w = some x → x.phase ≠ .fresh)
      (resumed : op = .resume w → ∀ x, c.wait? w = some x → x.learns? = none)
      (dismissed : op = .dismiss w → ∀ x, c.wait? w = some x → x.phase ≠ .inLine)
      (passed : ∀ v, op = .publish v → c.standing.head? ≠ some w) : Fares c w op (c.wait? w)
  | start {token : Option Nat} (new : w = c.waits.length) : Fares c w (.start token) (some { token })
  | fail {x : Wait α} {fired : Bool} {e : Ending α} (found : c.wait? w = some x)
      (fresh : x.phase = .fresh) (none : ∀ v, e ≠ .value v) (calm : e = .abandoned → x.doomed)
      (open_ : e ≠ .failed .closed) : Fares c w (.begin w fired) (some { x with phase := .ended e })
  | take {x : Wait α} {v : α} (found : c.wait? w = some x) (fresh : x.phase = .fresh) :
      Fares c w (.begin w false) (some { x with phase := .ended (.value v) })
  | enter {x : Wait α} (found : c.wait? w = some x) (fresh : x.phase = .fresh) :
      Fares c w (.begin w false) (some { x with phase := .inLine, generation := c.generation })
  | hand {x : Wait α} {v : α} (found : c.wait? w = some x) (inLine : x.phase = .inLine)
      (first : c.standing.head? = some w) : Fares c w (.publish v) (some { x with phase := .handed v })
  | learn {x : Wait α} {e : Ending α} (found : c.wait? w = some x) (learns : x.learns? = some e) :
      Fares c w (.resume w) (some { x with phase := .ended e })
  | dismiss {x : Wait α} (found : c.wait? w = some x) (inLine : x.phase = .inLine) :
      Fares c w (.dismiss w) (some { x with phase := .refused .canceled })
  | drop {x : Wait α} (found : c.wait? w = some x) (inLine : x.phase = .inLine) :
      Fares c w (.abandon w) (some { x with phase := .dropped })
  | doom {x : Wait α} (found : c.wait? w = some x) :
      Fares c w (.abandon w) (some { x with doomed := true })
  | close {x : Wait α} (found : c.wait? w = some x) (inLine : x.phase = .inLine) :
      Fares c w .reset (some { x with phase := .refused .closed })

section

variable {c c' : Channel α} {w w' : Nat} {x y : Wait α} {v : α}

-- Operations on other waits.
theorem fares_other {op : Operation α} (same : c'.wait? w = c.wait? w)
    (begun : ∀ fired, op ≠ .begin w fired) (resumed : op ≠ .resume w) (dismissed : op ≠ .dismiss w)
    (passed : ∀ v, op = .publish v → c.standing.head? ≠ some w) : Fares c w op (c'.wait? w) := by
  rw [same]
  exact .same (fun fired is => absurd is (begun fired)) (fun is => absurd is resumed)
    (fun is => absurd is dismissed) passed

theorem fares_publish (c : Channel α) (w : Nat) (v : α) :
    Fares c w (.publish v) ((c.publish v).wait? w) := by
  obtain ⟨nobody, kept⟩ | ⟨skipped, w', rest, x, line, passed, found, phase, handed⟩ :=
    c.publish_cases v
  · have none : c.standing = [] := List.filter_eq_nil_iff.mpr fun w inside => by simp [nobody w inside]
    exact fares_other (by rw [kept]; rfl) nofun nofun nofun fun v _ => by simp [none]
  · have first : c.standing.head? = some w' := by
      have stands : c.isInLine w' := isInLine_iff.mpr ⟨x, found, phase⟩
      have none : skipped.filter c.isInLine = [] :=
        List.filter_eq_nil_iff.mpr fun s hs => by simp [passed s hs]
      rw [standing, line, List.filter_append, none, List.filter_cons_of_pos stands]
      rfl
    have puts : Puts c ({ c with line := rest }.setPhase w' (.handed v)) w' _ := puts_setPhase found _
    have after := puts w
    rw [← handed] at after
    by_cases here : w' = w
    · subst here
      rw [after, if_pos rfl]
      exact .hand found phase first
    · rw [if_neg here] at after
      refine fares_other after nofun nofun nofun fun v _ => ?_
      rw [first]
      exact fun same => here (Option.some.inj same)

theorem fares_begin (c : Channel α) (w : Nat) (fired : Bool) :
    Fares c w (.begin w fired) ((c.begin w fired).wait? w) := by
  unfold begin
  split
  case h_1 token generation doomed found =>
    have puts (p : Phase α) := (puts_setPhase found p w).trans (if_pos rfl)
    split
    case isTrue marked =>
      rw [puts]
      exact .fail found rfl nofun (fun _ => marked) nofun
    case isFalse =>
      split
      case isTrue =>
        rw [puts]
        exact .fail found rfl nofun nofun nofun
      case isFalse unfired =>
        obtain rfl : fired = false := Bool.eq_false_iff.mpr unfired
        split
        case h_1 v rest items =>
          have puts : Puts c ({ c with items := rest }.setPhase w (.ended (.value v))) w _ :=
            puts_setPhase found _
          rw [puts w, if_pos rfl]
          exact .take found rfl
        case h_2 items =>
          have puts : Puts c ({ c with line := c.line ++ [w] }.update w fun x =>
              { x with phase := .inLine, generation := c.generation }) w _ := puts_update found _
          rw [puts w, if_pos rfl]
          exact .enter found rfl
  case h_2 other =>
    refine .same (fun fired is x found fresh => ?_) nofun nofun nofun
    obtain ⟨token, phase, generation, doomed⟩ := x
    subst fresh
    exact other _ _ _ found

theorem fares_resume (c : Channel α) (w : Nat) :
    Fares c w (.resume w) ((c.resume w).wait? w) := by
  have waits (c : Channel α) (line : List Nat) : wait? { c with line } w = c.wait? w := rfl
  unfold resume
  rw [waits]
  -- the wait learns what its phase says, or there is nothing that it could learn
  have learn {x : Wait α} {e : Ending α} (items : List α) (found : c.wait? w = some x)
      (learns : x.learns? = some e) :
      Fares c w (.resume w) (({ c with items }.setPhase w (.ended e)).wait? w) := by
    have puts : Puts c ({ c with items }.setPhase w (.ended e)) w _ := puts_setPhase found _
    rw [puts w, if_pos rfl]
    exact .learn found learns
  split
  case h_1 found => exact learn c.items found rfl
  case h_2 found => exact learn _ found rfl
  case h_3 found => exact learn c.items found rfl
  case h_4 found => exact learn c.items found rfl
  case h_5 token generation doomed found => exact learn c.items found (by cases doomed <;> rfl)
  case h_6 given mute refused refused' dropped =>
    refine .same nofun (fun _ x found => ?_) nofun nofun
    obtain ⟨token, phase, generation, doomed⟩ := x
    cases phase <;> cases doomed <;> grind [Wait.learns?]

theorem fares_dismiss (c : Channel α) (w : Nat) :
    Fares c w (.dismiss w) ((c.dismiss w).wait? w) := by
  unfold dismiss
  split
  case isTrue stands =>
    obtain ⟨x, found, phase⟩ := isInLine_iff.mp stands
    have puts : Puts c ({ c with line := c.line.erase w }.setPhase w (.refused .canceled)) w _ :=
      puts_setPhase found _
    rw [puts w, if_pos rfl]
    exact .dismiss found phase
  case isFalse outside =>
    exact .same nofun nofun (fun _ x found phase => outside (isInLine_iff.mpr ⟨x, found, phase⟩)) nofun

-- Who resumes has learned what there was.
theorem learns?_of_resume (after : (c.resume w).wait? w = some y) : y.learns? = none := by
  have fares := fares_resume c w
  generalize (c.resume w).wait? w = z at after fares
  cases fares with
  | same _ resumed => exact resumed rfl y after
  | learn found learns =>
    obtain rfl := Option.some.inj after
    rfl

theorem not_inLine_of_dismiss (after : (c.dismiss w).wait? w = some y) : y.phase ≠ .inLine := by
  have fares := fares_dismiss c w
  generalize (c.dismiss w).wait? w = z at after fares
  cases fares with
  | same _ _ dismissed => exact dismissed rfl y after
  | dismiss found inLine =>
    obtain rfl := Option.some.inj after
    nofun

theorem fares_abandon (c : Channel α) (w : Nat) :
    Fares c w (.abandon w) ((c.abandon w).wait? w) := by
  obtain same | ⟨x, found, ⟨phase, dropped⟩ | ⟨-, doomed⟩⟩ := c.abandon_cases w
  · rw [same]
    exact .same nofun nofun nofun nofun
  · rw [dropped, puts_setPhase found, if_pos rfl]
    exact .drop found phase
  · rw [doomed, puts_update found, if_pos rfl]
    exact .doom found

section

variable (other : w' ≠ w)

include other

theorem wait?_setPhase_of_ne (c : Channel α) (p : Phase α) :
    (c.setPhase w' p).wait? w = c.wait? w :=
  (wait?_setPhase ..).trans (if_neg other)

theorem wait?_begin_of_ne (c : Channel α) (fired : Bool) :
    (c.begin w' fired).wait? w = c.wait? w := by
  obtain ⟨-, same⟩ | ⟨x, -, -, ⟨e, -, after⟩ | ⟨v, rest, -, after⟩ | ⟨-, after⟩⟩ :=
    c.begin_cases w' fired
  · rw [same]
  · rw [after, wait?_setPhase_of_ne other]
  · rw [after, wait?_setPhase_of_ne other]
    rfl
  · rw [after]
    exact (wait?_update ..).trans (if_neg other)

theorem wait?_resume_of_ne (c : Channel α) : (c.resume w').wait? w = c.wait? w := by
  obtain same | ⟨x, -, ⟨v, -, -, after⟩ | ⟨v, -, -, -, after⟩ | ⟨v, -, -, -, after⟩ |
    ⟨e, -, -, after⟩⟩ := c.resume_cases w'
  · rw [same]
    rfl
  all_goals
    rw [after, wait?_setPhase_of_ne other]
    rfl

theorem wait?_dismiss_of_ne (c : Channel α) : (c.dismiss w').wait? w = c.wait? w := by
  obtain same | ⟨x, -, -, after⟩ := c.dismiss_cases w'
  · rw [same]
  · rw [after, wait?_setPhase_of_ne other]
    rfl

theorem wait?_abandon_of_ne (c : Channel α) : (c.abandon w').wait? w = c.wait? w := by
  obtain same | ⟨x, -, ⟨-, after⟩ | ⟨-, after⟩⟩ := c.abandon_cases w'
  · rw [same]
  · rw [after, wait?_setPhase_of_ne other]
  · rw [after]
    exact (wait?_update ..).trans (if_neg other)

end

theorem fares_start (c : Channel α) (w : Nat) (token : Option Nat) :
    Fares c w (.start token) ((c.start token).wait? w) := by
  rw [wait?_start]
  split
  case isTrue new => exact .start new
  case isFalse => exact .same nofun nofun nofun nofun

theorem fares_reset (c : Channel α) (w : Nat) : Fares c w .reset (c.reset.wait? w) := by
  obtain same | ⟨x, found, phase, after⟩ := c.reset_cases w
  · exact fares_other same nofun nofun nofun nofun
  · rw [after]
    exact .close found phase

-- What one operation makes of a wait.
theorem fares_apply (c : Channel α) (w : Nat) (op : Operation α) :
    Fares c w op ((c.apply op).wait? w) := by
  cases op with
  | start token => exact fares_start c w token
  | publish v => exact fares_publish c w v
  | «begin» w' fired =>
    by_cases here : w' = w
    · exact here ▸ fares_begin c w' fired
    · exact fares_other (wait?_begin_of_ne here c fired) (by simp [here]) nofun nofun nofun
  | resume w' =>
    by_cases here : w' = w
    · exact here ▸ fares_resume c w'
    · exact fares_other (wait?_resume_of_ne here c) nofun (by simp [here]) nofun nofun
  | dismiss w' =>
    by_cases here : w' = w
    · exact here ▸ fares_dismiss c w'
    · exact fares_other (wait?_dismiss_of_ne here c) nofun nofun (by simp [here]) nofun
  | abandon w' =>
    by_cases here : w' = w
    · exact here ▸ fares_abandon c w'
    · exact fares_other (wait?_abandon_of_ne here c) nofun nofun nofun nofun
  | reset => exact fares_reset c w

-- What has ended stays as it ended.
theorem ending?_apply {e : Ending α} (finished : c.ending? w = some e) (op : Operation α) :
    (c.apply op).ending? w = some e := by
  obtain ⟨x, found, ended⟩ := ending?_iff.mp finished
  have fares := fares_apply c w op
  have going {y : Wait α} (found' : c.wait? w = some y) (other : ∀ e, y.phase ≠ .ended e) :
      (c.apply op).ending? w = some e := by
    obtain rfl := Option.some.inj (found.symm.trans found')
    exact absurd ended (other e)
  generalize after : (c.apply op).wait? w = z at fares
  cases fares with
  | same => exact ending?_iff.mpr ⟨x, after.trans found, ended⟩
  | start new => exact absurd new (List.getElem?_eq_some_iff.mp found).1.ne
  | fail found' fresh | take found' fresh | enter found' fresh => exact going found' (by simp [fresh])
  | hand found' inLine | dismiss found' inLine | drop found' inLine | close found' inLine =>
    exact going found' (by simp [inLine])
  | learn found' learns =>
    refine going found' fun e phase => ?_
    simp [Wait.learns?, phase] at learns
  | doom found' =>
    obtain rfl := Option.some.inj (found.symm.trans found')
    exact ending?_iff.mpr ⟨_, after, ended⟩

theorem ending?_run {e : Ending α} (finished : c.ending? w = some e) (ops : List (Operation α)) :
    (c.run ops).ending? w = some e := by
  induction ops generalizing c with
  | nil => exact finished
  | cons op ops ih => exact ih (ending?_apply finished op)

-- Who has begun does not begin again.
theorem hasBegun_apply (begun : c.hasBegun w) (op : Operation α) : (c.apply op).hasBegun w := by
  have fares := fares_apply c w op
  unfold hasBegun
  generalize (c.apply op).wait? w = z at fares
  cases fares with
  | same => exact begun
  | start new =>
    have beyond : c.wait? w = none := List.getElem?_eq_none (new ▸ Nat.le_refl _)
    simp [hasBegun, beyond] at begun
  | fail | take | enter | hand | learn | dismiss | drop | close => rfl
  | doom found =>
    rw [hasBegun, found] at begun
    exact begun

theorem line_resume (c : Channel α) (w : Nat) : (c.resume w).line = c.line.erase w := by
  unfold resume
  dsimp only
  split <;> rfl

-- Whoever is in line now was there before, or has just come there.
theorem mem_line_apply {op : Operation α} (inside : w ∈ (c.apply op).line) :
    w ∈ c.line ∨ (c.apply op).hasBegun w := by
  cases op with
  | start token => exact .inl inside
  | publish v =>
    obtain ⟨-, kept⟩ | ⟨skipped, w', rest, x, line, -, -, -, handed⟩ := c.publish_cases v
    · rw [apply, kept] at inside
      cases inside
    · rw [apply, handed] at inside
      rw [line]
      exact .inl (List.mem_append_right _ (List.mem_cons_of_mem _ inside))
  | «begin» w' fired =>
    obtain ⟨-, same⟩ | ⟨x, found, -, ⟨e, -, ended⟩ | ⟨v, rest, -, taken⟩ | ⟨-, enters⟩⟩ :=
      c.begin_cases w' fired
    · rw [apply, same] at inside
      exact .inl inside
    · rw [apply, ended] at inside
      exact .inl inside
    · rw [apply, taken] at inside
      exact .inl inside
    · rw [apply, enters] at inside ⊢
      obtain before | last := List.mem_append.mp inside
      · exact .inl before
      · obtain rfl := List.mem_singleton.mp last
        have puts : Puts c ({ c with line := c.line ++ [w] }.update w fun x =>
            { x with phase := .inLine, generation := c.generation }) w _ := puts_update found _
        exact .inr ((puts.hasBegun w).trans (if_pos rfl))
  | resume w' =>
    rw [apply, line_resume] at inside
    exact .inl (List.mem_of_mem_erase inside)
  | dismiss w' =>
    obtain same | ⟨x, -, -, refused⟩ := c.dismiss_cases w'
    · rw [apply, same] at inside
      exact .inl inside
    · rw [apply, refused] at inside
      exact .inl (List.mem_of_mem_erase inside)
  | abandon w' =>
    obtain same | ⟨x, -, ⟨-, dropped⟩ | ⟨-, doomed⟩⟩ := c.abandon_cases w'
    · rw [apply, same] at inside
      exact .inl inside
    · rw [apply, dropped] at inside
      exact .inl inside
    · rw [apply, doomed] at inside
      exact .inl inside
  | reset => cases inside

theorem isTidy_apply (tidy : c.IsTidy) {op : Operation α} (undisturbed : ∀ w, op ≠ .abandon w) :
    (c.apply op).IsTidy := by
  refine ⟨fun w x after => ?_, fun w inside => ?_⟩
  · have fares := fares_apply c w op
    rw [after] at fares
    generalize is : some x = z at fares
    cases fares with
    | same => exact tidy.calm w x is.symm
    | start =>
      obtain rfl := Option.some.inj is
      rfl
    | drop | doom => exact absurd rfl (undisturbed w)
    | fail found | take found | enter found | hand found | learn found | dismiss found | close found =>
      obtain rfl := Option.some.inj is
      have calm := tidy.calm w _ found
      exact calm
  · obtain before | begun := mem_line_apply inside
    · exact hasBegun_apply (tidy.entered w before) op
    · exact begun

theorem isOrderly_apply (orderly : c.IsOrderly) {op : Operation α}
    (undisturbed : ∀ w, op ≠ .abandon w) : (c.apply op).IsOrderly :=
  ⟨isTidy_apply orderly.toIsTidy undisturbed, (move_apply orderly.toIsTidy undisturbed).idle orderly.idle⟩

end

end Channel

end HubContract
