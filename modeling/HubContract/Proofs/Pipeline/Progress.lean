import HubContract.Proofs.Pipeline.Numbering

namespace HubContract

namespace Context

-- Run passes one after another, whatever comes of them. One that fails leaves the context as it got it.
def runByHand (rules : RuleSet) (c : Context) (passes : List Pass) : Context :=
  passes.foldl (fun c p => (p.run rules c).toOption.getD c) c

-- The second context is for the same contract and may have more trace entries, which are numbered on.
def Traces (c c' : Context) : Prop :=
  c'.contract = c.contract ∧ ∃ ts, c'.trace = c.trace ++ ts ∧
    ts.map (·.id) = (List.range' (c.trace.length + 1) ts.length).map (TraceEntry.numbered c.contract.name)

-- A source is made of a binding, and a binding of a contract that was accepted.
structure IsStaged (c : Context) : Prop where
  binding : c.source.isSome → c.binding.isSome
  validated : c.binding.isSome → c.validated.isSome

variable {c c' c'' : Context} {rules : RuleSet}

theorem steps_runByHand {passes : List Pass} (known : ∀ p ∈ passes, p ∈ Pass.standard) (c : Context) :
    Steps c (c.runByHand rules passes) := by
  induction passes generalizing c with
  | nil => exact .refl
  | cons p passes ih =>
    obtain ⟨first, others⟩ := List.forall_mem_cons.mp known
    have now : Steps c ((p.run rules c).toOption.getD c) := by
      cases ran : p.run rules c with
      | ok c' => exact Pass.steps_of_mem_standard first ran
      | error e => exact .refl
    exact now.trans (ih others _)

-- The trace

theorem Traces.of_eq (contract : c'.contract = c.contract) (trace : c'.trace = c.trace) : c.Traces c' :=
  ⟨contract, [], by rw [trace, List.append_nil], rfl⟩

theorem Traces.trans (h : c.Traces c') (h' : c'.Traces c'') : c.Traces c'' := by
  obtain ⟨same, ts, more, numbered⟩ := h
  obtain ⟨same', us, more', numbered'⟩ := h'
  rw [same, more, List.length_append, Nat.add_right_comm] at numbered'
  exact ⟨same'.trans same, ts ++ us, by rw [more', more, List.append_assoc],
    Diagnostic.map_append_of_numbered numbered numbered'⟩

theorem Traces.of_steps (h : Steps c c') : c.Traces c' := by
  induction h with
  | refl => exact .of_eq rfl rfl
  | tail _ step ih =>
    refine ih.trans ?_
    cases step with
    | note => exact ⟨rfl, _, rfl, rfl⟩
    | report | arrange | reject | accept | bind | print => exact .of_eq rfl rfl

-- The status

theorem failed_of_steps (h : Steps c c') (failed : c.status = .failed) : c'.status = .failed := by
  induction h with
  | refl => exact failed
  | tail _ step ih =>
    cases step with
    | reject => rfl
    | note | report | arrange | accept | bind | print => exact ih

-- The artifacts

theorem isStaged_start (k : Contract) (o : Options) : (start k o).IsStaged := ⟨nofun, nofun⟩

theorem IsStaged.steps (staged : c.IsStaged) (h : Steps c c') : c'.IsStaged := by
  induction h with
  | refl => exact staged
  | tail _ step ih =>
    cases step with
    | note | report | arrange | reject => exact ⟨ih.binding, ih.validated⟩
    | accept => exact ⟨ih.binding, fun _ => rfl⟩
    | bind v accepted => exact ⟨fun _ => rfl, fun _ => accepted ▸ rfl⟩
    | print b bound => exact ⟨fun _ => bound ▸ rfl, ih.validated⟩

-- Only the two passes that need an artifact can fail, and they do so exactly without it.

theorem exists_synthesize_eq_error_iff : (∃ e, c.synthesize = .error e) ↔ c.validated = none := by
  unfold synthesize
  cases c.validated <;> simp

theorem exists_render_eq_error_iff : (∃ e, c.render = .error e) ↔ c.binding = none := by
  unfold render renderUnless
  cases c.binding <;> simp

-- Wherever one looks at a context on which standard passes are run by hand, its diagnostics and its trace are
-- numbered from one on and have those of every time before in front; it has failed if it had failed before;
-- and its source comes with a binding, which comes with a validated contract. Passes fail only where what they
-- work on is missing.
theorem runByHand_keeps (rules : RuleSet) (k : Contract) (o : Options) {before after : List Pass}
    (known : ∀ p ∈ before ++ after, p ∈ Pass.standard) :
    let c := (start k o).runByHand rules before
    let c' := c.runByHand rules after
    c.diagnostics <+: c'.diagnostics ∧ c.trace <+: c'.trace ∧
    c'.diagnostics.map (·.id) =
      (List.range' 1 c'.diagnostics.length).map (Diagnostic.numbered k.name) ∧
    c'.trace.map (·.id) = (List.range' 1 c'.trace.length).map (TraceEntry.numbered k.name) ∧
    (c.status = .failed → c'.status = .failed) ∧
    (c'.source.isSome → c'.binding.isSome) ∧ (c'.binding.isSome → c'.validated.isSome) ∧
    ((∃ e, Pass.synthesize.run rules c' = .error e) ↔ c'.validated = none) ∧
    ((∃ e, Pass.render.run rules c' = .error e) ↔ c'.binding = none) ∧
    ∀ p ∈ [Pass.checkMarker, .walk, .dropDuplicates, .validate, .package], ∃ c'', p.run rules c' = .ok c'' := by
  intro c c'
  obtain ⟨first, second⟩ := List.forall_mem_append.mp known
  have later : Steps c c' := steps_runByHand second c
  have all : Steps (start k o) c' := (steps_runByHand first (start k o)).trans later
  obtain ⟨-, ds, grows, -⟩ := Numbers.of_steps later
  obtain ⟨-, ts, goes, -⟩ := Traces.of_steps later
  obtain ⟨-, ds', found, numbered⟩ := Numbers.of_steps all
  obtain ⟨-, ts', traced, numbered'⟩ := Traces.of_steps all
  have staged := (isStaged_start k o).steps all
  refine ⟨⟨ds, grows.symm⟩, ⟨ts, goes.symm⟩, ?_, ?_, failed_of_steps later, staged.binding, staged.validated,
    exists_synthesize_eq_error_iff, exists_render_eq_error_iff, ?_⟩
  · rw [found]
    exact numbered
  · rw [traced]
    exact numbered'
  · simp [Pass.checkMarker, Pass.walk, Pass.dropDuplicates, Pass.validate, Pass.package]

-- A contract that is packaged before it was rendered has failed. Nothing changes that any more, neither the
-- source that it is given then nor that it is validated once again.
theorem runByHand_keeps_packagedEarly :
    let passes : List Pass := [.walk, .validate, .synthesize, .package]
    let late : List Pass := [.render, .validate, .package]
    let c := (start { name := "IBell", uri := "bell" } {}).runByHand .builtIn passes
    let c' := c.runByHand .builtIn late
    (∀ p ∈ passes ++ late, p ∈ Pass.standard) ∧ c.status = .failed ∧ c'.status = .failed ∧
      c'.source.isSome ∧ c'.binding.isSome ∧ c'.validated.isSome ∧
      c'.diagnostics.map (·.id) = ["IBell:d001"] ∧
      c'.trace.map (·.id) = ["IBell:t001", "IBell:t002", "IBell:t003", "IBell:t004", "IBell:t005",
        "IBell:t006", "IBell:t007"] := by
  intro passes late c c'
  have known : ∀ p ∈ passes ++ late, p ∈ Pass.standard := by simp [passes, late, Pass.standard]
  have failed : c.status = .failed := by decide +kernel
  have printed : c'.source.isSome := by decide +kernel
  have counts : c'.diagnostics.length = 1 ∧ c'.trace.length = 7 := by decide +kernel
  obtain ⟨-, -, ids, numbers, stays, bound, accepted, -⟩ :=
    runByHand_keeps .builtIn { name := "IBell", uri := "bell" } {} known
  refine ⟨known, failed, stays failed, printed, bound printed, accepted (bound printed), ids.trans ?_,
    numbers.trans ?_⟩
  · rw [counts.1]
    decide +kernel
  · rw [counts.2]
    decide +kernel

end Context

end HubContract
