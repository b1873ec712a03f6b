import HubContract.Engine
import HubContract.Proofs.Pipeline.Pass

namespace HubContract

open HubContract.Text

namespace Contract

-- The methods that reach the rules.
def pushMethods (k : Contract) : List WalkedMethod := (Distinct.ofList k.walkSides.1).kept

def invokeMethods (k : Contract) : List WalkedMethod := (Distinct.ofList k.walkSides.2).kept

def validated (k : Contract) : Validated := ⟨k, k.pushMethods, k.invokeMethods⟩

-- A method that breaks a rule, as the rule reports it.
def offence (code : Code) (violation : WalkedMethod → Violation) (w : WalkedMethod) : Finding :=
  ⟨code, (violation w).message, some ⟨w.provenance, some w.method.name⟩, (violation w).fixes⟩

-- The bridge of a separated contract, with what it extends, has no methods.
def bridgeErrors (k : Contract) : List Finding :=
  if k.isSeparated then
    (k.ownSet.walk none).map (offence .methodOnBridge (Rule.bridgeViolation k))
  else []

def pushErrors (k : Contract) : List Finding :=
  (k.pushMethods.filter (·.method.returns.kind ≠ .unitAsync)).map
    (offence .pushReturnShape Rule.pushViolation)

def invokeErrors (k : Contract) : List Finding :=
  (k.invokeMethods.filter (!·.method.returns.isAsync)).map
    (offence .invokeReturnShape Rule.invokeViolation)

def markerErrors (k : Contract) : List Finding :=
  (if isBlankText k.uri then [.missingUri k] else []) ++
    if isIdentifier k.bindingName then [] else [.invalidBindingName k]

-- All errors of a contract in the order in which they are reported, under the rules that are built in.
def errors (k : Contract) : List Finding :=
  k.markerErrors ++ (k.bridgeErrors ++ k.pushErrors ++ k.invokeErrors)

-- The same under any rules.
def errorsUnder (k : Contract) (rules : RuleSet) : List Finding :=
  k.markerErrors ++
    (rules.checkAll ⟨k, k.pushMethods, k.invokeMethods⟩).map fun (r, v) => .ofRule r v

end Contract

namespace RuleSet

theorem findings_checkAll (rules : RuleSet) (s : Subject) :
    (rules.checkAll s).map (fun (r, v) => Finding.ofRule r v) =
      rules.flatMap fun r => (r.check s).map (Finding.ofRule r) := by
  simp only [checkAll, List.map_flatMap, List.map_map]
  rfl

end RuleSet

namespace Contract

theorem errorsUnder_builtIn (k : Contract) : k.errorsUnder .builtIn = k.errors := by
  have bridge : (Rule.noMethodsOnBridge.check ⟨k, k.pushMethods, k.invokeMethods⟩).map
      (Finding.ofRule .noMethodsOnBridge) = k.bridgeErrors := by
    simp only [Rule.noMethodsOnBridge, bridgeErrors]
    split
    · exact List.map_map
    · rfl
  have push : (Rule.pushReturnsUnit.check ⟨k, k.pushMethods, k.invokeMethods⟩).map
      (Finding.ofRule .pushReturnsUnit) = k.pushErrors := List.map_map
  have invoke : (Rule.invokeIsAsync.check ⟨k, k.pushMethods, k.invokeMethods⟩).map
      (Finding.ofRule .invokeIsAsync) = k.invokeErrors := List.map_map
  simp [errorsUnder, errors, RuleSet.findings_checkAll, RuleSet.builtIn, bridge, push, invoke]

end Contract

namespace Context

-- A result with what a context holds, which reports the given errors, and remarks besides.
structure Yields (c : Context) (fs : List Finding) (r : CompiledContract) : Prop where
  contractName : r.contractName = c.contract.name
  status : r.status = c.status
  validated : r.validated = c.validated
  binding : r.binding = c.binding
  source : r.source = c.source
  errors : Diagnostic.errors r.diagnostics = fs
  kinds : ∀ δ ∈ r.diagnostics, δ.isError ∨ δ.IsRemark

theorem Adds.yields {b c : Context} {fs : List Finding} (h : b.Adds fs c) (fresh : b.diagnostics = []) :
    b.Yields fs c.result := by
  obtain ⟨ds, trace, rfl, errors, kinds⟩ := h
  have added : b.diagnostics ++ ds = ds := by rw [fresh, List.nil_append]
  refine ⟨rfl, rfl, rfl, rfl, rfl, (congrArg Diagnostic.errors added).trans errors, fun δ reported => ?_⟩
  have reported : δ ∈ b.diagnostics ++ ds := reported
  rw [added] at reported
  exact kinds δ reported

end Context

namespace Pipeline

open Context

variable {rules : RuleSet} {p : Pass} {c c' : Context}

theorem runPasses_running (ps : List Pass) (h : p.run rules c = .ok c') {b : Context} {fs : List Finding}
    (kept : b.Adds fs c') (running : b.status = .success) :
    runPasses rules (p :: ps) c = runPasses rules ps c' := by
  have status : c'.status = .success := by obtain ⟨_, _, rfl, -⟩ := kept; exact running
  simp [runPasses, h, status]

theorem runPasses_halted (ps : List Pass) (h : p.run rules c = .ok c') {b : Context} {fs : List Finding}
    (kept : b.Adds fs c') (failed : b.status = .failed) :
    b.Adds fs (runPasses rules (p :: ps) c) := by
  have status : c'.status = .failed := by obtain ⟨_, _, rfl, -⟩ := kept; exact failed
  simp only [runPasses, h, status, if_true]
  exact kept.note ..

-- A pass that fails is reported, and the passes behind it are not run.
theorem runPasses_error (ps : List Pass) {e : PassFailure} (h : p.run rules c = .error e) {b : Context}
    {fs : List Finding} (kept : b.Adds fs c) :
    Adds { b with status := .failed }
      (fs ++ [⟨.passError, "Pass '" ++ p.name ++ "' failed: " ++ e.message, some ⟨b.contract.name, none⟩, []⟩])
      (runPasses rules (p :: ps) c) := by
  obtain ⟨ds, trace, rfl, hds⟩ := kept
  have failed : Adds { b with status := .failed } fs
      { b with diagnostics := b.diagnostics ++ ds, trace, status := .failed } := ⟨ds, trace, rfl, hds⟩
  simp only [runPasses, h]
  exact (failed.trans (adds_error ..)).note ..

-- Whatever the rules, the passes before the verdict set the two lists and report what is wrong with the
-- marker.
theorem exists_gathered (refusal : Manifest → Option String) (k : Contract) (o : Options) :
    ∃ dropped c,
      Adds { start k o with push := k.pushMethods, invoke := k.invokeMethods, dropped }
        k.markerErrors c ∧
      ∀ rules, runPasses rules (Pass.standardUnless refusal) (start k o) =
        runPasses rules [.validate, .synthesize, .renderUnless refusal, .package] c := by
  have marked : (start k o).Adds k.markerErrors (start k o).checkMarker := (Adds.refl _).checkMarker
  obtain ⟨dropped, distinct⟩ := marked.walk.dropDuplicates
  refine ⟨dropped, _, distinct, fun rules => ?_⟩
  calc runPasses rules (Pass.standardUnless refusal) (start k o)
    _ = runPasses rules _ (start k o).checkMarker := runPasses_running _ rfl marked rfl
    _ = runPasses rules _ (start k o).checkMarker.walk := runPasses_running _ rfl marked.walk rfl
    _ = runPasses rules _ (start k o).checkMarker.walk.dropDuplicates :=
      runPasses_running _ rfl distinct rfl

-- A contract with errors of its own is rejected before anything is made of it. Of one without there is a
-- binding, and a source unless the writer refuses the manifest.
theorem exists_adds_runPasses_unless (refusal : Manifest → Option String) (rules : RuleSet) (k : Contract)
    (o : Options) :
    ∃ dropped,
      if k.errorsUnder rules = [] then
        match refusal (ClientBinding.synthesize k.validated o).manifest with
        | none =>
          Adds { start k o with
              push := k.pushMethods, invoke := k.invokeMethods, dropped, validated := some k.validated,
              binding := some (.synthesize k.validated o),
              source := some (Source.client (.synthesize k.validated o)) }
            [] (runPasses rules (Pass.standardUnless refusal) (start k o))
        | some message =>
          Adds { start k o with
              push := k.pushMethods, invoke := k.invokeMethods, dropped, validated := some k.validated,
              binding := some (.synthesize k.validated o), status := .failed }
            [.unrendered k message] (runPasses rules (Pass.standardUnless refusal) (start k o))
      else
        Adds { start k o with
            push := k.pushMethods, invoke := k.invokeMethods, dropped, status := .failed }
          (k.errorsUnder rules) (runPasses rules (Pass.standardUnless refusal) (start k o)) := by
  obtain ⟨dropped, c, gathered, run⟩ := exists_gathered refusal k o
  have found : k.markerErrors ++ (rules.checkAll ⟨k, k.pushMethods, k.invokeMethods⟩).map
      (fun (r, v) => Finding.ofRule r v) = k.errorsUnder rules := rfl
  have judged := gathered.validate rfl found
  refine ⟨dropped, ?_⟩
  rw [run]
  by_cases clean : k.errorsUnder rules = []
  · rw [if_pos clean] at judged ⊢
    obtain ⟨c₁, synthesized, h₁⟩ := judged.synthesize rfl
    rw [runPasses_running _ rfl judged rfl, runPasses_running _ synthesized h₁ rfl]
    split
    case h_1 written =>
      obtain ⟨c₂, rendered, h₂⟩ := h₁.render rfl written
      have packaged := h₂.package rfl
      rw [runPasses_running _ rendered h₂ rfl, runPasses_running _ rfl packaged rfl]
      exact packaged
    case h_2 message refused =>
      have failed : (Pass.renderUnless refusal).run rules c₁ = .error ⟨message, false⟩ :=
        h₁.renderUnless_eq_error rfl refused
      exact runPasses_error _ failed h₁
  · rw [if_neg clean] at judged ⊢
    exact runPasses_halted _ rfl judged rfl

theorem exists_adds_runPasses (rules : RuleSet) (k : Contract) (o : Options) :
    ∃ dropped,
      if k.errorsUnder rules = [] then
        Adds { start k o with
            push := k.pushMethods, invoke := k.invokeMethods, dropped, validated := some k.validated,
            binding := some (.synthesize k.validated o),
            source := some (Source.client (.synthesize k.validated o)) }
          [] (runPasses rules Pass.standard (start k o))
      else
        Adds { start k o with
            push := k.pushMethods, invoke := k.invokeMethods, dropped, status := .failed }
          (k.errorsUnder rules) (runPasses rules Pass.standard (start k o)) :=
  exists_adds_runPasses_unless (fun _ => none) rules k o

-- What is reported decides whether there is anything else.
theorem compile_cases (rules : RuleSet) (k : Contract) (o : Options) :
    let r := compile Pass.standard rules k o
    Diagnostic.errors r.diagnostics = k.errorsUnder rules ∧
    (∀ δ ∈ r.diagnostics, δ.isError ∨ δ.IsRemark) ∧
    (k.errorsUnder rules = [] ∧ r.status = .success ∧ r.validated = some k.validated ∧
        r.binding = some (.synthesize k.validated o) ∧
        r.source = some (Source.client (.synthesize k.validated o)) ∨
      k.errorsUnder rules ≠ [] ∧ r.status = .failed ∧ r.validated = none ∧ r.binding = none ∧
        r.source = none) := by
  intro r
  obtain ⟨dropped, run⟩ := exists_adds_runPasses rules k o
  by_cases clean : k.errorsUnder rules = []
  · rw [if_pos clean] at run
    have result := run.yields rfl
    exact ⟨result.errors.trans clean.symm, result.kinds,
      .inl ⟨clean, result.status, result.validated, result.binding, result.source⟩⟩
  · rw [if_neg clean] at run
    have result := run.yields rfl
    exact ⟨result.errors, result.kinds,
      .inr ⟨clean, result.status, result.validated, result.binding, result.source⟩⟩

-- A result carries the name of its contract.
theorem contractName_compile (rules : RuleSet) (k : Contract) (o : Options) :
    (compile Pass.standard rules k o).contractName = k.name := by
  obtain ⟨dropped, run⟩ := exists_adds_runPasses rules k o
  split at run
  · exact (run.yields rfl).contractName
  · exact (run.yields rfl).contractName

end Pipeline

namespace Contract

theorem code_ne_passError (k : Contract) : ∀ f ∈ k.errors, f.code ≠ .passError := by
  intro f h
  simp only [errors, markerErrors, bridgeErrors, pushErrors, invokeErrors, List.mem_append,
    List.mem_map, List.mem_ite_nil_right, List.mem_ite_nil_left, List.mem_singleton] at h
  rcases h with (⟨-, rfl⟩ | ⟨-, rfl⟩) | (⟨-, w, -, rfl⟩ | ⟨w, -, rfl⟩) | ⟨w, -, rfl⟩ <;>
    simp [Finding.missingUri, Finding.invalidBindingName, offence]

-- A pass is reported to have failed only where an error of the contract says so, or one that is added to them.
theorem exists_passError_iff {k : Contract} {ds : List Diagnostic} {fs : List Finding}
    (errors : Diagnostic.errors ds = k.errors ++ fs) (kinds : ∀ δ ∈ ds, δ.isError ∨ δ.IsRemark) :
    (∃ δ ∈ ds, δ.code = .passError) ↔ ∃ f ∈ fs, f.code = .passError := by
  constructor
  · rintro ⟨δ, mem, failed⟩
    rcases kinds δ mem with error | ⟨-, -, code⟩
    · have reported : δ.finding ∈ k.errors ++ fs :=
        errors ▸ List.mem_map_of_mem (List.mem_filter.mpr ⟨mem, error⟩)
      rcases List.mem_append.mp reported with own | added
      · exact absurd failed (k.code_ne_passError δ.finding own)
      · exact ⟨δ.finding, added, failed⟩
    · rcases code with code | code <;> simp [code] at failed
  · rintro ⟨f, added, failed⟩
    have reported : f ∈ Diagnostic.errors ds := errors ▸ List.mem_append_right _ added
    obtain ⟨δ, mem, rfl⟩ := List.mem_map.mp reported
    exact ⟨δ, (List.mem_filter.mp mem).1, failed⟩

end Contract

namespace Engine

-- How a text with half of a surrogate pair is refused, which stands here for itself with its escape.
def refusesHalf (m : Manifest) : Option String :=
  if m.hubUri = "chat\\ud800" then
    some "surrogates not allowed"
  else none

end Engine

end HubContract
