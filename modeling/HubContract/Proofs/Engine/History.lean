import HubContract.Proofs.Engine.Cache

namespace HubContract

namespace Engine

-- What can be asked of an engine.
inductive Operation where
  | registerPipeline (id : String) (passes : List Pass)
  | setupDefault
  | clearCache
  | compileContract (k : Contract) (o : Options) (pipeline : Option String)
  | compileFake (m : Manifest) (o : Options) (target : Option String)
  | compile (d : Document) (o : Options) (pipeline : Option String)

-- What comes back.
inductive Outcome where
  | done
  | contract (c : CompiledContract)
  | fake (f : CompiledFake)
  | document (c : Compilation)

variable {rules : RuleSet} {e : Engine}

def apply (rules : RuleSet) (e : Engine) : Operation → Outcome × Engine
  | .registerPipeline id passes => (.done, e.registerPipeline id passes)
  | .setupDefault => (.done, e.setupDefault)
  | .clearCache => (.done, e.clearCache)
  | .compileContract k o pipeline =>
    let (c, e) := e.compileContract rules k o pipeline
    (.contract c.value, e)
  | .compileFake m o target =>
    let (f, e) := e.compileFake m o target
    (.fake f.value, e)
  | .compile d o pipeline =>
    let (r, e) := e.compile rules d o pipeline
    (.document r.compilation, e)

-- The engine after operations that were made in turn.
def run (rules : RuleSet) (e : Engine) (ops : List Operation) : Engine :=
  ops.foldl (fun e op => (e.apply rules op).2) e

-- An engine with the same pipelines that has made nothing yet.
def fresh (e : Engine) : Engine := { pipelines := e.pipelines }

namespace Operation

-- Operations that set pipelines.
def registers : Operation → Bool
  | registerPipeline _ _ | setupDefault => true
  | clearCache | compileContract _ _ _ | compileFake _ _ _ | compile _ _ _ => false

-- Passes that are registered are functions of the context. Contexts count as equal if they compare equal,
-- which those with a delay of zero and of minus zero do (`Context.Alike`): the cache does not tell them apart.
def IsFunctional (rules : RuleSet) : Operation → Prop
  | registerPipeline _ passes => ∀ p ∈ passes, p.Extensional rules
  | _ => True

end Operation

theorem fresh_congr {e' : Engine} (h : e'.pipelines = e.pipelines) : e'.fresh = e.fresh := by
  simp only [Engine.fresh, h]

theorem Sound.fresh (h : e.Sound rules) : e.fresh.Sound rules :=
  ⟨h.functions, fun _ mem => absurd mem List.not_mem_nil, fun _ mem => absurd mem List.not_mem_nil⟩

theorem Sound.apply (h : e.Sound rules) {op : Operation} (functional : op.IsFunctional rules) :
    (e.apply rules op).2.Sound rules := by
  cases op with
  | registerPipeline id passes => exact h.registerPipeline id functional
  | setupDefault => exact h.registerPipeline _ (Pass.standard_extensional rules)
  | clearCache => exact h.clearCache
  | compileContract k o pipeline => exact (h.compileContract k o pipeline).sound
  | compileFake m o target => exact (h.compileFake m o target).sound
  | compile d o pipeline => exact (h.compile d o pipeline).1

theorem Sound.run (h : e.Sound rules) {ops : List Operation}
    (functional : ∀ op ∈ ops, op.IsFunctional rules) : (e.run rules ops).Sound rules := by
  induction ops generalizing e with
  | nil => exact h
  | cons op ops ih =>
    obtain ⟨first, rest⟩ := List.forall_mem_cons.mp functional
    exact ih (h.apply first) rest

-- One step: what was kept before does not show.
theorem Sound.apply_fresh (h : e.Sound rules) (op : Operation) :
    (e.apply rules op).1 = (e.fresh.apply rules op).1 := by
  cases op with
  | registerPipeline id passes => rfl
  | setupDefault => rfl
  | clearCache => rfl
  | compileContract k o pipeline =>
    exact congrArg Outcome.contract ((h.compileContract k o pipeline).value.trans
      (h.fresh.compileContract k o pipeline).value.symm)
  | compileFake m o target =>
    exact congrArg Outcome.fake ((h.compileFake m o target).value.trans
      (h.fresh.compileFake m o target).value.symm)
  | compile d o pipeline =>
    exact congrArg Outcome.document (h.compile_congr h.fresh rfl d o pipeline)

-- What an engine would be had nothing been compiled.
theorem Sound.fresh_apply (h : e.Sound rules) (op : Operation) :
    (e.apply rules op).2.fresh = if op.registers then (e.fresh.apply rules op).2 else e.fresh := by
  cases op with
  | registerPipeline id passes => rfl
  | setupDefault => rfl
  | clearCache => rfl
  | compileContract k o pipeline => exact fresh_congr (h.compileContract k o pipeline).pipelines
  | compileFake m o target => exact fresh_congr (h.compileFake m o target).pipelines
  | compile d o pipeline => exact fresh_congr (h.compile d o pipeline).2

theorem Sound.fresh_run (h : e.Sound rules) {ops : List Operation}
    (functional : ∀ op ∈ ops, op.IsFunctional rules) :
    (e.run rules ops).fresh = e.fresh.run rules (ops.filter Operation.registers) := by
  induction ops generalizing e with
  | nil => rfl
  | cons op ops ih =>
    obtain ⟨first, rest⟩ := List.forall_mem_cons.mp functional
    have step := h.fresh_apply op
    rw [List.filter_cons]
    refine (ih (h.apply first) rest).trans ?_
    rw [step]
    split <;> rfl

-- Whatever was done with an engine, each result is that of an engine on which the same pipelines were
-- registered and nothing else was done. No pass may see the sign of a zero for that (`outcome_ne_fresh`).
theorem outcome_eq_fresh (rules : RuleSet) (before : List Operation) (op : Operation)
    (functional : ∀ op ∈ before, op.IsFunctional rules) :
    ((run rules {} before).apply rules op).1 = ((run rules {} before).fresh.apply rules op).1 ∧
      (run rules {} before).fresh = run rules {} (before.filter Operation.registers) :=
  ⟨(sound_empty.run functional).apply_fresh op, sound_empty.fresh_run functional⟩

def lobby : Contract := { name := "ILobby", uri := "lobby" }

def retryAtOnce (negative : Bool) : Options where
  reconnectPolicy := ⟨[⟨3, .finite negative .zero⟩]⟩

-- A pipeline that is used before it is registered, and then again.
def lateRegistration : List Operation := [
  .compileContract lobby (retryAtOnce false) (some "strict"),
  .registerPipeline "strict" [.checkMarker, .walk, .dropDuplicates, .validate],
  .compileContract lobby (retryAtOnce false) (some "strict"),
  .setupDefault]

-- What was kept for one zero serves the other one.
theorem outcome_eq_fresh_lateRegistration :
    (∀ op ∈ lateRegistration, op.IsFunctional .builtIn) ∧
      (run .builtIn {} lateRegistration).cacheSize = 1 ∧
      let again := Operation.compileContract lobby (retryAtOnce true) (some "strict")
      ((run .builtIn {} lateRegistration).apply .builtIn again).1 =
          ((run .builtIn {} lateRegistration).fresh.apply .builtIn again).1 ∧
        (run .builtIn {} lateRegistration).fresh =
          run .builtIn {} (lateRegistration.filter Operation.registers) := by
  have functional : ∀ op ∈ lateRegistration, op.IsFunctional .builtIn := by
    have standard := Pass.standard_extensional .builtIn
    simp only [Pass.standard, List.forall_mem_cons] at standard
    obtain ⟨marker, walk, duplicates, verdict, -⟩ := standard
    simp [lateRegistration, Operation.IsFunctional, marker, walk, duplicates, verdict]
  exact ⟨functional, rfl, outcome_eq_fresh .builtIn lateRegistration _ functional⟩

-- A pass that looks at the sign of a delay.
def failOnSign : Pass where
  name := "fail_on_sign"
  run _ c :=
    match c.options.reconnectPolicy.tiers with
    | [⟨_, .finite true _⟩] => .ok { c with status := .failed }
    | _ => .ok c

-- The status of a contract that comes back.
def Outcome.status? : Outcome → Option Status
  | .contract c => some c.status
  | _ => none

-- It fails one of two contracts that compare equal, and what was kept for the other one is handed out.
theorem outcome_ne_fresh :
    let before : List Operation := [
      .registerPipeline "signs" [failOnSign],
      .compileContract lobby (retryAtOnce false) (some "signs")]
    let again := Operation.compileContract lobby (retryAtOnce true) (some "signs")
    ((run .builtIn {} before).apply .builtIn again).1.status? = some .success ∧
      ((run .builtIn {} before).fresh.apply .builtIn again).1.status? = some .failed := by
  decide +kernel

end Engine

end HubContract
