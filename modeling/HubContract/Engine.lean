import HubContract.Document.Discovery
import HubContract.Pipeline.Result

namespace HubContract

-- A result with the number under which it was made.
structure Made (α : Type) where
  serial : Nat
  value : α
  deriving Repr

structure ContractEntry where
  pipeline : String
  contract : Contract
  options : Options
  result : Made CompiledContract

structure FakeEntry where
  target : String
  manifest : Manifest
  options : Options
  result : Made CompiledFake

structure Engine where
  pipelines : List (String × List Pass) := []
  contractCache : List ContractEntry := []
  fakeCache : List FakeEntry := []
  -- How many results were made.
  made : Nat := 0

-- A compilation with the making of each of its parts.
structure Engine.Report where
  contracts : List (Made CompiledContract)
  fakes : List (Made CompiledFake)
  compilation : Compilation

namespace Engine

-- Put a pipeline in place. One with the same name keeps its place, and its results are dropped.
def registerPipeline (e : Engine) (id : String) (passes : List Pass) : Engine :=
  { e with
    pipelines :=
      if e.pipelines.any (·.1 = id) then
        e.pipelines.map fun p => if p.1 = id then (id, passes) else p
      else e.pipelines ++ [(id, passes)]
    contractCache := e.contractCache.filter (·.pipeline ≠ id) }

def setupDefault (e : Engine) : Engine := e.registerPipeline "default" Pass.standard

def pipelineNames (e : Engine) : List String := e.pipelines.map (·.1)

def clearCache (e : Engine) : Engine := { e with contractCache := [], fakeCache := [] }

def cacheSize (e : Engine) : Nat := e.contractCache.length + e.fakeCache.length

-- What compiling gives without looking at results kept from before.
def contractResult (pipelines : List (String × List Pass)) (rules : RuleSet) (k : Contract)
    (o : Options) (pipeline : String) : CompiledContract :=
  match pipelines.lookup pipeline with
  | some passes => Pipeline.compile passes rules k o
  | none => Pipeline.unregistered pipeline k o

-- A name that is left out or empty stands for the default.
def nameOr (fallback : String) (name : Option String) : String :=
  match name with
  | some n => if n = "" then fallback else n
  | none => fallback

def compileContract (e : Engine) (rules : RuleSet) (k : Contract) (o : Options)
    (pipeline : Option String) : Made CompiledContract × Engine :=
  let pipeline := nameOr "default" pipeline
  match e.contractCache.find? fun c => c.pipeline = pipeline && c.contract = k && c.options.same o with
  | some c => (c.result, e)
  | none =>
    let result : Made CompiledContract := ⟨e.made, contractResult e.pipelines rules k o pipeline⟩
    (result, { e with
      made := e.made + 1
      contractCache := e.contractCache ++ [⟨pipeline, k, o, result⟩] })

def compileFake (e : Engine) (m : Manifest) (o : Options) (target : Option String) :
    Made CompiledFake × Engine :=
  let target := nameOr m.bindingName target
  match e.fakeCache.find? fun c => c.target = target && c.manifest = m && c.options.same o with
  | some c => (c.result, e)
  | none =>
    let result : Made CompiledFake := ⟨e.made, Pipeline.compileFake m o target⟩
    (result, { e with
      made := e.made + 1
      fakeCache := e.fakeCache ++ [⟨target, m, o, result⟩] })

-- A result that is never kept.
def issue (e : Engine) (value : α) : Made α × Engine := (⟨e.made, value⟩, { e with made := e.made + 1 })

def compileClient (e : Engine) (rules : RuleSet) (o : Options) (pipeline : Option String)
    (client : String × Except (List Diagnostic) Contract) : Made CompiledContract × Engine :=
  match client.2 with
  | .ok k => e.compileContract rules k o pipeline
  | .error ds => e.issue { contractName := client.1, status := .failed, diagnostics := ds }

-- The results of one step after another, each with the engine that the one before leaves.
def each (step : Engine → α → β × Engine) : Engine → List α → List β × Engine
  | e, [] => ([], e)
  | e, x :: xs =>
    let (y, e) := step e x
    let (ys, e) := each step e xs
    (y :: ys, e)

-- Why there is no binding for a fake.
def absentReason (failed declared : List String) (target : String) : String :=
  if failed.contains target then "its contract failed to compile"
  else if declared.contains target then "fake targets name bindings, not contracts"
  else "no hub client produces it"

def compileTarget (bindings : List ClientBinding) (failed declared : List String) (o : Options)
    (e : Engine) (target : String) : Made CompiledFake × Engine :=
  -- of several bindings with one name the last one counts
  match bindings.reverse.find? (·.name = target) with
  | some b => e.compileFake b.manifest o (some target)
  | none => e.issue (CompiledFake.failure target .unknownFakeTarget
      ("Cannot generate a fake for '" ++ target ++ "': " ++ absentReason failed declared target))

-- The binding name that a hub client of a document would have.
def bindingNameIn (d : Document) (name : String) : Option String := do
  let decl ← d.get? name
  let marker ← decl.hubClient
  return Contract.bindingNameOf decl.name marker.name

-- A run with errors still counts as incomplete only if it produced something.
def overallStatus (bindings : List ClientBinding) (fakes : List CompiledFake)
    (diagnostics : List Diagnostic) : Status :=
  if !diagnostics.any Diagnostic.isError then .success
  else if !bindings.isEmpty || fakes.any (·.fake.isSome) then .incomplete
  else .failed

-- Compile every hub client of a document, then the registration helper and the fakes asked for.
def compile (e : Engine) (rules : RuleSet) (d : Document) (o : Options) (pipeline : Option String) :
    Report × Engine :=
  let discovery := d.discover
  let (contracts, e) := each (fun e c => e.compileClient rules o pipeline c) e discovery.clients
  let values := contracts.map (·.value)
  let bindings := values.filterMap fun c => if c.status = .success then c.binding else none
  let failed := (values.filter (·.status ≠ .success)).filterMap fun c => bindingNameIn d c.contractName
  let declared := values.map (·.contractName)
  let (fakes, e) := each (compileTarget bindings failed declared o) e d.fakes
  let fakeValues := fakes.map (·.value)
  let diagnostics := values.flatMap (·.diagnostics) ++ fakeValues.flatMap (·.diagnostics)
  let registration := RegistrationHelper.synthesize bindings o
  (⟨contracts, fakes, {
    status := overallStatus bindings fakeValues diagnostics
    contracts := values
    registration := some registration
    registrationSource := some (Source.registration registration)
    fakes := fakeValues
    diagnostics }⟩, e)

-- A new engine with the default pipeline.
def standard : Engine := ({} : Engine).setupDefault

-- The same with a writer that may refuse manifests.
def standardUnless (refusal : Manifest → Option String) : Engine :=
  ({} : Engine).registerPipeline "default" (Pass.standardUnless refusal)

theorem standardUnless_none : standardUnless (fun _ => none) = standard := rfl

end Engine

-- Compile a document by itself, with the default pipeline and the rules that are built in.
def Document.compile (d : Document) (o : Options) : Compilation :=
  (Engine.standard.compile RuleSet.builtIn d o none).1.compilation

end HubContract
