import HubContract.Binding.Fake
import HubContract.Binding.Registration
import HubContract.Pipeline.Pass
import HubContract.Source.Fake
import HubContract.Source.Registration

namespace HubContract

structure CompiledContract where
  contractName : String
  status : Status
  validated : Option Validated := none
  binding : Option ClientBinding := none
  source : Option String := none
  diagnostics : List Diagnostic := []
  trace : List TraceEntry := []
  deriving DecidableEq, Repr, Inhabited

structure CompiledFake where
  target : String
  fake : Option FakeBinding := none
  source : Option String := none
  diagnostics : List Diagnostic := []
  deriving DecidableEq, Repr, Inhabited

structure Compilation where
  version : String := Source.generatorVersion
  status : Status := .success
  contracts : List CompiledContract := []
  registration : Option RegistrationHelper := none
  registrationSource : Option String := none
  fakes : List CompiledFake := []
  diagnostics : List Diagnostic := []
  deriving DecidableEq, Repr, Inhabited

def Context.result (c : Context) : CompiledContract :=
  ⟨c.contract.name, c.status, c.validated, c.binding, c.source, c.diagnostics, c.trace⟩

namespace Compilation

-- A contract by its own name or that of its binding.
def contract? (c : Compilation) (name : String) : Option CompiledContract :=
  c.contracts.find? fun k => k.contractName = name || k.binding.any (·.name = name)

def fake? (c : Compilation) (target : String) : Option CompiledFake :=
  c.fakes.find? (·.target = target)

def errors (c : Compilation) : List Diagnostic := c.diagnostics.filter Diagnostic.isError

end Compilation

-- The only diagnostic of a fake that was not made.
def CompiledFake.failure (target : String) (code : Code) (message : String) : CompiledFake where
  target := target
  diagnostics := [{
    id := Diagnostic.numbered ("fake:" ++ target) 1, code, level := .error, message,
    source := "fakes", location := some ⟨target, none⟩ }]

namespace Pipeline

-- Run passes until one of them fails or leaves the contract failed.
def runPasses (rules : RuleSet) : List Pass → Context → Context
  | [], c => c
  | p :: ps, c =>
    match p.run rules c with
    | .ok c =>
      if c.status = .failed then c.note p.name "pipeline_halted" none none []
      else runPasses rules ps c
    | .error e =>
      ({ c with status := .failed }.report .error .passError
        ("Pass '" ++ p.name ++ "' failed: " ++ e.message) "engine"
        (some ⟨c.contract.name, none⟩) []).note p.name "error" none none []

-- Compile a contract with the given passes.
def compile (passes : List Pass) (rules : RuleSet) (k : Contract) (o : Options) :
    CompiledContract :=
  (runPasses rules passes (.start k o)).result

-- The result for a contract whose pipeline does not exist.
def unregistered (id : String) (k : Contract) (o : Options) : CompiledContract :=
  ({ Context.start k o with status := .failed }.report .error .passError
    ("Pipeline '" ++ id ++ "' not registered") "engine" none []).result

-- Make the fake of a manifest.
def compileFake (m : Manifest) (o : Options) (target : String) : CompiledFake :=
  match m.synthesizeFake o.fakePrefix with
  | .ok f => { target, fake := some f, source := some (Source.fake f m.cancellationType none) }
  | .error e => CompiledFake.failure target .unrecognizedManifest e.message

end HubContract.Pipeline
