import HubContract.Binding.Synthesis
import HubContract.Rule

namespace HubContract

inductive Status where
  | success
  -- some contracts or fakes failed
  | incomplete
  | failed
  deriving DecidableEq, Repr, Inhabited

namespace Status

def name : Status → String
  | .success => "success"
  | .incomplete => "partial"
  | .failed => "failed"

def all : List Status := [.success, .incomplete, .failed]

end Status

structure Context where
  contract : Contract
  options : Options
  push : List WalkedMethod := []
  invoke : List WalkedMethod := []
  dropped : List WalkedMethod := []
  validated : Option Validated := none
  binding : Option ClientBinding := none
  source : Option String := none
  trace : List TraceEntry := []
  diagnostics : List Diagnostic := []
  status : Status := .success
  deriving DecidableEq, Repr

namespace Context

def start (c : Contract) (o : Options) : Context := { contract := c, options := o }

-- Add a trace entry under the next number.
def note (c : Context) (pass action : String) (before after : Option String)
    (affected : List String) : Context :=
  { c with trace := c.trace ++ [⟨TraceEntry.numbered c.contract.name (c.trace.length + 1), pass,
      action, before, after, affected⟩] }

-- Add a diagnostic under the next number.
def report (c : Context) (level : Level) (code : Code) (message source : String)
    (location : Option Location) (fixes : List Fix) : Context :=
  { c with diagnostics := c.diagnostics ++
      [⟨Diagnostic.numbered c.contract.name (c.diagnostics.length + 1), code, level, message,
        source, location, fixes⟩] }

def hasErrors (c : Context) : Bool := c.diagnostics.any Diagnostic.isError

def subject (c : Context) : Subject := ⟨c.contract, c.push, c.invoke⟩

end HubContract.Context
