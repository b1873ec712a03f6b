import HubContract.Command.Files
import HubContract.Command.Invocation
import HubContract.Document.Fixing
import HubContract.Document.Nesting
import HubContract.Document.Writer
import HubContract.Engine
import HubContract.Pipeline.Interchange

namespace HubContract

-- Why an invocation is turned down.
inductive Rejection where
  | options (error : OptionsError)
  | documentMissing (path : Path)
  | documentMalformed (path : Path)
  | shape (error : ShapeError)
  | fix (error : FixError)

namespace Rejection

def issuesText (is : List Issue) : String :=
  "; ".intercalate (is.map fun i => i.place ++ ": " ++ i.defect.name)

-- What is wrong, and details where there are some.
def parts : Rejection → String × Option String
  | .options (.fileMalformed path) => (path ++ ": invalid YAML", some "no options can be read")
  | .options (.invalid is) => ("validation", some (issuesText is))
  | .options e => (e.message?.getD "", none)
  | .documentMissing path => ("Declaration document not found: " ++ path.text, none)
  | .documentMalformed path => (path.text ++ ": invalid YAML", some "no document can be read")
  | .shape e =>
    if e.issues.isEmpty then (e.message, none)
    else (e.message ++ "validation", some (issuesText e.issues))
  | .fix e => (e.message, none)

def lead : String := "hubgen: error: "

def headline (r : Rejection) : String := lead ++ r.parts.1

def text (r : Rejection) : String :=
  match r.parts.2 with
  | none => r.headline
  | some details => r.headline ++ ": " ++ details

end Rejection

-- What an invocation does not handle.
inductive Crash where
  | fault (fault : Fault)
  | file (error : FileError)
  deriving DecidableEq, Repr

inductive Ended where
  | exit (code : Nat)
  | rejected (reason : Rejection)
  | crashed (reason : Crash)

-- What an invocation prints, how it ends and the files it leaves.
structure Outcome where
  output : String := ""
  errors : String := ""
  ended : Ended
  files : Files

namespace Outcome

-- Each of the texts on lines of its own.
def lines (texts : List String) : String := String.join (texts.map (· ++ "\n"))

def exitCode? (o : Outcome) : Option Nat :=
  match o.ended with
  | .exit code => some code
  | .rejected _ => some 2
  | .crashed _ => none

-- What is printed for the user besides the output proper.
def errorText (o : Outcome) : String :=
  match o.ended with
  | .rejected reason => o.errors ++ reason.text ++ "\n"
  | _ => o.errors

end Outcome

structure Session where
  files : Files := {}
  environment : Table String := []
  engine : Engine := .standard
  log : Log.State := {}

namespace Compilation

-- The files of a result with their texts.
def artifacts (c : Compilation) : List (String × String) :=
  let contracts := c.contracts.flatMap fun k =>
    match k.binding, k.source with
    | some b, some source =>
      [(b.moduleName ++ ".py", source),
        (b.moduleName ++ ".manifest.json", b.manifest.toJson.render (some 2))]
    | _, _ => []
  let registration := match c.registration, c.registrationSource with
    | some h, some source => [("registration.py", source), ("__init__.py", Source.package h)]
    | _, _ => []
  let fakes := c.fakes.filterMap fun f =>
    match f.fake, f.source with
    | some fake, some source => some ("fake_" ++ fake.bindingModule ++ ".py", source)
    | _, _ => none
  contracts ++ registration ++ fakes

-- One line for the whole result.
def summary (c : Compilation) : String :=
  c.status.name ++ ": " ++ Text.natural c.contracts.length ++ " contract(s), " ++
    Text.natural c.errors.length ++ " error(s)"

end Compilation

-- Write texts to files one after the other, up to the first that cannot be written.
def Files.writeAll (fs : Files) : List (Path × String) → Files × Option FileError
  | [] => (fs, none)
  | (p, text) :: rest =>
    match fs.write p text with
    | .ok fs => fs.writeAll rest
    | .error e => (fs, some e)

namespace Session

-- Reading either gives a value or ends the invocation.
abbrev Load := Except Ended

def readFile (fs : Files) (p : Path) : Load (Option String) :=
  match fs.find? p with
  | .ok text => .ok text
  | .error e => .error (.crashed (.file e))

def loadOptions (s : Session) (i : Invocation) : Load Options := do
  let file ← match i.options with
    | none => pure none
    | some name =>
      let path := Path.ofText name
      pure (some (Options.File.mk path.text (← readFile s.files path)))
  match Options.load file (s.environment.map fun (name, v) => (name, .str v)) with
  | .ok o => return o
  | .error (.fault f) => .error (.crashed (.fault f))
  | .error e => .error (.rejected (.options e))

def loadDocument (s : Session) (i : Invocation) : Load Document := do
  let path := Path.ofText i.document
  match ← readFile s.files path with
  | none => .error (.rejected (.documentMissing path))
  | some text =>
    match Document.ofFile text with
    | .ok d => d.followable.mapError fun f => .crashed (.fault f)
    | .error .malformed => .error (.rejected (.documentMalformed path))
    | .error (.shape e) => .error (.rejected (.shape e))
    | .error (.fault f) => .error (.crashed (.fault f))

-- Write texts into a directory up to the first that cannot be written; the paths of all if there is
-- no such.
def writeInto (fs : Files) (directory : Path) (texts : List (String × String)) :
    Files × Except Crash (List Path) :=
  let written := texts.map fun (name, text) => (directory.child name, text)
  match fs.writeAll written with
  | (fs, some e) => (fs, .error (.file e))
  | (fs, none) => (fs, .ok (written.map (·.1)))

-- Write the artifacts of a result, and then the result itself if that is asked for.
def writeResult (fs : Files) (c : Compilation) (directory : Path) (withResult : Bool) :
    Files × Except Crash (List Path) :=
  match writeInto fs directory c.artifacts with
  | (fs, .error e) => (fs, .error e)
  | (fs, .ok paths) =>
    if withResult then
      match c.write (some 2) with
      | .error e => (fs, .error (.fault e))
      | .ok text =>
        let (fs, more) := writeInto fs directory [("compilation.json", text)]
        (fs, more.map (paths ++ ·))
    else (fs, .ok paths)

def writeOutput (fs : Files) (c : Compilation) (output : String) (withResult : Bool) : Outcome :=
  let errors := Outcome.lines (c.diagnostics.map Diagnostic.text)
  let directory := Path.ofText output
  match fs.makeDirectory directory with
  | (fs, some e) => { errors, ended := .crashed (.file e), files := fs }
  | (fs, none) =>
    match writeResult fs c directory withResult with
    | (files, .error e) => { errors, ended := .crashed e, files }
    | (files, .ok paths) =>
      { output := Outcome.lines (paths.map Path.text), errors, files
        ended := .exit (if c.status = .success then 0 else 1) }

def report (fs : Files) (c : Compilation) (asJson : Bool) : Outcome :=
  let ended := Ended.exit (if c.errors.isEmpty then 0 else 1)
  if asJson then
    match c.write (some 2) with
    | .error e => { ended := .crashed (.fault e), files := fs }
    | .ok text => { output := Outcome.lines [text], ended, files := fs }
  else
    { output := Outcome.lines (c.diagnostics.map Diagnostic.text ++ [c.summary]), ended, files := fs }

-- The path that a fixed document is written to.
def fixTarget (i : Invocation) (output : Option String) : Path :=
  match output with
  | none | some "" => .ofText i.document
  | some p => .ofText p

def fixDocument (fs : Files) (d : Document) (c : Compilation) (keys : Option (List String))
    (target : Path) (dryRun : Bool) : Outcome :=
  match d.applyFixes c.diagnostics keys with
  | .error e => { ended := .rejected (.fix e), files := fs }
  | .ok fixed =>
    if fixed = d then { errors := "No fixes to apply.\n", ended := .exit 0, files := fs }
    else if dryRun then { output := fixed.toYaml, ended := .exit 0, files := fs }
    else
      match fs.write target fixed.toYaml with
      | .error e => { ended := .crashed (.file e), files := fs }
      | .ok files => { errors := "Wrote " ++ target.text ++ "\n", ended := .exit 0, files }

def act (fs : Files) (i : Invocation) (d : Document) (c : Compilation) : Outcome :=
  match i.action with
  | .compile output withResult => writeOutput fs c output withResult
  | .check asJson => report fs c asJson
  | .fix keys output dryRun => fixDocument fs d c keys (fixTarget i output) dryRun

-- Options are read before the document.
def load (s : Session) (i : Invocation) : Load (Options × Document) := do
  let o ← s.loadOptions i
  return (o, ← s.loadDocument i)

def run (s : Session) (i : Invocation) : Outcome × Session :=
  let s := { s with log := s.log.configure i.log s.environment true }
  match s.load i with
  | .error ended => ({ ended, files := s.files }, s)
  | .ok (o, d) =>
    let (r, engine) := s.engine.compile RuleSet.builtIn d o none
    let outcome := act s.files i d r.compilation
    (outcome, { s with engine, files := outcome.files })

end HubContract.Session
