import HubContract.Command.Arguments
import HubContract.Command.Files
import HubContract.Log
import HubContract.Text.Blank

namespace HubContract

open HubContract.Arguments

inductive Action where
  | compile (output : String) (withResult : Bool)
  | check (asJson : Bool)
  -- Without keys the first fix of every diagnostic is applied. Without an output the document itself
  -- is written.
  | fix (keys : Option (List String)) (output : Option String) (dryRun : Bool)
  deriving DecidableEq, Repr

structure Invocation where
  document : String
  options : Option String
  log : Log.Request
  action : Action
  deriving DecidableEq, Repr

-- What arguments amount to.
inductive Invocation.Request where
  -- Nothing is asked for, which shows the help too.
  | nothing
  | stop (reason : Stop)
  | run (invocation : Invocation)
  deriving Repr

namespace Invocation

def helpFlag : Flag := { key := "help", spellings := ["-h", "--help"], kind := .help }

def topFlags : List Flag :=
  [helpFlag, { key := "version", spellings := ["--version"], kind := .version }]

def commonFlags : List Flag := [
  helpFlag,
  { key := "options", spellings := ["--options"], kind := .value none },
  { key := "level", spellings := ["--log-level"],
    kind := .value (some ["silent", "info", "verbose", "debug"]) },
  { key := "channel", spellings := ["--log-channel"], kind := .value none },
  { key := "log format", spellings := ["--log-format"],
    kind := .value (some ["console", "json"]) }]

def outputFlag (required : Bool) : Flag :=
  { key := "output", spellings := ["-o", "--output"], kind := .value none, required }

def compileFlags : List Flag :=
  commonFlags ++ [outputFlag true, { key := "json", spellings := ["--json"], kind := .switch }]

def checkFlags : List Flag := commonFlags ++
  [{ key := "format", spellings := ["--format"], kind := .value (some ["text", "json"]) }]

def fixFlags : List Flag := commonFlags ++ [
  { key := "key", spellings := ["--key"], kind := .value none },
  outputFlag false,
  { key := "dry run", spellings := ["--dry-run"], kind := .switch }]

-- The flags of a command, and the action that they describe.
def commands : List (String × List Flag × (Given → Action)) := [
  ("compile", compileFlags, fun g => .compile ((g.last? "output").getD "") (g.has "json")),
  ("check", checkFlags, fun g => .check (g.last? "format" = some "json")),
  ("fix", fixFlags, fun g =>
    .fix (if g.has "key" then some (g.all "key") else none) (g.last? "output") (g.has "dry run"))]

-- The areas that are written in one argument; an empty one selects nothing.
def areas? (given : Option String) : Option (List String) :=
  match given with
  | none | some "" => none
  | some s => some ((s.splitOn ",").map Text.trim)

def ofGiven (action : Given → Action) (g : Given) : Invocation where
  document := g.plain.getD ""
  options := g.last? "options"
  log := {
    level := (g.last? "level").map .parse
    format := g.last? "log format"
    areas := areas? (g.last? "channel") }
  action := action g

-- The invocation that arguments describe, if they describe one.
def parse (arguments : List String) : Except Stop (Option Invocation) := do
  let (found, leftOver) ← Arguments.command topFlags arguments
  match found with
  | none => if leftOver then .error .misuse else return none
  | some (name, rest) =>
    match commands.lookup name with
    | none => .error .misuse
    | some (flags, action) => do
      let g ← Arguments.read flags rest
      if leftOver then .error .misuse else return some (ofGiven action g)

-- What arguments ask for.
def request (arguments : List String) : Request :=
  match parse arguments with
  | .error reason => .stop reason
  | .ok none => .nothing
  | .ok (some i) => .run i

-- The paths that an invocation may read or write.
def paths (i : Invocation) : List Path :=
  let output := match i.action with
    | .compile output _ => some output
    | .check _ => none
    | .fix _ output _ => output
  (i.document :: i.options.toList ++ output.toList).map Path.ofText

end HubContract.Invocation
