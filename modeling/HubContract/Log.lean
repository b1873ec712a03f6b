import HubContract.Json.Basic
import HubContract.Table
import HubContract.Text.Blank

namespace HubContract.Log

open HubContract.Text

inductive Verbosity where
  | silent
  | info
  | verbose
  | debug
  deriving DecidableEq, Repr, Inhabited

namespace Verbosity

def rank : Verbosity → Nat
  | .silent => 0
  | .info => 1
  | .verbose => 2
  | .debug => 3

def name : Verbosity → String
  | .silent => "SILENT"
  | .info => "INFO"
  | .verbose => "VERBOSE"
  | .debug => "DEBUG"

def all : List Verbosity := [.silent, .info, .verbose, .debug]

-- The verbosity that a word names in any case; a word that is not known means info.
def parse (word : String) : Verbosity :=
  let word := String.ofList (word.toList.map Char.toUpper)
  (all.find? (·.name = word)).getD .info

end Verbosity

inductive Area where
  | pipeline
  | discovery
  | validate
  | synthesis
  | render
  | fake
  | runtime
  | system
  deriving DecidableEq, Repr, Inhabited

namespace Area

def name : Area → String
  | .pipeline => "PIPELINE"
  | .discovery => "DISCOVERY"
  | .validate => "VALIDATE"
  | .synthesis => "SYNTHESIS"
  | .render => "RENDER"
  | .fake => "FAKE"
  | .runtime => "RUNTIME"
  | .system => "SYSTEM"

def all : List Area :=
  [.pipeline, .discovery, .validate, .synthesis, .render, .fake, .runtime, .system]

-- In the order of their names.
def sorted : List Area :=
  [.discovery, .fake, .pipeline, .render, .runtime, .synthesis, .system, .validate]

-- Capital letters for the characters whose capitals are ASCII letters.
def capitals (c : Char) : List Char :=
  if c.toNat = 0x131 then ['I']
  else if c.toNat = 0x17f then ['S']
  else if c.toNat = 0xfb00 then ['F', 'F']
  else if c.toNat = 0xfb01 then ['F', 'I']
  else if c.toNat = 0xfb02 then ['F', 'L']
  else if c.toNat = 0xfb05 ∨ c.toNat = 0xfb06 then ['S', 'T']
  else [c.toUpper]

-- The area that a word names in any case.
def parse? (word : String) : Option Area :=
  let word := String.ofList (word.toList.flatMap capitals)
  all.find? (·.name = word)

-- The area of a pass, which the first three characters of its name tell.
def ofPass (pass : String) : Area :=
  match String.ofList (pass.toList.take 3) with
  | "p00" => .discovery
  | "p30" => .validate
  | "p40" => .synthesis
  | "p50" => .render
  | _ => .pipeline

-- Words that name areas, with blanks around them; others are passed over.
def parseAll (words : List String) : List Area := words.filterMap fun w => parse? (trim w)

end Area

structure Config where
  level : Verbosity := .info
  format : String := "console"
  areas : List Area := Area.all
  deriving DecidableEq, Repr, Inhabited

-- What a configuration asks for; what is left out comes from the environment.
structure Request where
  level : Option Verbosity := none
  format : Option String := none
  areas : Option (List String) := none
  deriving DecidableEq, Repr

namespace Config

-- The areas that the environment selects: all of them unless it names some that are known.
def environmentAreas (environment : Table String) : List Area :=
  let named := match environment.get? "HUBGEN_LOG_CHANNELS" with
    | none => []
    | some s => if s = "" then [] else Area.parseAll (s.splitOn ",")
  if named.isEmpty then Area.all else named

def ofRequest (r : Request) (environment : Table String) : Config where
  level := r.level.getD (.parse ((environment.get? "HUBGEN_LOG_LEVEL").getD "info"))
  format := r.format.getD ((environment.get? "HUBGEN_LOG_FORMAT").getD "console")
  areas := match r.areas with
    | some words => Area.parseAll words
    | none => environmentAreas environment

-- Whether an area is selected and the configured verbosity reaches as far.
def admits (c : Config) (area : Area) (v : Verbosity) : Bool :=
  c.areas.contains area && v.rank ≤ c.level.rank

def areaNames (c : Config) : List String := (Area.sorted.filter c.areas.contains).map Area.name

def toJson (c : Config) : Json :=
  .object [("level", .str c.level.name), ("format", .str c.format), ("channels", .strings c.areaNames)]

end Config

-- The ways to call a logger. What is verbose is handed on as debugging output.
inductive Severity where
  | info
  | verbose
  | debug
  | error
  | warning
  deriving DecidableEq, Repr, Inhabited

namespace Severity

def name : Severity → String
  | .info => "info"
  | .verbose | .debug => "debug"
  | .error => "error"
  | .warning => "warning"

-- The severity that a word asks for.
def ofWord? : String → Option Severity
  | "info" => some .info
  | "verbose" => some .verbose
  | "debug" => some .debug
  | "error" => some .error
  | "warning" => some .warning
  | _ => none

-- The field that verbose and debugging records have besides.
def levelField? : Severity → Option String
  | .verbose => some "verbose"
  | .debug => some "debug"
  | .info | .error | .warning => none

-- Whether records are emitted; errors and warnings always are unless everything is silent.
def isEmitted (c : Config) (area : Area) : Severity → Bool
  | .info => c.admits area .info
  | .verbose => c.admits area .verbose
  | .debug => c.admits area .debug
  | .error | .warning => c.level ≠ .silent

end Severity

structure Logger where
  area : Area
  name : String
  pass : Option String := none
  deriving DecidableEq, Repr

namespace Logger

def areaName (a : Area) : String := "hubgen." ++ String.ofList (a.name.toList.map Char.toLower)

def ofArea (a : Area) : Logger := ⟨a, areaName a, none⟩

-- The logger of a word, which is that of the system if the word names no area.
def ofWord (word : String) : Logger := ofArea ((Area.parse? word).getD .system)

def ofPass (pass : String) (area : Option Area) : Logger :=
  ⟨area.getD (.ofPass pass), "hubgen." ++ pass, some pass⟩

def toJson (l : Logger) : Json :=
  .object [("name", .str l.name), ("channel", .str l.area.name), ("pass", .ofOption .str l.pass)]

end Logger

structure Record where
  method : String
  event : String
  fields : Table Json
  deriving DecidableEq, Repr

-- Measured times, which are different at every run.
def Record.measures : List String := ["duration_ms", "total_duration_ms"]

-- A record without its measured times.
def Record.toJson (r : Record) : Json :=
  .array [.str r.method, .str r.event,
    .object (r.fields.filter fun (n, _) => !measures.contains n)]

-- The state of logging: its configuration, and what is bound for the current request.
structure State where
  config : Config := {}
  request : Table Json := []
  deriving DecidableEq, Repr, Inhabited

-- A field was given twice.
inductive Clash where
  | field
  deriving DecidableEq, Repr

namespace State

-- A configuration that is there is changed by force only.
def configure (s : State) (r : Request) (environment : Table String) (force : Bool) : State :=
  if force then { s with config := .ofRequest r environment } else s

def bind (s : State) (fields : Table Json) : State := { s with request := s.request.setAll fields }

def clear (s : State) : State := { s with request := [] }

-- Names that a call has for itself.
def reservedFields : List String := ["self", "event"]

def hasAny (fields : Table Json) (names : List String) : Bool :=
  fields.any fun (n, _) => names.contains n

def fieldsOf (s : State) (l : Logger) (level : Option String) (fields : Table Json) : Table Json :=
  let base : Table Json := [("channel", .str l.area.name)]
  let base := base.setAll ((level.toList.map fun v => ("level", .str v)) ++ fields)
  let base := match l.pass with
    | some p => if p = "" then base else Table.set "pass" (.str p) base
    | none => base
  base.setAll s.request

-- What a call of a logger emits.
def emit (s : State) (l : Logger) (m : Severity) (event : String) (fields : Table Json) :
    Except Clash (List Record) :=
  if hasAny fields reservedFields then .error .field
  else if m.isEmitted s.config l.area then
    if m.levelField?.isSome && hasAny fields ["level"] then .error .field
    else
      let all := s.fieldsOf l m.levelField? fields
      if hasAny all reservedFields then .error .field else .ok [⟨m.name, event, all⟩]
  else .ok []

-- What is written while a contract is compiled. Starting binds the name of the request.
def beginRequest (s : State) (id : String) : State := s.bind [("request_id", .str id)]

def compileLogger : Logger := .ofArea .pipeline

def passStarted (s : State) (pass : String) : Except Clash (List Record) :=
  s.emit compileLogger .verbose "pass_started" [("pass_name", .str pass)]

-- Metrics must not be named like what is measured here.
def passEnded (s : State) (pass : String) (metrics : Table Json) : Except Clash (List Record) :=
  if hasAny metrics ["pass_name", "duration_ms"] then .error .field
  else s.emit compileLogger .verbose "pass_completed" (("pass_name", .str pass) :: metrics)

def passFailed (s : State) (pass message kind : String) : Except Clash (List Record) :=
  s.emit compileLogger .error "pass_failed"
    [("pass_name", .str pass), ("error", .str message), ("error_type", .str kind)]

-- A finished compilation clears what is bound, unless its record cannot be written.
def completed (s : State) (status : String) (metrics : Table Json) :
    Except Clash (List Record × State) :=
  if hasAny metrics ["status", "total_duration_ms"] then .error .field
  else do
    return (← s.emit compileLogger .info "contract_compiled" (("status", .str status) :: metrics),
      s.clear)

end HubContract.Log.State
