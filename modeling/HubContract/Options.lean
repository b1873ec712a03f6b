import HubContract.Document.Reader
import HubContract.Reconnect
import HubContract.Text.Identifier

namespace HubContract

open HubContract.Text

-- How long a registered client lives.
inductive Lifetime where
  | singleton
  | scoped
  | transient
  deriving DecidableEq, Repr, Inhabited

namespace Lifetime

def name : Lifetime → String
  | .singleton => "singleton"
  | .scoped => "scoped"
  | .transient => "transient"

-- The member that generated source names.
def member : Lifetime → String
  | .singleton => "SINGLETON"
  | .scoped => "SCOPED"
  | .transient => "TRANSIENT"

def all : List Lifetime := [.singleton, .scoped, .transient]

def check : Data → Check Lifetime := Data.checkWord (all.map fun l => (l.name, l))

end Lifetime

structure Options where
  reconnectPolicy : ReconnectPolicy := .standard
  defaultLifetime : Lifetime := .singleton
  registrationFunction : String := "register_hub_clients"
  registrationBuilder : String := "HubClientRegistrations"
  fakePrefix : String := "Fake"
  cancellationType : String := "CancellationToken"
  warnOnDuplicates : Bool := false
  deriving DecidableEq, Repr, Inhabited

inductive OptionsError where
  | notMapping
  | tiersNotList
  | invalid (issues : List Issue)
  | fileMissing (path : String)
  | fileMalformed (path : String)
  | fileNotMapping (path : String)
  | fault (fault : Fault)
  deriving Repr

-- The message, where the error has one of its own.
def OptionsError.message? : OptionsError → Option String
  | .notMapping => some "Options must be a mapping"
  | .tiersNotList => some "'reconnect' must be a list of \x7battempts, delay\x7d mappings"
  | .invalid _ => none
  | .fileMissing path => some ("Options file not found: " ++ path)
  | .fileMalformed path => some (path ++ ": invalid YAML: ")
  | .fileNotMapping path => some (path ++ ": options must be a mapping")
  | .fault _ => none

namespace Options

-- A name that generated source defines or refers to.
def checkIdentifier (d : Data) : Check String :=
  d.checkString.bind fun s => if isIdentifier s then .ok s else .fail .refused

-- A lead-in of class names, which may be empty.
def checkLead (d : Data) : Check String :=
  d.checkString.bind fun s => if s = "" ∨ isIdentifier s then .ok s else .fail .refused

def check : Data → Check Options :=
  Data.checkRecord fun d =>
    let absent : Options := {}
    mk <$> d.fieldOr "reconnect_policy" absent.reconnectPolicy ReconnectPolicy.check
      <*> d.fieldOr "default_lifetime" absent.defaultLifetime Lifetime.check
      <*> d.fieldOr "registration_function" absent.registrationFunction checkIdentifier
      <*> d.fieldOr "registration_builder" absent.registrationBuilder checkIdentifier
      <*> d.fieldOr "fake_prefix" absent.fakePrefix checkLead
      <*> d.fieldOr "cancellation_type" absent.cancellationType checkIdentifier
      <*> d.fieldOr "warn_on_duplicate_signatures" absent.warnOnDuplicates Data.checkBool

-- A tier in its short form. A missing delay is zero.
def tierData (t : Data) : Data :=
  let delay := (t.get? "delay").getD ((t.get? "delay_seconds").getD (.float default))
  .mapping [(.str "attempts", (t.get? "attempts").getD .null), (.str "delay_seconds", delay)]

def isMapping (d : Data) : Bool :=
  match d.opened with
  | .mapping _ => true
  | _ => false

-- Entries with the short form of the policy replaced by the full one.
def expandTiers (entries : List (Data × Data)) : Except OptionsError (List (Data × Data)) :=
  let rest := entries.filter fun (k, _) => !Data.sameKey k (.str "reconnect")
  match (Data.lookup "reconnect" entries).map Data.opened with
  | none | some .null => .ok rest
  | some (.list tiers) =>
    if tiers.all isMapping then
      let policy := Data.mapping [(.str "tiers", .list (tiers.map tierData))]
      .ok (Data.insertEntry rest (.str "reconnect_policy") policy)
    else .error .tiersNotList
  | some _ => .error .tiersNotList

-- The options that a mapping describes; null stands for an empty one.
def ofData (d : Data) : Except OptionsError Options := do
  let entries ←
    match d.opened with
    | .null => pure []
    | .mapping es => pure es
    | _ => .error .notMapping
  match check (.mapping (← expandTiers entries)) with
  | .ok o => return o
  | .bad is => .error (.invalid is)

-- Environment variables and the options that they set.
def environmentFields : List (String × String) := [
  ("HUBGEN_DEFAULT_LIFETIME", "default_lifetime"),
  ("HUBGEN_WARN_DUPLICATES", "warn_on_duplicate_signatures"),
  ("HUBGEN_FAKE_PREFIX", "fake_prefix"),
  ("HUBGEN_CANCELLATION_TYPE", "cancellation_type")]

-- Set what the environment sets.
def overlay (environment : List (String × Data)) (entries : List (Data × Data)) :
    List (Data × Data) :=
  environmentFields.foldl (fun es (key, field) =>
    match environment.lookup key with
    | some v => Data.insertEntry es (.str field) v
    | none => es) entries

-- An options file: its path, and its text if there is such a file.
structure File where
  path : String
  text : Option String

def fileEntries (file : Option File) : Except OptionsError (List (Data × Data)) :=
  match file with
  | none => .ok []
  | some f =>
    match f.text with
    | none => .error (.fileMissing f.path)
    | some text =>
      match Yaml.readFile text with
      | .error .malformed => .error (.fileMalformed f.path)
      | .error (.unusable fault) => .error (.fault fault)
      | .ok d =>
        if d.isTruthy then
          match d.opened with
          | .mapping es => .ok es
          | _ => .error (.fileNotMapping f.path)
        else .ok []

-- The options of a file, with those set in the environment taking precedence.
def load (file : Option File) (environment : List (String × Data)) :
    Except OptionsError Options := do
  ofData (.mapping (overlay environment (← fileEntries file)))

def toJson (o : Options) : Json :=
  .object [
    ("reconnect_policy", o.reconnectPolicy.toJson),
    ("default_lifetime", .str o.defaultLifetime.name),
    ("registration_function", .str o.registrationFunction),
    ("registration_builder", .str o.registrationBuilder),
    ("fake_prefix", .str o.fakePrefix),
    ("cancellation_type", .str o.cancellationType),
    ("warn_on_duplicate_signatures", .bool o.warnOnDuplicates)]

-- Equality of options, numbers being compared by their value.
def same (o p : Options) : Bool :=
  o.reconnectPolicy.same p.reconnectPolicy &&
    { o with reconnectPolicy := .standard } = { p with reconnectPolicy := .standard }

end HubContract.Options
