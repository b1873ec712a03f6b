import HubContract.Pipeline.Context
import HubContract.Source.Client
import HubContract.Text.Numeral

namespace HubContract

open HubContract.Text

-- A failed pass: its message, and whether that is a text of the generator itself.
structure PassFailure where
  message : String
  own : Bool
  deriving DecidableEq, Repr

-- A pass gives a new context or fails. Then the context stays as it was.
structure Pass where
  name : String
  run : RuleSet → Context → Except PassFailure Context

namespace Context

def declaration (name : String) : Option Location := some ⟨name, none⟩

-- Report a blank address and an unusable binding name.
def checkMarker (c : Context) : Context :=
  let source := "p00_check_marker"
  let k := c.contract
  let c :=
    if isBlankText k.uri then
      c.report .error .missingUri ("Hub client '" ++ k.name ++ "' has no uri segment") source
        (declaration k.name) []
    else c
  let c :=
    if isIdentifier k.bindingName then c
    else
      c.report .error .invalidBindingName
        ("Binding name '" ++ k.bindingName ++ "' is not a usable class name") source
        (declaration k.name) []
  c.note source "checked_marker" none (some ("uri=" ++ quoted k.uri)) []

-- Flatten the contract into its two lists.
def walk (c : Context) : Context :=
  let (push, invoke) := c.contract.walkSides
  let mode := if c.contract.isSeparated then "separated" else "unified"
  { c with push, invoke }.note "p10_walk" "walked_graph" none
    (some (mode ++ ": " ++ natural push.length ++ " push, " ++ natural invoke.length ++ " invoke")) []

def reportDuplicate (level : Level) (c : Context) (pair : WalkedMethod × WalkedMethod) : Context :=
  let (duplicate, winner) := pair
  c.report level .duplicateSignature
    (duplicate.role.title ++ " method '" ++ duplicate.signatureKey ++ "' from '" ++
      duplicate.provenance ++ "' is ignored; '" ++ winner.provenance ++ "' declares it first")
    "p20_dedup" (some ⟨duplicate.provenance, some duplicate.method.name⟩) []

-- Drop repeated signatures from each list.
def dropDuplicates (c : Context) : Context :=
  let level := if c.options.warnOnDuplicates then .warning else .info
  let push := Distinct.ofList c.push
  let invoke := Distinct.ofList c.invoke
  let pairs := push.dropped ++ invoke.dropped
  let before := natural (c.push.length + c.invoke.length) ++ " methods"
  let after := natural (push.kept.length + invoke.kept.length) ++ " methods"
  let c := { c with push := push.kept, invoke := invoke.kept,
                    dropped := c.dropped ++ pairs.map (·.1) }
  let c := pairs.foldl (reportDuplicate level) c
  c.note "p20_dedup" "deduplicated" (some before) (some after) (c.dropped.map (·.signatureKey))

-- Run every rule. Without an error so far the contract counts as validated, else it has failed.
def validate (rules : RuleSet) (c : Context) : Context :=
  let source := "p30_validate"
  let found := rules.checkAll c.subject
  let c := found.foldl (fun c (r, v) =>
    c.report .error r.code v.message source (some v.location) v.fixes) c
  let c :=
    if c.hasErrors then { c with status := .failed }
    else { c with validated := some ⟨c.contract, c.push, c.invoke⟩ }
  c.note source "validated" none
    (some ("violations=" ++ natural found.length ++ ", status=" ++ c.status.name)) []

def reportShared (c : Context) (pair : String × Registration) : Context :=
  let (first, r) := pair
  c.report .warning .sharedWireName
    ("Push methods " ++ first ++ " and " ++ r.thunkName ++ " both handle '" ++ r.wireName ++
      "'; each incoming event runs both, and no fake can be generated")
    "p40_synthesize" (some ⟨c.contract.name, some r.wireName⟩) []

-- Build the binding of a validated contract.
def synthesize (c : Context) : Except PassFailure Context :=
  match c.validated with
  | none =>
    .error ⟨"Contract '" ++ c.contract.name ++ "' reached synthesis without validation", true⟩
  | some v =>
    let b := ClientBinding.synthesize v c.options
    let c := (ClientBinding.sharedWireNames [] b.registrations).foldl reportShared
      { c with binding := some b }
    .ok (c.note "p40_synthesize" "synthesized_binding" none
      (some (b.moduleName ++ "." ++ b.name)) (b.registrations.map (·.wireName)))

-- Render the source of the binding. The manifest is written into it, which `refusal` says the writer of
-- JSON does not do, and why.
def renderUnless (refusal : Manifest → Option String) (c : Context) : Except PassFailure Context :=
  match c.binding with
  | none => .error ⟨"Contract '" ++ c.contract.name ++ "' has no binding to render", true⟩
  | some b =>
    match refusal b.manifest with
    | some message => .error ⟨message, false⟩
    | none =>
      .ok ({ c with source := some (Source.client b) }.note "p50_render" "rendered_source" none
        (some (b.moduleName ++ ".py")) [])

-- Every manifest whose texts are strings is written. Only half of a surrogate pair, which no string has,
-- cannot be.
def render (c : Context) : Except PassFailure Context := c.renderUnless fun _ => none

-- What a finished contract still lacks.
def missing (c : Context) : List String :=
  (if c.validated.isNone then ["validated contract"] else []) ++
    (if c.binding.isNone then ["binding"] else []) ++
    (if c.source.isNone then ["source"] else [])

-- The final check that everything was produced.
def package (c : Context) : Context :=
  let source := "p90_package"
  let lacking := c.missing
  let c := lacking.foldl (fun c what =>
    c.report .error .passError ("No " ++ what ++ " produced for '" ++ c.contract.name ++ "'") source
      none []) c
  let c := if lacking.isEmpty then c else { c with status := .failed }
  c.note source "packaged" none (some ("status=" ++ c.status.name)) []

end Context

namespace Pass

def checkMarker : Pass := ⟨"check_marker", fun _ c => .ok c.checkMarker⟩
def walk : Pass := ⟨"walk", fun _ c => .ok c.walk⟩
def dropDuplicates : Pass := ⟨"dedup", fun _ c => .ok c.dropDuplicates⟩
def validate : Pass := ⟨"validate", fun rules c => .ok (c.validate rules)⟩
def synthesize : Pass := ⟨"synthesize", fun _ c => c.synthesize⟩
def renderUnless (refusal : Manifest → Option String) : Pass :=
  ⟨"render", fun _ c => c.renderUnless refusal⟩
def render : Pass := ⟨"render", fun _ c => c.render⟩
def package : Pass := ⟨"package", fun _ c => .ok c.package⟩

-- The passes of the default pipeline, with a writer that may refuse manifests.
def standardUnless (refusal : Manifest → Option String) : List Pass :=
  [checkMarker, walk, dropDuplicates, validate, synthesize, renderUnless refusal, package]

-- The passes of the default pipeline.
def standard : List Pass :=
  [checkMarker, walk, dropDuplicates, validate, synthesize, render, package]

theorem standardUnless_none : standardUnless (fun _ => none) = standard := rfl

end HubContract.Pass
