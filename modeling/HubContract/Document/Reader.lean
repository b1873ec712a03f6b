import HubContract.Data.Check
import HubContract.Data.Literal
import HubContract.Document.Basic
import HubContract.Text.Order
import HubContract.Yaml.Reader

namespace HubContract

open HubContract.Text

-- What is wrong with the shape of a document. Declarations and methods are named as written.
inductive ShapeError where
  | rootNotMapping
  | unknownKeys (keys : List String)
  | duplicateDeclaration (name : String)
  | fakesNotNames
  | declarationNotMapping (value : Data)
  | markersNotMapping (declaration : String)
  | unknownMarkers (declaration : String) (markers : List String)
  | hubMarkerNotMapping (declaration : String)
  | invalidHubMarker (declaration : String) (issues : List Issue)
  | invalidDeclaration (declaration : String) (issues : List Issue)
  | methodNotMapping (declaration : String) (value : Data)
  | unknownMethodMarkers (declaration method : String) (markers : List String)
  | incompleteParameter (declaration method : String) (value : Data)
  deriving Repr

namespace ShapeError

-- The message, without the list of issues that two of the errors carry.
def message : ShapeError → String
  | .rootNotMapping => "Document root must be a mapping"
  | .unknownKeys keys => "Unknown top-level keys: " ++ ", ".intercalate keys
  | .duplicateDeclaration name => "Duplicate declaration: " ++ name
  | .fakesNotNames => "'fakes' must be a list of binding names"
  | .declarationNotMapping value =>
    "Declaration must be a mapping with a name: " ++ value.literal
  | .markersNotMapping d => d ++ ": declaration markers must be a mapping"
  | .unknownMarkers d ms => d ++ ": unknown marker(s): " ++ ", ".intercalate ms
  | .hubMarkerNotMapping d => d ++ ": hub_client marker must be a mapping"
  | .invalidHubMarker d _ => d ++ ": invalid hub_client marker: "
  | .invalidDeclaration d _ => d ++ ": "
  | .methodNotMapping d value => d ++ ": method must be a mapping with a name: " ++ value.literal
  | .unknownMethodMarkers d m ms =>
    d ++ "." ++ m ++ ": unknown method marker(s): " ++ ", ".intercalate ms
  | .incompleteParameter d m value =>
    d ++ "." ++ m ++ ": parameter needs name and type: " ++ value.literal

def issues : ShapeError → List Issue
  | .invalidHubMarker _ is | .invalidDeclaration _ is => is
  | _ => []

end ShapeError

-- Why no document can be read.
inductive LoadError where
  -- the text is no YAML
  | malformed
  | shape (error : ShapeError)
  -- data of a kind that the reading did not expect at this place
  | fault (fault : Fault)
  deriving Repr

namespace Document

abbrev Read := Except LoadError

def refuse (e : ShapeError) : Read α := .error (.shape e)

def faulty (f : Fault) : Read α := .error (.fault f)

-- The text of a value, which a number that is too long does not have.
def shown (d : Data) : Read String := if d.isShowable then .ok d.text else faulty .value

-- Refuse a value that the message shows.
def refuseShowing (d : Data) (e : ShapeError) : Read α :=
  if d.isShowable then refuse e else faulty .value

-- The items of a field, an absent or empty field having none.
def itemsOf (field : Option Data) : Read (List Data) :=
  match field with
  | none => .ok []
  | some d =>
    if d.isTruthy then
      match d.iterate? with
      | some xs => .ok xs
      | none => faulty .kind
    else .ok []

-- What was found but is not known, each once.
def unknownOf (found : List Data) (known : List String) : List Data :=
  (found.foldl Data.insertMember []).filter fun d => !known.any fun k => Data.sameKey d (.str k)

-- Names for a message. They have to be texts.
def namesOf (ds : List Data) : Read (List String) := do
  let names ← ds.mapM fun d =>
    match d with
    | .str _ | .loose _ => (.ok d.text : Read String)
    | _ => faulty .kind
  return sorted names

-- The name in a mapping that has one.
def named? (d : Data) : Option Data := d.get? "name"

-- Nothing but a valid value goes on; otherwise the declaration of that name is not valid.
def validated (declaration : Data) (c : Check α) : Read α :=
  match c with
  | .ok a => .ok a
  | .bad is => do refuse (.invalidDeclaration (← shown declaration) is)

-- A parameter. Whatever stands as its type is taken as text.
def parameterOf (owner method d : Data) : Read Parameter := do
  match named? d, d.get? "type" with
  | some name, some type =>
    let type ← shown type
    validated owner ((Parameter.mk · type) <$> name.checkString.under (.field "name"))
  | _, _ => refuseShowing d (.incompleteParameter (← shown owner) (← shown method) d)

def returnsOf (field : Option Data) : Read ReturnType := do
  match field with
  | none | some .null => return .unitAsync
  | some d => return .parse (← shown d)

-- Method markers: any collection of names of which only `invoke` is known.
def methodMarkersOf (owner method : Data) (field : Option Data) : Read Bool := do
  let found ← itemsOf field
  if found.all Data.isHashable then
    let unknown := unknownOf found ["invoke"]
    if unknown.isEmpty then return found.any fun d => Data.sameKey d (.str "invoke")
    else refuse (.unknownMethodMarkers (← shown owner) (← shown method) (← namesOf unknown))
  else faulty .kind

-- A method of the declaration with the given name.
def methodOf (owner d : Data) : Read Method := do
  match named? d with
  | none =>
    let text ← shown owner
    refuseShowing d (.methodNotMapping text d)
  | some name =>
    let invoke ← methodMarkersOf owner name (d.get? "markers")
    let parameters ← (← itemsOf (d.get? "params")).mapM (parameterOf owner name)
    let returns ← returnsOf (d.get? "returns")
    validated owner ((fun n o => ⟨n, parameters, returns, o, invoke⟩)
      <$> name.checkString.under (.field "name") <*> owner.checkString.under (.field "owner"))

-- The hub client marker. What is absent or empty as an address is the empty address.
def hubMarkerOf (owner d : Data) : Read HubMarker :=
  let read (d : Data) : Read HubMarker :=
    let address : Data :=
      match d.get? "uri" with
      | some u => if u.isTruthy then u else .str ""
      | none => .str ""
    let optional (name : String) : Check (Option String) :=
      ((d.get? name).getD .null).checkOptional Data.checkString |>.under (.field name)
    let checked := HubMarker.mk <$> address.checkString.under (.field "uri")
      <*> optional "name" <*> optional "push" <*> optional "invoke"
    match checked with
    | .ok m => .ok m
    | .bad is => do refuse (.invalidHubMarker (← shown owner) is)
  match d.opened with
  | .null => read (.mapping [])
  | .mapping es => read (.mapping es)
  | _ => do refuse (.hubMarkerNotMapping (← shown owner))

-- The names that a declaration extends; a single one may be written without a list.
def parentsOf (field : Option Data) : Read (List Data) :=
  match field with
  | some (.str s) => .ok (if s = "" then [] else [.str s])
  | some (.loose codes) => .ok [.loose codes]
  | f => itemsOf f

-- The markers of a declaration, none if the field is absent or empty.
def markersOf (owner : Data) (field : Option Data) : Read (List (Data × Data)) := do
  match field with
  | none => return []
  | some m =>
    if m.isTruthy then
      match m.opened with
      | .mapping es => return es
      | _ => refuse (.markersNotMapping (← shown owner))
    else return []

def declarationOf (d : Data) : Read Declaration := do
  match named? d with
  | none => refuseShowing d (.declarationNotMapping d)
  | some name =>
    let markers ← markersOf name (d.get? "markers")
    let unknown := unknownOf (markers.map (·.1)) ["hub_client"]
    if !unknown.isEmpty then refuse (.unknownMarkers (← shown name) (← namesOf unknown))
    else
      let hubClient ← (Data.lookup "hub_client" markers).mapM (hubMarkerOf name)
      let methods ← (← itemsOf (d.get? "methods")).mapM (methodOf name)
      let parents ← parentsOf (d.get? "extends")
      validated name ((fun n es => ⟨n, methods, es, hubClient⟩)
        <$> name.checkString.under (.field "name")
        <*> (Check.each Data.checkString 0 parents).under (.field "extends"))

-- Declarations in turn; no two may have one name.
def declarationsOf (seen : List String) : List Data → Read (List Declaration)
  | [] => .ok []
  | d :: ds => do
    let decl ← declarationOf d
    if seen.contains decl.name then refuse (.duplicateDeclaration decl.name)
    else return decl :: (← declarationsOf (decl.name :: seen) ds)

def fakesOf (field : Option Data) : Read (List String) :=
  let names? (xs : List Data) : Option (List String) :=
    xs.mapM fun d => match d with
      | .str _ | .loose _ => some d.text
      | _ => none
  match field with
  | none => .ok []
  | some d =>
    if d.isTruthy then
      match d.opened with
      | .list xs =>
        match names? xs with
        | some names => .ok names
        | none => refuse .fakesNotNames
      | _ => refuse .fakesNotNames
    else .ok []

-- The document that plain data describes; null is the empty document.
def ofData (d : Data) : Read Document := do
  match d.opened with
  | .null => return {}
  | .mapping es =>
    let unknown := unknownOf (es.map (·.1)) ["declarations", "fakes"]
    if !unknown.isEmpty then refuse (.unknownKeys (← namesOf unknown))
    else
      let declarations ← declarationsOf [] (← itemsOf (Data.lookup "declarations" es))
      let fakes ← fakesOf (Data.lookup "fakes" es)
      return ⟨declarations, fakes⟩
  | _ => refuse .rootNotMapping

namespace Exact

-- Whether a text in this place is a string, which it is if there is none.
def text (field : Option Data) : Bool :=
  match field with
  | some (.loose _) => false
  | _ => true

def all (field : Option Data) (p : Data → Bool) : Bool :=
  ((field.bind Data.iterate?).getD []).all p

def fields (names : List String) (d : Data) : Bool := names.all fun n => text (d.get? n)

def method (d : Data) : Bool :=
  fields ["name", "returns"] d && all (d.get? "params") (fields ["name", "type"])

def marker (d : Data) : Bool := fields ["uri", "name", "push", "invoke"] d

def declaration (d : Data) : Bool :=
  fields ["name", "extends"] d && all (d.get? "methods") method &&
    all (d.get? "extends") (text ∘ some) &&
    (((d.get? "markers").bind (Data.get? "hub_client")).map marker).getD true

-- Whether every text that the document of `d` keeps is a string.
def document (d : Data) : Bool :=
  all (d.get? "declarations") declaration && all (d.get? "fakes") (text ∘ some)

end Exact

-- The document that read data describes. Its texts are strings here, so that one with half of a surrogate
-- pair in a text that it keeps is refused at once. By itself reading takes it, and it is refused when the text
-- is to be written.
def ofRead (d : Except Yaml.ReadError Data) : Read Document :=
  match d with
  | .ok x => do
    let d ← ofData x
    if Exact.document x then return d else faulty .unwritable
  | .error .malformed => .error .malformed
  | .error (.unusable f) => faulty f

-- The document that a YAML text describes.
def ofYaml (text : String) : Read Document := ofRead (Yaml.read text)

-- The document that a file describes.
def ofFile (text : String) : Read Document := ofRead (Yaml.readFile text)

end HubContract.Document
