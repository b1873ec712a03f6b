import HubContract.Proofs.Data.Reading
import HubContract.Proofs.Document.Canonical

namespace HubContract

-- What the reading does at a place where something is wrong: it refuses the data, or it trips over them.
inductive Hurdle where
  | refusal
  | fault (f : Fault)
  deriving DecidableEq, Repr

namespace Data

def isText : Data → Bool
  | .str _ | .loose _ => true
  | _ => false

def isNull : Data → Bool
  | .null => true
  | _ => false

def isMapping (d : Data) : Bool :=
  match d.opened with
  | .mapping _ => true
  | _ => false

def keys (d : Data) : List Data :=
  match d.opened with
  | .mapping es => es.map (·.1)
  | _ => []

-- Whether a value can be read as a text.
def isReadable (d : Data) : Bool := d.checkString.isOk

end Data

namespace Hurdle

open Document Data

-- One that is met unless a condition holds.
def expect (holds : Bool) (h : Hurdle) : List Hurdle := if holds then [] else [h]

-- One that is met with a message that shows values, which is not made if a number in them is too long.
def showing (values : List Data) (h : Hurdle) : Hurdle :=
  if values.all isShowable then h else .fault .value

-- What a loop over a field goes through, which has to be something to go through.
def loop (field : Option Data) : List Hurdle :=
  expect (field.all fun d => !d.isTruthy || d.iterate?.isSome) (.fault .kind)

def items (field : Option Data) : List Data := ((field.filter isTruthy).bind iterate?).getD []

-- Names that are not known are refused with all of them in the message, which takes texts only.
def unknown (found : List Data) (known : List String) (shown : List Data) : List Hurdle :=
  expect (unknownOf found known).isEmpty
    (showing shown (if (unknownOf found known).all isText then .refusal else .fault .kind))

-- What is wrong with a parameter: a field that is missing, a type that has no text, a name that is none.
def ofParameter (owner method d : Data) : List Hurdle :=
  expect ((named? d).isSome && (d.get? "type").isSome) (showing [owner, method, d] .refusal) ++
  expect ((d.get? "type").all isShowable) (.fault .value) ++
  expect ((named? d).all isReadable) (showing [owner] .refusal)

def ofMethodMarkers (owner method : Data) (field : Option Data) : List Hurdle :=
  loop field ++
  expect ((items field).all isHashable) (.fault .kind) ++
  unknown (items field) ["invoke"] [owner, method]

-- What is wrong with a method, its parameters in turn, and last with the fields that are checked together.
def ofMethod (owner d : Data) : List Hurdle :=
  let name := (named? d).getD .null
  expect (named? d).isSome (showing [owner, d] .refusal) ++
  ofMethodMarkers owner name (d.get? "markers") ++
  loop (d.get? "params") ++
  (items (d.get? "params")).flatMap (ofParameter owner name) ++
  expect ((d.get? "returns").all isShowable) (.fault .value) ++
  expect (name.isReadable && owner.isReadable) (showing [owner] .refusal)

def isAddress (field : Option Data) : Bool := field.all fun u => !u.isTruthy || u.isReadable

def isOptional (field : Option Data) : Bool := field.all fun v => v.isNull || v.isReadable

def ofHubMarker (owner d : Data) : List Hurdle :=
  expect (d.opened.isNull || d.isMapping) (showing [owner] .refusal) ++
  expect (isAddress (d.get? "uri") && isOptional (d.get? "name") && isOptional (d.get? "push") &&
    isOptional (d.get? "invoke")) (showing [owner] .refusal)

-- What stands in a field, null if nothing does.
def present (field : Option Data) : Data := (field.filter isTruthy).getD .null

-- What is wrong with a declaration. The methods come before the names that it extends.
def ofDeclaration (d : Data) : List Hurdle :=
  let name := (named? d).getD .null
  let markers := present (d.get? "markers")
  expect (named? d).isSome (showing [d] .refusal) ++
  expect (markers.isNull || markers.isMapping) (showing [name] .refusal) ++
  unknown markers.keys ["hub_client"] [name] ++
  (markers.get? "hub_client").toList.flatMap (ofHubMarker name) ++
  loop (d.get? "methods") ++
  (items (d.get? "methods")).flatMap (ofMethod name) ++
  loop (d.get? "extends") ++
  -- a single name is a parent as it stands, and its characters could be read as well
  expect (name.isReadable && (items (d.get? "extends")).all isReadable) (showing [name] .refusal)

-- The name of a declaration, if it has one that can be read.
def nameOf? (d : Data) : Option String := (named? d).bind fun name => name.checkString.toOption

-- Declarations in turn, behind others of the given names.
def ofDeclarations (seen : List String) : List Data → List Hurdle
  | [] => []
  | d :: ds =>
    ofDeclaration d ++ expect (!(nameOf? d).any seen.contains) .refusal ++
    ofDeclarations ((nameOf? d).toList ++ seen) ds

def isNames (d : Data) : Bool :=
  match d.opened with
  | .list xs => xs.all isText
  | _ => false

def ofFakes (field : Option Data) : List Hurdle :=
  expect (field.all fun d => !d.isTruthy || isNames d) .refusal

-- All that is wrong with a document.
def ofDocument (x : Data) : List Hurdle :=
  expect (x.opened.isNull || x.isMapping) .refusal ++
  unknown x.keys ["declarations", "fakes"] [] ++
  loop (x.get? "declarations") ++
  ofDeclarations [] (items (x.get? "declarations")) ++
  ofFakes (x.get? "fakes")

end Hurdle

namespace Document

open Data Hurdle

-- A reading that succeeds where nothing is wrong, and else ends at the first of what is wrong.
inductive Follows : Read α → List Hurdle → Prop where
  | done (a : α) : Follows (.ok a) []
  | refused (e : ShapeError) (later : List Hurdle) : Follows (.error (.shape e)) (.refusal :: later)
  | tripped (f : Fault) (later : List Hurdle) : Follows (.error (.fault f)) (.fault f :: later)

namespace Follows

variable {r r' : Read α} {next : α → Read β} {hs later : List Hurdle} {h : Hurdle} {c : Bool}
  {field : Option Data} {owner d : Data} {values : List Data}

-- A reading that goes on where another one succeeds.
theorem bind (first : Follows r hs) (rest : ∀ a, r = .ok a → Follows (next a) later) :
    Follows (r >>= next) (hs ++ later) := by
  cases first with
  | done a => exact rest a rfl
  | refused e hs => exact .refused e (hs ++ later)
  | tripped f hs => exact .tripped f (hs ++ later)

theorem map (first : Follows r hs) (f : α → β) : Follows (f <$> r) hs := by
  cases first with
  | done a => exact .done (f a)
  | refused e later => exact .refused e later
  | tripped f later => exact .tripped f later

theorem eq_fault {f : Fault} (fails : Follows r (.fault f :: later)) : r = .error (.fault f) := by
  cases fails
  rfl

-- Where a reading has failed, nothing that comes later matters.
theorem stop (fails : Follows r [h]) : Follows r (h :: later) := by
  cases fails with
  | refused e => exact .refused e later
  | tripped f => exact .tripped f later

theorem halt (fails : Follows r [h]) : Follows (r >>= next) (h :: later) := by
  cases fails with
  | refused e => exact .refused e later
  | tripped f => exact .tripped f later

-- A place at which a condition has to hold.
theorem place (holds : c = true → Follows r hs) (fails : c = false → Follows r [h]) :
    Follows r (expect c h ++ hs) := by
  cases c with
  | true => exact holds rfl
  | false => exact (fails rfl).stop

theorem branch (holds : c = true → Follows r hs) (fails : Follows r' [h]) :
    Follows (if c = true then r else r') (expect c h ++ hs) := by
  cases c with
  | true => exact holds rfl
  | false => exact fails.stop

theorem given (rest : Follows r hs) : Follows r (expect true h ++ hs) := rest

theorem mapM {f : γ → Read β} {wrong : γ → List Hurdle} (each : ∀ x, Follows (f x) (wrong x))
    (xs : List γ) : Follows (xs.mapM f) (xs.flatMap wrong) := by
  induction xs with
  | nil => exact .done []
  | cons x xs ih =>
    rw [List.mapM_cons, List.flatMap_cons]
    exact (each x).bind fun b _ => ih.map (b :: ·)

theorem mapM_option {f : γ → Read β} {wrong : γ → List Hurdle} (each : ∀ x, Follows (f x) (wrong x))
    (o : Option γ) : Follows (o.mapM f) (o.toList.flatMap wrong) := by
  cases o with
  | none => exact .done none
  | some x =>
    rw [Option.toList_some, List.flatMap_singleton]
    exact (each x).map some

theorem shown (d : Data) : Follows (Document.shown d) (expect d.isShowable (.fault .value)) := by
  unfold Document.shown
  cases d.isShowable with
  | true => exact .done _
  | false => exact .tripped _ _

-- A refusal whose message shows one more value.
theorem showing_cons {next : String → Read α} (rest : ∀ text, Follows (next text) [showing values h]) :
    Follows (Document.shown d >>= next) [showing (d :: values) h] := by
  rw [Document.shown, Hurdle.showing, List.all_cons]
  cases d.isShowable with
  | true => exact rest _
  | false => exact .tripped _ _

theorem refuse (e : ShapeError) : Follows (Document.refuse e : Read α) [showing [] .refusal] := .refused e _

theorem refuseShowing (d : Data) (e : ShapeError) :
    Follows (Document.refuseShowing d e : Read α) [showing [d] .refusal] := by
  rw [Document.refuseShowing, Hurdle.showing, List.all_cons, List.all_nil, Bool.and_true]
  cases d.isShowable with
  | true => exact .refused e _
  | false => exact .tripped _ _

theorem validated {check : Check α} (fine : check.isOk = c) :
    Follows (Document.validated owner check) (expect c (showing [owner] .refusal)) := by
  rw [← fine]
  cases check with
  | ok a => exact .done a
  | bad issues => exact showing_cons fun _ => refuse _

-- A loop over a field.
theorem loop {next : List Data → Read β} (rest : Follows (next (items field)) later) :
    Follows (itemsOf field >>= next) (Hurdle.loop field ++ later) := by
  cases field with
  | none => exact rest
  | some d =>
    rw [items, Option.filter_some] at rest
    rw [itemsOf, Hurdle.loop, Option.all_some]
    cases truthy : d.isTruthy with
    | false =>
      rw [truthy] at rest
      exact rest
    | true =>
      rw [truthy, if_pos rfl, Option.bind_some] at rest
      cases run : d.iterate? with
      | none => exact .tripped _ _
      | some xs =>
        rw [run] at rest
        exact rest

-- Two places in a row at which the same is wrong.
theorem both {b : Bool} (apart : Follows r (expect b h ++ expect c h)) : Follows r (expect (b && c) h) := by
  cases b with
  | true => exact apart
  | false =>
    cases apart with
    | refused e => exact .refused e _
    | tripped f => exact .tripped f _

theorem namesOf (ds : List Data) :
    Follows (Document.namesOf ds) (expect (ds.all isText) (.fault .kind)) := by
  refine map ?_ Text.sorted
  induction ds with
  | nil => exact .done []
  | cons d ds ih =>
    rw [List.mapM_cons, List.all_cons]
    refine both (bind ?_ fun name _ => ih.map (name :: ·))
    cases d with
    | str | loose => exact .done _
    | _ => exact .tripped _ _

-- A refusal whose message lists names.
theorem refuseNames (ds : List Data) (e : List String → ShapeError) :
    Follows (Document.namesOf ds >>= fun names => Document.refuse (e names) : Read α)
      [showing [] (if ds.all isText then .refusal else .fault .kind)] := by
  have names := namesOf ds
  cases texts : ds.all isText with
  | true =>
    rw [texts] at names
    exact names.bind fun names _ => .refuse (e names)
  | false =>
    rw [texts] at names
    rw [eq_fault names]
    exact .tripped _ _

theorem parameterOf (owner method d : Data) :
    Follows (Document.parameterOf owner method d) (ofParameter owner method d) := by
  rw [Document.parameterOf, ofParameter]
  simp only [List.append_assoc]
  cases named : named? d with
  | none => exact stop (showing_cons fun _ => showing_cons fun _ => .refuseShowing _ _)
  | some name =>
    cases typed : d.get? "type" with
    | none => exact stop (showing_cons fun _ => showing_cons fun _ => .refuseShowing _ _)
    | some type =>
      refine given (bind (.shown type) fun text _ => ?_)
      refine .validated ?_
      rw [Check.isOk_map, Check.isOk_under]
      rfl

theorem returnsOf (field : Option Data) :
    Follows (Document.returnsOf field) (expect (field.all isShowable) (.fault .value)) := by
  unfold Document.returnsOf
  split
  next => exact .done _
  next => exact .done _
  next d _ => exact (Follows.shown d).map ReturnType.parse

theorem methodMarkersOf (owner method : Data) (field : Option Data) :
    Follows (Document.methodMarkersOf owner method field) (ofMethodMarkers owner method field) := by
  rw [Document.methodMarkersOf, ofMethodMarkers, List.append_assoc]
  refine loop (branch (fun _ => ?_) (.tripped _ _))
  rw [Hurdle.unknown, ← List.append_nil (expect _ _)]
  exact branch (fun _ => .done _) (showing_cons fun _ => showing_cons fun _ => refuseNames _ _)

theorem methodOf (owner d : Data) : Follows (Document.methodOf owner d) (ofMethod owner d) := by
  rw [Document.methodOf, ofMethod]
  simp only [List.append_assoc]
  cases named : named? d with
  | none => exact stop (showing_cons fun _ => .refuseShowing _ _)
  | some name =>
    refine given (bind (methodMarkersOf owner name _) fun invoke _ => ?_)
    refine loop (bind (mapM (parameterOf owner name) _) fun parameters _ => ?_)
    refine bind (returnsOf _) fun returns _ => ?_
    refine .validated ?_
    rw [Check.isOk_seq, Check.isOk_map, Check.isOk_under, Check.isOk_under]
    rfl

theorem isOk_checkOptional (field : Option Data) :
    (checkOptional checkString (field.getD .null)).isOk = isOptional field := by
  cases field with
  | none => rfl
  | some v =>
    cases v with
    | null => rfl
    | _ => exact Check.isOk_map some _

theorem isOk_address (field : Option Data) :
    (checkString (match field with
      | some u => if u.isTruthy = true then u else .str ""
      | none => .str "")).isOk = isAddress field := by
  cases field with
  | none => rfl
  | some u =>
    dsimp only
    rw [isAddress, Option.all_some]
    cases u.isTruthy with
    | true => rfl
    | false => rfl

theorem hubMarkerOf (owner d : Data) : Follows (Document.hubMarkerOf owner d) (ofHubMarker owner d) := by
  unfold Document.hubMarkerOf
  extract_lets read
  have fields (r : Data) : Follows (read r) (expect (isAddress (r.get? "uri") && isOptional (r.get? "name") &&
      isOptional (r.get? "push") && isOptional (r.get? "invoke")) (showing [owner] .refusal)) := by
    unfold read
    extract_lets address optional whole
    have readable : address.checkString.isOk = isAddress (r.get? "uri") := isOk_address _
    have fine : whole.isOk = (isAddress (r.get? "uri") && isOptional (r.get? "name") &&
        isOptional (r.get? "push") && isOptional (r.get? "invoke")) := by
      simp only [whole, optional, Check.isOk_seq, Check.isOk_map, Check.isOk_under, readable,
        isOk_checkOptional]
    rw [← fine]
    clear_value whole
    cases whole with
    | ok marker => exact .done marker
    | bad issues => exact showing_cons fun _ => refuse _
  have opened {r : Data} (same : d.opened = r.opened) (key : String) : d.get? key = r.get? key := by
    rw [Data.get?, same, Data.get?]
  unfold ofHubMarker isMapping
  cases seen : d.opened with
  | null =>
    have same : d.opened = Data.null.opened := seen
    simp only [opened same]
    exact given (fields (.mapping []))
  | mapping es =>
    have same : d.opened = (Data.mapping es).opened := seen
    simp only [opened same]
    exact given (fields (.mapping es))
  | _ => exact stop (showing_cons fun _ => refuse _)

-- The markers of a declaration, as the reading uses them.
theorem markersOf {next : List (Data × Data) → Read β}
    (rest : ∀ es, (present field).keys = es.map (·.1) →
      (∀ key, (present field).get? key = lookup key es) → Follows (next es) later) :
    Follows (Document.markersOf owner field >>= next)
      (expect ((present field).isNull || (present field).isMapping) (showing [owner] .refusal) ++ later) := by
  have nothing (absent : present field = .null) : Follows (next [])
      (expect ((present field).isNull || (present field).isMapping) (showing [owner] .refusal) ++ later) := by
    rw [absent] at rest ⊢
    exact given (rest [] rfl fun _ => rfl)
  cases field with
  | none => exact nothing rfl
  | some m =>
    rw [Document.markersOf]
    cases truthy : m.isTruthy with
    | false => exact nothing (by rw [present, Option.filter_some, truthy]; rfl)
    | true =>
      have here : present (some m) = m := by rw [present, Option.filter_some, truthy]; rfl
      rw [here] at rest ⊢
      unfold isMapping
      unfold keys at rest
      unfold Data.get? at rest
      cases seen : m.opened with
      | mapping es =>
        rw [seen] at rest
        rw [Bool.or_true]
        exact given (rest es rfl fun _ => rfl)
      | _ =>
        have notNull : m.isNull = false := by
          cases m with
          | null => cases truthy
          | _ => rfl
        rw [notNull]
        exact halt (showing_cons fun _ => refuse _)

-- A value that is gone through without anything in it that could not be read.
theorem readable_items (run : d.iterate? = some xs) (readable : xs.all isReadable = true) :
    Hurdle.loop (some d) = [] ∧ (items (some d)).all isReadable = true := by
  constructor
  · rw [Hurdle.loop, Option.all_some, run, Option.isSome_some, Bool.or_true]
    rfl
  · rw [items, Option.filter_some]
    cases d.isTruthy with
    | true => simpa [run] using readable
    | false => rfl

-- The parents of a declaration. A single one is a parent as it stands, not a list of characters.
theorem parentsOf {next : List Data → Read β}
    (rest : ∀ ps, ps.all isReadable = (items field).all isReadable → Follows (next ps) later) :
    Follows (Document.parentsOf field >>= next) (Hurdle.loop field ++ later) := by
  unfold Document.parentsOf
  split
  next s =>
    have run : (Data.str s).iterate? = some (s.toList.map fun c => .str (String.singleton c)) := rfl
    obtain ⟨loops, readable⟩ := readable_items run (by
      rw [List.all_map, List.all_eq_true]
      exact fun _ _ => rfl)
    rw [readable] at rest
    rw [loops]
    refine rest _ ?_
    split
    next => rfl
    next => rfl
  next codes =>
    have run : (Data.loose codes).iterate? = some (codes.map fun n => ofWritten (.ofCodes [n])) := rfl
    have each (w : Text.Written) : (ofWritten w).isReadable = true := by
      cases w with
      | whole s => rfl
      | loose codes => rfl
    obtain ⟨loops, readable⟩ := readable_items run (by simp [each])
    rw [readable] at rest
    rw [loops]
    exact rest _ rfl
  next => exact loop (rest _ rfl)

theorem isOk_each (ds : List Data) (n : Nat) : (Check.each checkString n ds).isOk = ds.all isReadable := by
  induction ds generalizing n with
  | nil => rfl
  | cons d ds ih =>
    have both : Check.each checkString n (d :: ds) =
        List.cons <$> (checkString d).under (.index n) <*> Check.each checkString (n + 1) ds := rfl
    rw [both, Check.isOk_seq, Check.isOk_map, Check.isOk_under, ih]
    rfl

theorem declarationOf (d : Data) : Follows (Document.declarationOf d) (ofDeclaration d) := by
  rw [Document.declarationOf, ofDeclaration]
  simp only [List.append_assoc]
  cases named : named? d with
  | none => exact stop (.refuseShowing _ _)
  | some name =>
    refine given (markersOf fun markers keys found => ?_)
    rw [Option.getD_some, keys, found]
    refine place (fun known => ?_) fun others => ?_
    · rw [known]
      refine bind (mapM_option (hubMarkerOf name) _) fun hubClient _ => ?_
      refine loop (bind (mapM (methodOf name) _) fun methods _ => ?_)
      refine parentsOf fun parents readable => ?_
      refine .validated ?_
      rw [Check.isOk_seq, Check.isOk_map, Check.isOk_under, Check.isOk_under, isOk_each, readable]
      rfl
    · rw [others]
      exact showing_cons fun _ => refuseNames _ _

-- A declaration keeps the name that is written for it.
theorem nameOf?_of_ok {decl : Declaration} (read : Document.declarationOf d = .ok decl) :
    nameOf? d = some decl.name := by
  unfold Document.declarationOf at read
  split at read
  next =>
    unfold Document.refuseShowing at read
    split at read <;> nomatch read
  next name named =>
    obtain ⟨markers, -, read⟩ := bind_eq_ok_iff.mp read
    dsimp only at read
    split at read
    · obtain ⟨_, -, read⟩ := bind_eq_ok_iff.mp read
      obtain ⟨_, -, read⟩ := bind_eq_ok_iff.mp read
      nomatch read
    · obtain ⟨hubClient, -, read⟩ := bind_eq_ok_iff.mp read
      obtain ⟨items, -, read⟩ := bind_eq_ok_iff.mp read
      obtain ⟨methods, -, read⟩ := bind_eq_ok_iff.mp read
      obtain ⟨parents, -, read⟩ := bind_eq_ok_iff.mp read
      obtain ⟨g, es, known, -, rfl⟩ := Check.seq_eq_ok_iff.mp (validated_eq_ok_iff.mp read)
      obtain ⟨n, text, rfl⟩ := Check.map_eq_ok_iff.mp known
      rw [nameOf?, named, Option.bind_some, Check.under_eq_ok_iff.mp text]
      rfl

theorem declarationsOf (seen : List String) (ds : List Data) :
    Follows (Document.declarationsOf seen ds) (ofDeclarations seen ds) := by
  induction ds generalizing seen with
  | nil => exact .done []
  | cons d ds ih =>
    rw [Document.declarationsOf, ofDeclarations, List.append_assoc]
    refine bind (declarationOf d) fun decl read => ?_
    rw [nameOf?_of_ok read, Option.any_some]
    cases seen.contains decl.name with
    | true => exact stop (refuse _)
    | false => exact given ((ih (decl.name :: seen)).map (decl :: ·))

theorem fakesOf (field : Option Data) : Follows (Document.fakesOf field) (ofFakes field) := by
  unfold Document.fakesOf
  extract_lets names?
  have texts (xs : List Data) : (names? xs).isSome = xs.all isText := by
    induction xs with
    | nil => rfl
    | cons x xs ih =>
      have first (name : String) : (some name >>= fun name => names? xs >>= fun names =>
          some (name :: names)).isSome = (names? xs).isSome := by
        cases names? xs with
        | none => rfl
        | some names => rfl
      rw [List.all_cons, ← ih]
      unfold names? at first ⊢
      rw [List.mapM_cons]
      cases x with
      | str | loose => exact first _
      | _ => rfl
  cases field with
  | none => exact .done _
  | some d =>
    dsimp only
    rw [ofFakes, Option.all_some, isNames]
    cases d.isTruthy with
    | false => exact .done _
    | true =>
      cases d.opened with
      | list xs =>
        dsimp only
        rw [← texts]
        cases names? xs with
        | none => exact refuse _
        | some names => exact .done names
      | _ => exact refuse _

-- The reading of a document ends at the first thing that is wrong with it.
theorem ofData (x : Data) : Follows (Document.ofData x) (ofDocument x) := by
  unfold Document.ofData ofDocument isMapping keys Data.get?
  cases x.opened with
  | null => exact .done _
  | mapping es =>
    simp only [List.append_assoc]
    refine given (place (fun known => ?_) fun others => ?_)
    · rw [known]
      refine loop (bind (declarationsOf [] _) fun declarations _ => ?_)
      exact (fakesOf _).map (Document.mk declarations)
    · rw [others]
      exact refuseNames _ _
  | _ => exact stop (refuse _)

end Follows

end Document

end HubContract
