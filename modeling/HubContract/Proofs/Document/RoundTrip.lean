import HubContract.Document.Writer
import HubContract.Proofs.Document.Canonical
import HubContract.Table

namespace HubContract

open HubContract.Yaml

namespace Yaml.Block

theorem itemsToData_eq_map (xs : List Block) : itemsToData xs = xs.map toData := by
  induction xs with
  | nil => rfl
  | cons x xs ih => rw [itemsToData, ih, List.map_cons]

theorem lookup_entriesToData (key : String) (es : Table Block) :
    Data.lookup key (entriesToData es) = (es.get? key).map toData := by
  induction es with
  | nil => rfl
  | cons e es ih =>
    obtain ⟨k, v⟩ := e
    rw [Table.get?_cons]
    by_cases same : k = key
    · simp [entriesToData, Data.lookup, Data.sameKey, same]
    · rw [if_neg same, ← ih]
      simp [entriesToData, Data.lookup, Data.sameKey, same]

theorem get?_toData (key : String) (es : Table Block) :
    (toData (.mapping es)).get? key = (es.get? key).map toData := by
  rw [toData, ← lookup_entriesToData]
  rfl

theorem exists_key_of_mem_entriesToData {es : List (String × Block)} {e : Data × Data}
    (inside : e ∈ entriesToData es) : ∃ key, e.1 = .str key := by
  induction es with
  | nil => cases inside
  | cons entry es ih =>
    obtain rfl | later := List.mem_cons.mp inside
    · exact ⟨entry.1, rfl⟩
    · exact ih later

end Yaml.Block

open Yaml.Block

namespace Document

-- What is written for a list, which is nothing if it is empty.
def list? (f : α → Block) (xs : List α) : Option Block :=
  if xs.isEmpty then none else some (.list (xs.map f))

theorem get?_listed (key k : String) (f : α → Block) (xs : List α) :
    Table.get? (listed k f xs) key = if k = key then list? f xs else none := by
  by_cases empty : xs.isEmpty <;> simp [listed, list?, empty, Table.get?_cons]

-- Either way reading finds the items.
theorem itemsOf_list? (f : α → Block) (xs : List α) :
    itemsOf ((list? f xs).map Block.toData) = .ok (xs.map fun x => (f x).toData) := by
  cases xs with
  | nil => rfl
  | cons x xs =>
    simp [list?, itemsOf, Block.toData, itemsToData_eq_map, Data.isTruthy, Data.iterate?, Data.opened]

theorem mapM_map_eq_ok {read : β → Read α} {write : α → β} {xs : List α}
    (h : ∀ x ∈ xs, read (write x) = .ok x) : (xs.map write).mapM read = .ok xs := by
  induction xs with
  | nil => rfl
  | cons x xs ih =>
    obtain ⟨first, rest⟩ := List.forall_mem_cons.mp h
    rw [List.map_cons, List.mapM_cons, first, ih rest]
    rfl

theorem parameterOf_toBlock (owner method : Data) (p : Parameter) :
    parameterOf owner method p.toBlock.toData = .ok p := by
  have name : named? p.toBlock.toData = some (.str p.name) := by
    rw [named?, Parameter.toBlock, get?_toData, Table.get?_cons]
    rfl
  have type : p.toBlock.toData.get? "type" = some (.str p.type) := by
    rw [Parameter.toBlock, get?_toData]
    simp only [Table.get?_cons]
    rfl
  simp only [parameterOf, name, type]
  rfl

theorem unknownOf_known (key : String) : unknownOf [.str key] [key] = [] := by
  simp [unknownOf, Data.insertMember, Data.sameKey]

theorem methodMarkersOf_toBlock (owner method : Data) (invoke : Bool) :
    methodMarkersOf owner method
      ((if invoke then some (Block.list [.text "invoke"]) else none).map Block.toData) =
        .ok invoke := by
  cases invoke with
  | false => rfl
  | true =>
    have found : itemsOf (some (Block.list [.text "invoke"]).toData) = .ok [.str "invoke"] := rfl
    have hashable : [Data.str "invoke"].all Data.isHashable = true := by simp [Data.isHashable]
    have marked : [Data.str "invoke"].any (Data.sameKey · (.str "invoke")) = true := by
      simp [Data.sameKey]
    simp only [if_true, Option.map_some, methodMarkersOf, found, bind, Except.bind, hashable,
      unknownOf_known, marked]
    rfl

-- A return type of the usual kind is left out, and this is what an absent one is taken for.
theorem returnsOf_toBlock {r : ReturnType} (written : r.IsWritten) :
    returnsOf ((if r.kind = .unitAsync then none else some (Block.text r.text)).map Block.toData) =
      .ok r := by
  by_cases usual : r.kind = .unitAsync
  · have text : r.text = ReturnType.unitAsync.text := by simp [ReturnType.text, usual]; rfl
    have same : r = .unitAsync := by
      rw [← written, text]
      exact ReturnType.isWritten_unitAsync
    rw [if_pos usual, same]
    rfl
  · rw [if_neg usual]
    exact congrArg Except.ok written

theorem get?_method (m : Method) (key : String) :
    m.toBlock.toData.get? key =
      (if "name" = key then some (Block.text m.name)
        else ((if "params" = key then list? Parameter.toBlock m.parameters else none).or
          (if m.returns.kind = .unitAsync then none
            else if "returns" = key then some (.text m.returns.text) else none)).or
          (if m.invoke then if "markers" = key then some (.list [.text "invoke"]) else none
            else none)).map Block.toData := by
  rw [Method.toBlock, get?_toData]
  simp only [List.cons_append, Table.get?_cons, Table.get?_append, Table.get?_ite, get?_listed,
    Table.get?_nil]

theorem methodOf_toBlock {m : Method} (written : m.returns.IsWritten) :
    methodOf (.str m.owner) m.toBlock.toData = .ok m := by
  have name : named? m.toBlock.toData = some (.str m.name) := by
    simp [named?, get?_method, Block.toData]
  have markers : m.toBlock.toData.get? "markers" =
      (if m.invoke then some (Block.list [.text "invoke"]) else none).map Block.toData := by
    simp [get?_method]
  have params : m.toBlock.toData.get? "params" =
      (list? Parameter.toBlock m.parameters).map Block.toData := by
    simp [get?_method]
  have returns : m.toBlock.toData.get? "returns" =
      (if m.returns.kind = .unitAsync then none else some (Block.text m.returns.text)).map
        Block.toData := by
    simp [get?_method]
  have read := mapM_map_eq_ok fun p (_ : p ∈ m.parameters) =>
    parameterOf_toBlock (.str m.owner) (.str m.name) p
  simp only [methodOf, name, markers, params, returns, methodMarkersOf_toBlock, itemsOf_list?, read,
    returnsOf_toBlock written, bind, Except.bind]
  rfl

theorem get?_hubMarker (h : HubMarker) (key : String) :
    h.toBlock.toData.get? key =
      (if "uri" = key then some (Block.text h.uri)
        else ((if "name" = key then h.name.map .text else none).or
          (if "push" = key then h.push.map .text else none)).or
          (if "invoke" = key then h.invoke.map .text else none)).map Block.toData := by
  have optional (k : String) (v : Option String) :
      Table.get? (v.toList.map fun s => (k, Block.text s)) key =
        if k = key then v.map Block.text else none := by
    cases v <;> simp [Table.get?_cons]
  rw [HubMarker.toBlock, get?_toData]
  simp only [List.cons_append, Table.get?_cons, Table.get?_append, optional]

-- An empty address counts as absent, and an absent one is empty.
theorem hubMarkerOf_toBlock (owner : Data) (h : HubMarker) :
    hubMarkerOf owner h.toBlock.toData = .ok h := by
  have texts (v : Option String) : (v.map Block.text).map Block.toData = v.map .str := by
    cases v <;> rfl
  have uri : h.toBlock.toData.get? "uri" = some (.str h.uri) := by
    simp [get?_hubMarker, Block.toData]
  have name : h.toBlock.toData.get? "name" = h.name.map .str := by
    rw [← texts]
    simp [get?_hubMarker]
  have push : h.toBlock.toData.get? "push" = h.push.map .str := by
    rw [← texts]
    simp [get?_hubMarker]
  have invoke : h.toBlock.toData.get? "invoke" = h.invoke.map .str := by
    rw [← texts]
    simp [get?_hubMarker]
  have optional (v : Option String) :
      ((v.map Data.str).getD .null).checkOptional Data.checkString = .ok v := by
    cases v <;> rfl
  have address : (if (Data.str h.uri).isTruthy then Data.str h.uri else .str "") = .str h.uri := by
    by_cases empty : h.uri = "" <;> simp [Data.isTruthy, empty]
  obtain ⟨es, eq⟩ : ∃ es, h.toBlock.toData = .mapping es := ⟨_, rfl⟩
  rw [eq] at uri name push invoke ⊢
  simp only [hubMarkerOf, Data.opened, uri, name, push, invoke, optional, address]
  rfl

theorem get?_declaration (e : Declaration) (key : String) :
    e.toBlock.toData.get? key =
      (if "name" = key then some (Block.text e.name)
        else ((if "extends" = key then list? .text e.parents else none).or
          (if "methods" = key then list? Method.toBlock e.methods else none)).or
          (if "markers" = key then e.hubClient.map fun h => .mapping [("hub_client", h.toBlock)]
            else none)).map Block.toData := by
  have markers : Table.get? (e.hubClient.toList.map fun h =>
      ("markers", Block.mapping [("hub_client", h.toBlock)])) key =
        if "markers" = key then e.hubClient.map fun h => .mapping [("hub_client", h.toBlock)]
        else none := by
    cases e.hubClient <;> simp [Table.get?_cons]
  rw [Declaration.toBlock, get?_toData]
  simp only [List.cons_append, Table.get?_cons, Table.get?_append, get?_listed, markers]

theorem markersOf_toBlock (owner : Data) (hubClient : Option HubMarker) :
    markersOf owner
        ((hubClient.map fun h => Block.mapping [("hub_client", h.toBlock)]).map Block.toData) =
      .ok (hubClient.toList.map fun h => (.str "hub_client", h.toBlock.toData)) := by
  cases hubClient <;> rfl

theorem each_checkString (n : Nat) (names : List String) :
    Check.each Data.checkString n (names.map .str) = .ok names := by
  induction names generalizing n with
  | nil => rfl
  | cons name names ih =>
    rw [List.map_cons, Check.each, ih]
    rfl

theorem parentsOf_list? (names : List String) :
    parentsOf ((list? .text names).map Block.toData) = .ok (names.map .str) := by
  have items := itemsOf_list? Block.text names
  cases names with
  | nil => rfl
  | cons name names => exact items

theorem declarationOf_toBlock {e : Declaration} (h : e.IsCanonical) :
    declarationOf e.toBlock.toData = .ok e := by
  have name : named? e.toBlock.toData = some (.str e.name) := by
    simp [named?, get?_declaration, Block.toData]
  have markers : e.toBlock.toData.get? "markers" =
      (e.hubClient.map fun h => Block.mapping [("hub_client", h.toBlock)]).map Block.toData := by
    simp [get?_declaration]
  have methods : e.toBlock.toData.get? "methods" = (list? Method.toBlock e.methods).map Block.toData := by
    simp [get?_declaration]
  have parents : e.toBlock.toData.get? "extends" = (list? .text e.parents).map Block.toData := by
    simp [get?_declaration]
  have known : unknownOf ((e.hubClient.toList.map fun h =>
      (Data.str "hub_client", h.toBlock.toData)).map (·.1)) ["hub_client"] = [] := by
    cases e.hubClient with
    | none => rfl
    | some h => exact unknownOf_known "hub_client"
  have client : (Data.lookup "hub_client" (e.hubClient.toList.map fun h =>
      (Data.str "hub_client", h.toBlock.toData))).mapM (hubMarkerOf (.str e.name)) =
        .ok e.hubClient := by
    cases e.hubClient with
    | none => rfl
    | some h =>
      have found : Data.lookup "hub_client" [(Data.str "hub_client", h.toBlock.toData)] =
          some h.toBlock.toData := by
        simp [Data.lookup, Data.sameKey]
      simp only [Option.toList_some, List.map_cons, List.map_nil, found, Option.mapM_some,
        hubMarkerOf_toBlock]
      rfl
  have read : (e.methods.map fun m => m.toBlock.toData).mapM (methodOf (.str e.name)) =
      .ok e.methods := by
    refine mapM_map_eq_ok fun m hm => ?_
    rw [← h.owned m hm]
    exact methodOf_toBlock (h.written m hm)
  simp only [declarationOf, name, markers, methods, parents, markersOf_toBlock, known, client,
    itemsOf_list?, read, parentsOf_list?, each_checkString, bind, Except.bind]
  rfl

theorem declarationsOf_toBlock {seen : List String} {es : List Declaration}
    (canonical : ∀ e ∈ es, e.IsCanonical) (nodup : (es.map (·.name)).Nodup)
    (unseen : ∀ e ∈ es, e.name ∉ seen) :
    declarationsOf seen (es.map fun e => e.toBlock.toData) = .ok es := by
  induction es generalizing seen with
  | nil => rfl
  | cons e es ih =>
    obtain ⟨first, rest⟩ := List.forall_mem_cons.mp canonical
    obtain ⟨fresh, others⟩ := List.nodup_cons.mp nodup
    obtain ⟨unmet, later⟩ := List.forall_mem_cons.mp unseen
    have unmetLater : ∀ f ∈ es, f.name ∉ e.name :: seen := fun f hf named => by
      rcases List.mem_cons.mp named with named | named
      · exact fresh (List.mem_map.mpr ⟨f, hf, named⟩)
      · exact later f hf named
    have read := ih rest others unmetLater
    have new : seen.contains e.name = false := by simpa using unmet
    simp only [List.map_cons, declarationsOf, declarationOf_toBlock first, new, read, bind, Except.bind]
    rfl

theorem mapM_str_text (names : List String) :
    (names.map Data.str).mapM (fun d => match d with
      | .str _ | .loose _ => some d.text
      | _ => none) = some names := by
  induction names with
  | nil => rfl
  | cons name names ih =>
    rw [List.map_cons, List.mapM_cons, ih]
    rfl

theorem fakesOf_list? (fakes : List String) :
    fakesOf ((list? .text fakes).map Block.toData) = .ok fakes := by
  cases fakes with
  | nil => rfl
  | cons name fakes =>
    have written : (list? Block.text (name :: fakes)).map Block.toData =
        some (.list ((name :: fakes).map .str)) := by
      simp [list?, Block.toData, itemsToData_eq_map]
    have truthy : (Data.list ((name :: fakes).map .str)).isTruthy = true := by
      simp [Data.isTruthy]
    have texts := mapM_str_text (name :: fakes)
    rw [written, fakesOf]
    simp only [truthy, if_true, Data.opened]
    split
    case h_1 found =>
      obtain rfl := Option.some.inj (found.symm.trans texts)
      rfl
    case h_2 absent => nomatch absent.symm.trans texts

theorem ofData_toData {d : Document} (h : d.IsCanonical) : ofData d.toData = .ok d := by
  have opened : d.toData.opened = .mapping (entriesToData d.entries) := rfl
  have known : unknownOf ((entriesToData d.entries).map (·.1)) ["declarations", "fakes"] = [] := by
    have keys : (entriesToData d.entries).map (·.1) =
        if d.fakes.isEmpty then [.str "declarations"] else [.str "declarations", .str "fakes"] := by
      unfold entries listed
      split <;> rfl
    rw [keys]
    split <;> simp [unknownOf, Data.insertMember, Data.sameKey]
  have declarations : Data.lookup "declarations" (entriesToData d.entries) =
      some (Data.list (d.declarations.map fun e => e.toBlock.toData)) := by
    rw [lookup_entriesToData, entries, Table.get?_cons]
    simp [Block.toData, itemsToData_eq_map]
  have fakes : Data.lookup "fakes" (entriesToData d.entries) =
      (list? .text d.fakes).map Block.toData := by
    rw [lookup_entriesToData, entries, Table.get?_cons, get?_listed]
    simp
  have items : itemsOf (some (Data.list (d.declarations.map fun e => e.toBlock.toData))) =
      .ok (d.declarations.map fun e => e.toBlock.toData) := by
    cases d.declarations <;> rfl
  have unseen : ∀ e ∈ d.declarations, e.name ∉ [] := by simp
  have read := declarationsOf_toBlock h.declarations h.distinct unseen
  simp only [ofData, opened, known, declarations, fakes, items, read, fakesOf_list?, bind, Except.bind]
  rfl

-- What is read by itself is read as a document unless it keeps a text that is no string.
theorem ofRead_eq_ok_iff {x : Data} {d : Document} :
    ofRead (.ok x) = .ok d ↔ ofData x = .ok d ∧ Exact.document x = true := by
  simp only [ofRead, bind, Except.bind]
  cases ofData x with
  | error e => simp
  | ok e =>
    cases Exact.document x with
    | true => simp [pure, Except.pure]
    | false => simp [faulty]

namespace Exact

-- All texts in data that are written are strings.

theorem exists_get?_toData (key : String) (b : Block) :
    ∃ o : Option Block, b.toData.get? key = o.map Block.toData := by
  cases b with
  | mapping es => exact ⟨Table.get? es key, get?_toData key es⟩
  | text | list => exact ⟨none, rfl⟩

theorem text_toData (o : Option Block) : text (o.map Block.toData) = true := by
  rcases o with _ | (_ | _ | _) <;> rfl

theorem all_toData {p : Data → Bool} (holds : ∀ b : Block, p b.toData = true) (o : Option Block) :
    all (o.map Block.toData) p = true := by
  cases o with
  | none => rfl
  | some b =>
    refine List.all_eq_true.mpr fun x inside => ?_
    cases b with
    | text s =>
      obtain ⟨c, -, rfl⟩ := List.mem_map.mp inside
      exact holds (.text (String.singleton c))
    | list xs =>
      have inside : x ∈ itemsToData xs := inside
      rw [itemsToData_eq_map] at inside
      obtain ⟨b, -, rfl⟩ := List.mem_map.mp inside
      exact holds b
    | mapping es =>
      obtain ⟨e, entry, rfl⟩ := List.mem_map.mp inside
      obtain ⟨key, same⟩ := exists_key_of_mem_entriesToData entry
      rw [same]
      exact holds (.text key)

theorem fields_toData (names : List String) (b : Block) : fields names b.toData = true := by
  refine List.all_eq_true.mpr fun name _ => ?_
  obtain ⟨o, found⟩ := exists_get?_toData name b
  rw [found]
  exact text_toData o

theorem all_get?_toData {p : Data → Bool} (holds : ∀ b : Block, p b.toData = true) (key : String)
    (b : Block) : all (b.toData.get? key) p = true := by
  obtain ⟨o, found⟩ := exists_get?_toData key b
  rw [found]
  exact all_toData holds o

theorem method_toData (b : Block) : method b.toData = true := by
  rw [method, fields_toData, all_get?_toData (fields_toData _)]
  rfl

theorem declaration_toData (b : Block) : declaration b.toData = true := by
  have marked : (((b.toData.get? "markers").bind (Data.get? "hub_client")).map marker).getD true = true := by
    obtain ⟨o, found⟩ := exists_get?_toData "markers" b
    rw [found]
    cases o with
    | none => rfl
    | some m =>
      obtain ⟨h, found⟩ := exists_get?_toData "hub_client" m
      rw [Option.map_some, Option.bind_some, found]
      cases h with
      | none => rfl
      | some h => exact fields_toData _ h
  rw [declaration, fields_toData, all_get?_toData method_toData,
    all_get?_toData fun b => text_toData (some b), marked]
  rfl

theorem document_toData (b : Block) : document b.toData = true := by
  rw [document, all_get?_toData declaration_toData, all_get?_toData fun b => text_toData (some b)]
  rfl

end Exact

-- What is written for a document that was read and then changed by any fixes is read as that
-- document, as data and so as any text that holds the data.
theorem ofData_toData_of_applyAll {x : Data} {d d' : Document} {fixes : List Fix}
    (read : ofData x = .ok d) (applied : d.applyAll fixes = .ok d') :
    ofData d'.toData = .ok d' ∧ (Yaml.read d'.toYaml = .ok d'.toData → ofYaml d'.toYaml = .ok d') := by
  have back := ofData_toData ((isCanonical_of_ofData read).applyAll applied)
  refine ⟨back, fun text => ?_⟩
  rw [ofYaml, text]
  exact ofRead_eq_ok_iff.mpr ⟨back, Exact.document_toData (.mapping d'.entries)⟩

def roomData : Data :=
  let method : Data := .mapping [(.str "name", .str "Joined"), (.str "returns", .str " Task[ int ] "),
    (.str "params", .list [.mapping [(.str "name", .str "who"), (.str "type", .str "str")]])]
  .mapping [
    (.str "declarations", .list [
      .mapping [(.str "name", .str "IRoom"), (.str "extends", .str "IHall"), (.str "methods", .list [method])],
      .mapping [(.str "name", .str "IHall"),
        (.str "markers", .mapping [(.str "hub_client", .mapping [(.str "uri", .str "/hall")])])]]),
    (.str "fakes", .list [.str "HallClient"])]

def joined : Method where
  name := "Joined"
  parameters := [⟨"who", "str"⟩]
  returns := .valueAsync "int"
  owner := "IRoom"

def room : Document where
  declarations := [
    { name := "IRoom", methods := [joined], parents := ["IHall"] },
    { name := "IHall", hubClient := some { uri := "/hall" } }]
  fakes := ["HallClient"]

-- The method loses its payload and moves to the hub client.
def roomFixes : List Fix := [
  .of .dropPayload "" "IRoom" joined "None",
  .of .moveToPush "" "IRoom" joined "IHall"]

def hall : Document where
  declarations := [
    { name := "IRoom", parents := ["IHall"] },
    { name := "IHall", methods := [{ joined with returns := ⟨.void, none⟩, owner := "IHall" }],
      hubClient := some { uri := "/hall" } }]
  fakes := ["HallClient"]

theorem ofData_toData_room :
    ofData roomData = .ok room ∧ room.applyAll roomFixes = .ok hall ∧
      ofData hall.toData = .ok hall ∧
        (Yaml.read hall.toYaml = .ok hall.toData → ofYaml hall.toYaml = .ok hall) := by
  have read : ofData roomData = .ok room := by rfl
  have applied : room.applyAll roomFixes = .ok hall := by rfl
  exact ⟨read, applied, ofData_toData_of_applyAll read applied⟩

-- Written as text, an empty address is quoted.
example :
    let bare : Document := ⟨[{ name := "IHub", hubClient := some {} }], []⟩
    (ofYaml bare.toYaml).toOption = some bare := by decide +kernel

end Document

end HubContract
