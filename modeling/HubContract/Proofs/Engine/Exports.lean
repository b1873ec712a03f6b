import HubContract.Proofs.Engine.Artifact

namespace HubContract

open HubContract.Text

namespace Compilation

variable {c : Compilation} {o : Options}

theorem map_bindingName_entriesFrom (used : List String) (bindings : List ClientBinding) :
    (RegistrationHelper.entriesFrom used bindings).map (·.bindingName) = bindings.map (·.name) := by
  induction bindings generalizing used with
  | nil => rfl
  | cons b bindings ih => rw [RegistrationHelper.entriesFrom, List.map_cons, List.map_cons, ih]

theorem exportedNames_synthesize (bindings : List ClientBinding) (o : Options) :
    Source.exportedNames (.synthesize bindings o) =
      bindings.map (·.name) ++ [o.registrationBuilder, o.registrationFunction] := by
  rw [Source.exportedNames, RegistrationHelper.synthesize, map_bindingName_entriesFrom]

-- Bindings with different modules have different names.
theorem IsPackage.nodup_names (package : c.IsPackage o) : (c.bindings.map (·.name)).Nodup := by
  have modules : c.bindings.map (·.moduleName) = (c.bindings.map (·.name)).map Naming.moduleName := by
    rw [List.map_map]
    exact List.map_congr_left fun b inside => package.moduleName_eq inside
  exact List.Nodup.of_map Naming.moduleName (modules ▸ package.distinct)

end Compilation

theorem Outcome.lines_append (front back : List String) :
    Outcome.lines (front ++ back) = Outcome.lines front ++ Outcome.lines back := by
  rw [Outcome.lines, List.map_append, String.join_append]
  rfl

theorem Outcome.lines_cons (line : String) (back : List String) :
    Outcome.lines (line :: back) = line ++ "\n" ++ Outcome.lines back := by
  rw [Outcome.lines, List.map_cons, String.join_cons]
  rfl

namespace Source

theorem intercalate_eq_lines {lines : List String} (some : lines ≠ []) :
    "\n".intercalate lines ++ "\n" = Outcome.lines lines := by
  induction lines with
  | nil => exact absurd rfl some
  | cons line lines ih =>
    rw [Outcome.lines_cons]
    by_cases last : lines = []
    · rw [last, String.intercalate_singleton, show Outcome.lines [] = "" from rfl, String.append_empty]
    · rw [String.intercalate_cons_of_ne_nil last, String.append_assoc, ih last]

-- A text whose last line is not empty has all of its lines.
theorem joined_concat (lines : List String) {line : String} (given : line ≠ "") :
    joined (lines ++ [line]) = Outcome.lines (lines ++ [line]) := by
  rw [joined, List.reverse_append, List.reverse_singleton, List.singleton_append,
    List.dropWhile_cons_of_neg (by simpa using given), List.reverse_cons, List.reverse_reverse,
    intercalate_eq_lines (by simp)]

-- A package ends with the list of what it exports.
theorem exists_package (h : RegistrationHelper) : ∃ front, package h = front ++ "__all__ = [\n" ++
    Outcome.lines ((exportedNames h).map fun n => "    " ++ quoted n ++ ",") ++ "]\n" := by
  obtain ⟨front, lines⟩ : ∃ front, packageLines h = front ++
      "__all__ = [" :: ((exportedNames h).map fun n => "    " ++ quoted n ++ ",") ++ ["]"] :=
    ⟨header "Generated hub clients" ++ h.entries.map importLine ++
      ["from .registration import " ++ h.builderName ++ ", " ++ h.functionName, ""], by simp [packageLines]⟩
  refine ⟨Outcome.lines front, ?_⟩
  rw [package, lines, joined_concat _ (by decide), Outcome.lines_append, Outcome.lines_append,
    Outcome.lines_cons]
  simp only [String.append_assoc]
  rfl

end Source

namespace Engine

open HubContract.Document

variable {rules : RuleSet} {e : Engine}

-- The names that a package exports are distinct exactly if the builder, the function and the bindings are
-- called differently.
theorem exports_distinct_iff (reachable : e.Reachable rules)
    (standard : e.pipelines.lookup "default" = some Pass.standard) (d : Document) (o : Options) :
    let c := (e.compile rules d o none).1.compilation
    ∃ h, c.registration = some h ∧ ("__init__.py", Source.package h) ∈ c.artifacts ∧
      (∃ front, Source.package h = front ++ "__all__ = [\n" ++
        Outcome.lines ((Source.exportedNames h).map fun n => "    " ++ quoted n ++ ",") ++ "]\n") ∧
      Source.exportedNames h =
        c.bindings.map (·.name) ++ [o.registrationBuilder, o.registrationFunction] ∧
      (c.bindings.map (·.name)).Nodup ∧
      ((Source.exportedNames h).Nodup ↔ o.registrationBuilder ≠ o.registrationFunction ∧
        ∀ b ∈ c.bindings, b.name ≠ o.registrationBuilder ∧ b.name ≠ o.registrationFunction) := by
  intro c
  have package : c.IsPackage o := isPackage_compile reachable.sound standard d o
  have names := Compilation.exportedNames_synthesize c.bindings o
  have written : ("__init__.py", Source.package (.synthesize c.bindings o)) ∈ c.artifacts :=
    package.file_mem_artifacts (m := .package _) rfl
  refine ⟨_, package.registration, written, Source.exists_package _, names, package.nodup_names, ?_⟩
  rw [names, List.nodup_append, and_iff_right package.nodup_names]
  simp [List.mem_map]

theorem exports_distinct_iff_chat :
    let c := (standard.compile .builtIn (chatAndFakeChat "ChatClient") {} none).1.compilation
    ∃ h, c.registration = some h ∧ h.entries.length = 2 ∧ (Source.exportedNames h).Nodup := by
  intro c
  obtain ⟨h, made, -, -, names, -, distinct⟩ :=
    exports_distinct_iff reachable_standard rfl (chatAndFakeChat "ChatClient") {}
  have bindings : c.bindings.map (·.name) = ["ChatClient", "FakeChatClient"] := names_chatAndFakeChat _
  have apart : ∀ name ∈ c.bindings.map (·.name),
      name ≠ "HubClientRegistrations" ∧ name ≠ "register_hub_clients" := by
    rw [bindings]
    decide
  refine ⟨h, made, ?_, distinct.mpr ⟨by decide, List.forall_mem_map.mp apart⟩⟩
  have length := congrArg List.length names
  rw [bindings] at length
  simpa [Source.exportedNames] using length

-- One hub client with a friendly name and without methods.
def loneMarker (uri friendly : String) : HubMarker := { uri, name := some friendly }

def loneClient (name uri friendly : String) : Declaration :=
  { name, hubClient := some (loneMarker uri friendly) }

def lone (name uri friendly : String) : Document := ⟨[loneClient name uri friendly], []⟩

theorem lone_clients {name uri friendly : String} {claims : Claims}
    (claimed : claimModule [] name (some friendly) = .ok claims) : (lone name uri friendly).discover.clients =
      [(name, .ok { name, uri, friendlyName := some friendly })] := by
  have found : (lone name uri friendly).get? name = some (loneClient name uri friendly) := by
    simp [lone, loneClient, Document.get?]
  have contract : (lone name uri friendly).IsContract (loneClient name uri friendly) (loneMarker uri friendly)
      { name, uri, friendlyName := some friendly } := ⟨rfl, rfl, rfl, rfl, .none, .none, .nil⟩
  have resolved := resolveClient_eq_ok_iff.mpr ((resolveContract_eq_ok_iff found).mpr contract)
  simp only [discover, lone, loneClient, loneMarker, outcomes, claimed] at resolved ⊢
  rw [resolved]

-- A hub client may be called like the builder.
theorem exports_distinct_iff_hub :
    let d := lone "IHub" "hub" "HubClientRegistrations"
    let c := (standard.compile .builtIn d {} none).1.compilation
    ofData d.toData = .ok d ∧ Options.ofData (.mapping []) = .ok {} ∧
      ∃ h, c.registration = some h ∧
        Source.exportedNames h =
          ["HubClientRegistrations", "HubClientRegistrations", "register_hub_clients"] := by
  intro d c
  have clients : d.discover.clients = [("IHub", .ok _)] := lone_clients (by rfl)
  have names : c.bindings.map (·.name) = ["HubClientRegistrations"] := by
    simp only [c, Compilation.bindings, Engine.compile, clients]
    decide
  have package : c.IsPackage {} := isPackage_compile reachable_standard.sound rfl _ {}
  refine ⟨by rfl, by rfl, _, package.registration, ?_⟩
  rw [Compilation.exportedNames_synthesize, names]
  rfl

end Engine

end HubContract
