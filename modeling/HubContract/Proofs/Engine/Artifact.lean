import HubContract.Command.Session
import HubContract.Proofs.Document.Provenance
import HubContract.Proofs.Engine.Package
import HubContract.Proofs.Naming.Module
import HubContract.Proofs.Source.Literal
import HubContract.Proofs.Text.Line

namespace HubContract

open HubContract.Text

-- A module of a package.
inductive SourceModule where
  | client (b : ClientBinding)
  | registration (h : RegistrationHelper)
  | package (h : RegistrationHelper)
  | fake (f : FakeBinding) (cancellationType : String)

namespace SourceModule

def name : SourceModule → String
  | client b => b.moduleName
  | registration _ => "registration"
  | package _ => "__init__"
  | fake f _ => "fake_" ++ f.bindingModule

def text : SourceModule → String
  | client b => Source.client b
  | registration h => Source.registration h
  | package h => Source.package h
  | fake f cancellationType => Source.fake f cancellationType none

def file (m : SourceModule) : String × String := (m.name ++ ".py", m.text)

end SourceModule

def ClientBinding.manifestFile (b : ClientBinding) : String × String :=
  (b.moduleName ++ ".manifest.json", b.manifest.toJson.render (some 2))

-- Every module says on its second line what it is.
theorem Source.exists_joined_header (subject : String) (back : List String) :
    ∃ rest, joined (header subject ++ back) =
      "# Generated by hubgen " ++ generatorVersion ++ ". Do not edit.\n# " ++ (docText subject ++ rest) := by
  have given : "# " ++ docText subject ≠ "" := fun empty => by
    simpa using (String.append_eq_empty_iff.mp empty).1
  obtain ⟨rest, text⟩ := exists_joined
    (List.cons_ne_nil ("# Generated by hubgen " ++ generatorVersion ++ ". Do not edit.") []) given
    (["", "from __future__ import annotations", ""] ++ back)
  refine ⟨"\n" ++ rest, text.trans ?_⟩
  rw [String.intercalate_singleton]
  simp only [String.append_assoc]
  rfl

theorem Source.client_ne_fake (b : ClientBinding) (f : FakeBinding) (ct : String) :
    Source.client b ≠ Source.fake f ct none := by
  intro same
  obtain ⟨rest, client⟩ : ∃ rest, Source.client b = _ ++ (docText ("Hub client for " ++ _) ++ rest) :=
    exists_joined_header ..
  obtain ⟨rest', fake⟩ : ∃ rest, Source.fake f ct none = _ ++ (docText ("Test double for " ++ _) ++ rest) :=
    exists_joined_header ..
  have heads : (docText ("Hub client for " ++ b.contractName) ++ rest).toList.head? =
      (docText ("Test double for " ++ f.bindingName) ++ rest').toList.head? :=
    congrArg (·.toList.head?) ((String.append_right_inj _).mp (client.symm.trans (same.trans fake)))
  have first : (docText ("Hub client for " ++ b.contractName)).toList.head? = some 'H' :=
    head?_docText (by simp) (by decide) (by decide) (by decide)
  have first' : (docText ("Test double for " ++ f.bindingName)).toList.head? = some 'T' :=
    head?_docText (by simp) (by decide) (by decide) (by decide)
  rw [String.toList_append, String.toList_append, List.head?_append, List.head?_append, first,
    first'] at heads
  cases heads

namespace Compilation

-- The modules that a compilation has.
def Has (c : Compilation) (o : Options) : SourceModule → Prop
  | .client b => b ∈ c.bindings
  | .registration h | .package h => h = .synthesize c.bindings o
  | .fake f cancellationType => (∃ k ∈ c.fakes, k.fake = some f) ∧ cancellationType = o.cancellationType

variable {c : Compilation} {o : Options}

theorem flatMap_eq_flatMap_filterMap {xs : List α} {f : α → Option β} {g : β → List γ} {m : α → List γ}
    (each : ∀ x ∈ xs, m x = (f x).toList.flatMap g) : xs.flatMap m = (xs.filterMap f).flatMap g := by
  rw [List.filterMap_eq_flatMap_toList, List.flatMap_assoc]
  exact List.flatMap_congr each

-- The files in the order in which they are written.
theorem IsPackage.artifacts (package : c.IsPackage o) :
    c.artifacts = c.bindings.flatMap (fun b => [(SourceModule.client b).file, b.manifestFile]) ++
      [(SourceModule.registration (.synthesize c.bindings o)).file,
        (SourceModule.package (.synthesize c.bindings o)).file] ++
      (c.fakes.filterMap (·.fake)).map fun f => (SourceModule.fake f o.cancellationType).file := by
  unfold Compilation.artifacts
  refine congrArg₂ (· ++ ·) (congrArg₂ (· ++ ·) ?_ ?_) ?_
  · refine flatMap_eq_flatMap_filterMap fun k inside => ?_
    obtain ⟨v, status, binding, source⟩ | ⟨status, binding, source⟩ := package.contracts k inside
    · rw [binding, source, status]
      rfl
    · rw [binding, source, status]
      rfl
  · rw [package.registration, package.registrationSource]
    rfl
  · rw [List.map_filterMap]
    refine List.filterMap_congr fun f inside => ?_
    obtain ⟨b, -, fake, -, made, source⟩ | ⟨made, source⟩ := package.fakes f inside
    · rw [made, source]
      rfl
    · rw [made, source]
      rfl

theorem IsPackage.mem_artifacts_iff (package : c.IsPackage o) (file : String × String) :
    file ∈ c.artifacts ↔ (∃ m, c.Has o m ∧ m.file = file) ∨ ∃ b ∈ c.bindings, b.manifestFile = file := by
  simp only [package.artifacts, List.mem_append, List.mem_flatMap, List.mem_cons, List.not_mem_nil, or_false,
    List.mem_map, List.mem_filterMap]
  constructor
  · rintro ((⟨b, inside, rfl | rfl⟩ | rfl | rfl) | ⟨f, made, rfl⟩)
    · exact .inl ⟨.client b, inside, rfl⟩
    · exact .inr ⟨b, inside, rfl⟩
    · exact .inl ⟨.registration _, rfl, rfl⟩
    · exact .inl ⟨.package _, rfl, rfl⟩
    · exact .inl ⟨.fake f _, ⟨made, rfl⟩, rfl⟩
  · rintro (⟨b | h | h | ⟨f, ct⟩, has, rfl⟩ | ⟨b, inside, rfl⟩)
    · exact .inl (.inl ⟨b, has, .inl rfl⟩)
    · exact .inl (.inr (.inl (by rw [show h = _ from has])))
    · exact .inl (.inr (.inr (by rw [show h = _ from has])))
    · obtain ⟨made, rfl⟩ := has
      exact .inr ⟨f, made, rfl⟩
    · exact .inl (.inl ⟨b, inside, .inr rfl⟩)

theorem IsPackage.file_mem_artifacts (package : c.IsPackage o) {m : SourceModule} (has : c.Has o m) :
    m.file ∈ c.artifacts := (package.mem_artifacts_iff _).mpr (.inl ⟨m, has, rfl⟩)

-- What is known of a fake: which binding it is of, and what it has from that.
theorem IsPackage.of_has_fake (package : c.IsPackage o) {f : FakeBinding} {ct : String}
    (has : c.Has o (.fake f ct)) : ∃ b ∈ c.bindings, b.manifest.synthesizeFake o.fakePrefix = .ok f ∧
      f.bindingName = b.name ∧ f.bindingModule = b.moduleName := by
  obtain ⟨⟨k, inside, made⟩, -⟩ := has
  obtain ⟨b, there, fake, synthesized, made', -⟩ | ⟨none, -⟩ := package.fakes k inside
  · obtain rfl := Option.some.inj (made'.symm.trans made)
    obtain ⟨v, rfl⟩ := package.exists_validated there
    obtain ⟨rfl, -⟩ := Manifest.of_synthesizeFake synthesized
    exact ⟨_, there, synthesized, rfl, rfl⟩
  · cases none.symm.trans made

theorem IsPackage.moduleName_eq (package : c.IsPackage o) {b : ClientBinding} (inside : b ∈ c.bindings) :
    b.moduleName = Naming.moduleName b.name := by
  obtain ⟨v, rfl⟩ := package.exists_validated inside
  rfl

-- The module of a binding is none of those that every package has.
theorem IsPackage.moduleName_ne (package : c.IsPackage o) {b : ClientBinding} (inside : b ∈ c.bindings) :
    b.moduleName ≠ "registration" ∧ b.moduleName ≠ "__init__" := by
  rw [package.moduleName_eq inside]
  refine ⟨fun reserved => ?_, Naming.moduleName_ne (by decide) (by decide)⟩
  have usable := package.usable b inside
  rw [Document.isUsableBinding, reserved] at usable
  simp [Document.reservedModules] at usable

theorem fake_ne (module : String) : "fake_" ++ module ≠ "registration" ∧ "fake_" ++ module ≠ "__init__" := by
  constructor <;>
  · intro same
    have first := congrArg (fun s => s.toList.head?) same
    simp at first

-- Two modules of one name are the same, or else they are of a binding and a fake.
theorem IsPackage.eq_or_clash (package : c.IsPackage o) {p q : SourceModule} (has : c.Has o p)
    (has' : c.Has o q) (same : p.name = q.name) : p = q ∨
      ∃ b f ct, p = .client b ∧ q = .fake f ct ∨ p = .fake f ct ∧ q = .client b := by
  cases p with
  | client b =>
    cases q with
    | client b' => exact .inl (congrArg _ (List.inj_on_of_nodup_map package.distinct has has' same))
    | registration h => exact absurd same (package.moduleName_ne has).1
    | package h => exact absurd same (package.moduleName_ne has).2
    | fake f ct => exact .inr ⟨b, f, ct, .inl ⟨rfl, rfl⟩⟩
  | registration h =>
    cases q with
    | client b => exact absurd same.symm (package.moduleName_ne has').1
    | registration h' => exact .inl (congrArg _ (has.trans has'.symm))
    | package h' => exact absurd (show "registration" = "__init__" from same) (by decide)
    | fake f ct => exact absurd same.symm (fake_ne f.bindingModule).1
  | package h =>
    cases q with
    | client b => exact absurd same.symm (package.moduleName_ne has').2
    | registration h' => exact absurd (show "__init__" = "registration" from same) (by decide)
    | package h' => exact .inl (congrArg _ (has.trans has'.symm))
    | fake f ct => exact absurd same.symm (fake_ne f.bindingModule).2
  | fake f ct =>
    cases q with
    | client b => exact .inr ⟨b, f, ct, .inr ⟨rfl, rfl⟩⟩
    | registration h => exact absurd same (fake_ne f.bindingModule).1
    | package h => exact absurd same (fake_ne f.bindingModule).2
    | fake f' ct' =>
      obtain ⟨b, inside, made, -, module⟩ := package.of_has_fake has
      obtain ⟨b', inside', made', -, module'⟩ := package.of_has_fake has'
      have modules : b.moduleName = b'.moduleName := by
        rw [← module, ← module']
        exact (String.append_right_inj _).mp same
      obtain rfl := List.inj_on_of_nodup_map package.distinct inside inside' modules
      obtain rfl := Except.ok.inj (made.symm.trans made')
      obtain rfl := has.2.trans has'.2.symm
      exact .inl rfl

-- A fake has the file of a binding.
structure Clash (c : Compilation) (o : Options) (b : ClientBinding) (f : FakeBinding) : Prop where
  bound : b ∈ c.bindings
  made : c.Has o (.fake f o.cancellationType)
  module : b.moduleName = "fake_" ++ f.bindingModule

theorem file_ne_manifestFile (m : SourceModule) (b : ClientBinding) : m.file.1 ≠ b.manifestFile.1 := by
  intro same
  have last := congrArg (·.toList.getLast?) same
  simp [SourceModule.file, ClientBinding.manifestFile] at last

-- Two files of one name are the same, or a fake has the file of a binding.
theorem IsPackage.file_eq_or_clash (package : c.IsPackage o) {x y : String × String}
    (inside : x ∈ c.artifacts) (inside' : y ∈ c.artifacts) (same : x.1 = y.1) : x = y ∨ ∃ b f, c.Clash o b f ∧
      let client := (SourceModule.client b).file
      let fake := (SourceModule.fake f o.cancellationType).file
      (x = client ∧ y = fake ∨ x = fake ∧ y = client) := by
  obtain ⟨p, has, rfl⟩ | ⟨b, bound, rfl⟩ := (package.mem_artifacts_iff x).mp inside
  · obtain ⟨q, has', rfl⟩ | ⟨b', -, rfl⟩ := (package.mem_artifacts_iff y).mp inside'
    · have names : p.name = q.name := (String.append_left_inj _).mp same
      obtain rfl | ⟨b, f, ct, ⟨rfl, rfl⟩ | ⟨rfl, rfl⟩⟩ := package.eq_or_clash has has' names
      · exact .inl rfl
      · obtain rfl : ct = o.cancellationType := has'.2
        exact .inr ⟨b, f, ⟨has, has', names⟩, .inl ⟨rfl, rfl⟩⟩
      · obtain rfl : ct = o.cancellationType := has.2
        exact .inr ⟨b, f, ⟨has', has, names.symm⟩, .inr ⟨rfl, rfl⟩⟩
    · exact absurd same (file_ne_manifestFile p b')
  · obtain ⟨q, -, rfl⟩ | ⟨b', bound', rfl⟩ := (package.mem_artifacts_iff y).mp inside'
    · exact absurd same.symm (file_ne_manifestFile q b)
    · have modules : b.moduleName = b'.moduleName := (String.append_left_inj _).mp same
      exact .inl (congrArg _ (List.inj_on_of_nodup_map package.distinct bound bound' modules))

-- The texts that are written into a directory, in the order of writing.
def writes (c : Compilation) (directory : Path) : List (Path × String) :=
  c.artifacts.map fun (name, text) => (directory.child name, text)

theorem files_writeInto (fs : Files) (directory : Path) :
    (Session.writeInto fs directory c.artifacts).1 = (fs.writeAll (c.writes directory)).1 := by
  unfold Session.writeInto writes
  dsimp only
  split
  · rename_i written
    rw [written]
  · rename_i written
    rw [written]

theorem child_injective (directory : Path) : Function.Injective directory.child := by
  intro a b same
  have components := congrArg Path.components same
  simpa [Path.child] using components

-- No fake has the module of a binding.
def FakesApart (c : Compilation) : Prop :=
  ∀ b ∈ c.bindings, ∀ k ∈ c.fakes, ∀ f ∈ k.fake, b.moduleName ≠ "fake_" ++ f.bindingModule

theorem fakesApart_iff : c.FakesApart ↔ ∀ b f, ¬ c.Clash o b f := by
  constructor
  · rintro apart b f ⟨inside, ⟨⟨k, there, made⟩, -⟩, module⟩
    exact apart b inside k there f made module
  · intro none b inside k there f made module
    exact none b f ⟨inside, ⟨⟨k, there, made⟩, rfl⟩, module⟩

theorem exists_clash (o : Options) (clash : ¬ c.FakesApart) : ∃ b f, c.Clash o b f := by
  rw [fakesApart_iff (o := o)] at clash
  push Not at clash
  exact clash

theorem IsPackage.mem_writes (package : c.IsPackage o) {m : SourceModule} (has : c.Has o m)
    (directory : Path) : (directory.child (m.name ++ ".py"), m.text) ∈ c.writes directory :=
  List.mem_map.mpr ⟨m.file, package.file_mem_artifacts has, rfl⟩

-- What is written to one path has one text, unless it is the source of a binding and that of a fake.
theorem IsPackage.text_eq_or_clash (package : c.IsPackage o) (directory : Path) {w w' : Path × String}
    (written : w ∈ c.writes directory) (written' : w' ∈ c.writes directory) (same : w.1 = w'.1) :
    w.2 = w'.2 ∨ ∃ b f, c.Clash o b f ∧ w.1 = directory.child (b.moduleName ++ ".py") ∧
      (w.2 = Source.client b ∧ w'.2 = Source.fake f o.cancellationType none ∨
        w.2 = Source.fake f o.cancellationType none ∧ w'.2 = Source.client b) := by
  obtain ⟨x, has, rfl⟩ := List.mem_map.mp written
  obtain ⟨y, has', rfl⟩ := List.mem_map.mp written'
  obtain rfl | ⟨b, f, clash, ⟨rfl, rfl⟩ | ⟨rfl, rfl⟩⟩ :=
    package.file_eq_or_clash has has' (child_injective directory same)
  · exact .inl rfl
  · exact .inr ⟨b, f, clash, rfl, .inl ⟨rfl, rfl⟩⟩
  · exact .inr ⟨b, f, clash, same, .inr ⟨rfl, rfl⟩⟩

-- Where they do clash, one file is written with two texts.
theorem Clash.overwrites (package : c.IsPackage o) {b : ClientBinding} {f : FakeBinding}
    (clash : c.Clash o b f) (directory : Path) :
    ∃ w ∈ c.writes directory, ∃ w' ∈ c.writes directory, w.1 = w'.1 ∧ w.2 ≠ w'.2 := by
  refine ⟨_, package.mem_writes (m := .client b) clash.bound directory, _,
    package.mem_writes clash.made directory, ?_, Source.client_ne_fake b f _⟩
  exact congrArg (fun module => directory.child (module ++ ".py")) clash.module

end Compilation

namespace Engine

open HubContract.Document

variable {rules : RuleSet} {e : Engine} {d : Document}

-- Files are overwritten with other texts exactly where a fake has the module of a binding, and no other
-- files are.
theorem writes_apart_iff (reachable : e.Reachable rules)
    (standard : e.pipelines.lookup "default" = some Pass.standard) (d : Document) (o : Options)
    (directory : Path) :
    let c := (e.compile rules d o none).1.compilation
    let written := c.writes directory
    (∀ fs : Files, (Session.writeInto fs directory c.artifacts).1 = (fs.writeAll written).1) ∧
    ((∀ w ∈ written, ∀ w' ∈ written, w.1 = w'.1 → w.2 = w'.2) ↔ c.FakesApart) ∧
    ∀ w ∈ written, ∀ w' ∈ written, w.1 = w'.1 → w.2 ≠ w'.2 →
      ∃ b f, c.Clash o b f ∧ w.1 = directory.child (b.moduleName ++ ".py") ∧
        (w.2 = Source.client b ∧ w'.2 = Source.fake f o.cancellationType none ∨
          w.2 = Source.fake f o.cancellationType none ∧ w'.2 = Source.client b) := by
  intro c written
  have package : c.IsPackage o := isPackage_compile reachable.sound standard d o
  refine ⟨fun fs => Compilation.files_writeInto fs directory,
    ⟨fun same => ?_, fun apart w inside w' inside' path => ?_⟩,
    fun w inside w' inside' path other =>
      (package.text_eq_or_clash directory inside inside' path).resolve_left other⟩
  · rw [Compilation.fakesApart_iff (o := o)]
    intro b f clash
    obtain ⟨w, inside, w', inside', path, other⟩ := clash.overwrites package directory
    exact other (same w inside w' inside' path)
  · obtain same | ⟨b, f, clash, -⟩ := package.text_eq_or_clash directory inside inside' path
    · exact same
    · exact absurd clash (Compilation.fakesApart_iff.mp apart b f)

-- A hub client without methods, and two of them, the second of which is called like a fake of the first.
def emptyHub (name uri : String) : Declaration := { name, hubClient := some { uri } }

def chatAndFakeChat (target : String) : Document :=
  ⟨[emptyHub "IChat" "chat", emptyHub "IFakeChat" "fake"], [target]⟩

theorem ofData_chatAndFakeChat :
    ofData (chatAndFakeChat "ChatClient").toData = .ok (chatAndFakeChat "ChatClient") := by rfl

theorem chatAndFakeChat_clients (target : String) : (chatAndFakeChat target).discover.clients =
    [("IChat", .ok { name := "IChat", uri := "chat" }),
      ("IFakeChat", .ok { name := "IFakeChat", uri := "fake" })] := by
  have resolved {name uri : String} (found : (chatAndFakeChat target).get? name = some (emptyHub name uri)) :
      (chatAndFakeChat target).resolveClient (emptyHub name uri) { uri } = .ok { name, uri } :=
    resolveClient_eq_ok_iff.mpr
      ((resolveContract_eq_ok_iff found).mpr ⟨rfl, rfl, rfl, rfl, .none, .none, .nil⟩)
  have clients : (chatAndFakeChat target).discover.clients =
      [("IChat", (chatAndFakeChat target).resolveClient (emptyHub "IChat" "chat") { uri := "chat" }),
        ("IFakeChat",
          (chatAndFakeChat target).resolveClient (emptyHub "IFakeChat" "fake") { uri := "fake" })] := by
    rfl
  rw [clients, resolved rfl, resolved rfl]

theorem names_chatAndFakeChat (target : String) :
    (standard.compile .builtIn (chatAndFakeChat target) {} none).1.compilation.bindings.map (·.name) =
      ["ChatClient", "FakeChatClient"] := by
  simp only [Compilation.bindings, Engine.compile, chatAndFakeChat_clients]
  decide

-- A fake of the second has a file of its own.
theorem writes_apart_iff_fakeChat :
    let c := (standard.compile .builtIn (chatAndFakeChat "FakeChatClient") {} none).1.compilation
    let written := c.writes (.ofText "out")
    written.length = 7 ∧ ∀ w ∈ written, ∀ w' ∈ written, w.1 = w'.1 → w.2 = w'.2 := by
  intro c written
  have apart : c.FakesApart := by
    simp only [c, Compilation.FakesApart, Engine.compile, chatAndFakeChat_clients]
    decide
  refine ⟨?_, (writes_apart_iff reachable_standard rfl _ {} _).2.1.mpr apart⟩
  simp only [written, c, Compilation.writes, Engine.compile, chatAndFakeChat_clients]
  decide

-- A fake of the first has the file of the second.
theorem writes_apart_iff_chat :
    let c := (standard.compile .builtIn (chatAndFakeChat "ChatClient") {} none).1.compilation
    ofData (chatAndFakeChat "ChatClient").toData = .ok (chatAndFakeChat "ChatClient") ∧
      ∃ w ∈ c.writes (.ofText "out"), ∃ w' ∈ c.writes (.ofText "out"), w.1 = w'.1 ∧ w.2 ≠ w'.2 := by
  intro c
  have package : c.IsPackage {} := isPackage_compile reachable_standard.sound rfl _ {}
  have clash : ¬ c.FakesApart := by
    simp only [c, Compilation.FakesApart, Engine.compile, chatAndFakeChat_clients]
    decide +kernel
  obtain ⟨b, f, clash⟩ := Compilation.exists_clash {} clash
  exact ⟨ofData_chatAndFakeChat, clash.overwrites package _⟩

end Engine

end HubContract
