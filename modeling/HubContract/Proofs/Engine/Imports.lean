import HubContract.Proofs.Binding.Plain
import HubContract.Proofs.Engine.Exports

namespace HubContract

open HubContract.Text HubContract.Source

namespace Source

variable {m m' n n' : String}

-- An import of one name from one module of the package.
def IsWellFormed (line : String) : Prop :=
  ∃ module name, isIdentifier module ∧ isIdentifier name ∧ line = importOf module name

-- Where a module is a word, it can be read off the line.
theorem importOf_inj (here : IsWord m) (here' : IsWord m') (same : importOf m n = importOf m' n') :
    m = m' ∧ n = n' := by
  have word {m : String} (here : IsWord m) (n : String) :
      (m ++ (" import " ++ n)).toList.takeWhile (· ≠ ' ') = m.toList := by
    have space : (" import " ++ n).toList = ' ' :: ("import " ++ n).toList := by simp
    have inside : ∀ c ∈ m.toList, decide (c ≠ ' ') = true := fun c there => by
      have part := here c there
      by_contra blank
      obtain rfl : c = ' ' := by simpa using blank
      exact absurd part (by decide)
    rw [String.toList_append, space, List.takeWhile_append_of_pos inside,
      List.takeWhile_cons_of_neg (by simp), List.append_nil]
  simp only [importOf, String.append_assoc] at same
  have rest := (String.append_right_inj _).mp same
  have modules : m = m' := by
    rw [← String.toList_inj, ← word here n, rest, word here' n']
  subst modules
  exact ⟨rfl, (String.append_right_inj _).mp ((String.append_right_inj _).mp rest)⟩

theorem isWellFormed_importOf_iff (here : IsWord m) (name : isIdentifier n) :
    IsWellFormed (importOf m n) ↔ isIdentifier m := by
  constructor
  · rintro ⟨module, name, identifier, -, same⟩
    exact (importOf_inj here (.of_isIdentifier identifier) same).1 ▸ identifier
  · exact fun identifier => ⟨m, n, identifier, name, rfl⟩

-- The registration is imported under a name of its own.
def IsOfRegistration (line : String) : Prop := ∃ names, line = importOf "registration" names

-- A source has the class of a hub client.
def Defines (source name : String) : Prop :=
  ∃ front back, source = front ++ "\n" ++ ("class " ++ name ++ "(HubClientBase):") ++ "\n" ++ back

theorem defines_client (b : ClientBinding) : Defines (client b) b.name := by
  have found : (ClientModule.ofBinding b).lines[13]? = some ("class " ++ b.name ++ "(HubClientBase):") := rfl
  have given : "class " ++ b.name ++ "(HubClientBase):" ≠ "" := fun empty => by
    simpa using (String.append_eq_empty_iff.mp empty).2
  exact exists_joined_of_getElem? (by decide) given found

end Source

namespace Compilation

variable {c : Compilation} {o : Options} {b : ClientBinding} {f : FakeBinding}

-- The lines that import the bindings.
def bindingImports (c : Compilation) : List String := c.bindings.map fun b => importOf b.moduleName b.name

theorem map_importLine_entriesFrom (used : List String) (bindings : List ClientBinding) :
    (RegistrationHelper.entriesFrom used bindings).map importLine =
      bindings.map fun b => importOf b.moduleName b.name := by
  induction bindings generalizing used with
  | nil => rfl
  | cons b bindings ih => rw [RegistrationHelper.entriesFrom, List.map_cons, List.map_cons, ih, importLine_eq]

theorem IsPackage.bindingImports_eq (package : c.IsPackage o) :
    c.bindingImports = (c.bindings.map (·.name)).map fun name => importOf (Naming.moduleName name) name := by
  rw [bindingImports, List.map_map]
  exact List.map_congr_left fun b inside => by rw [package.moduleName_eq inside, Function.comp_apply]

theorem IsPackage.isIdentifier_name (package : c.IsPackage o) (inside : b ∈ c.bindings) :
    isIdentifier b.name := by
  have usable := package.usable b inside
  rw [Document.isUsableBinding, Bool.and_eq_true] at usable
  exact usable.1

theorem IsPackage.isWord_moduleName (package : c.IsPackage o) (inside : b ∈ c.bindings) :
    IsWord b.moduleName := package.moduleName_eq inside ▸ isWord_snakeCase b.name

theorem IsPackage.isPlain_registration (package : c.IsPackage o) (plain : o.IsPlain) :
    (RegistrationHelper.synthesize c.bindings o).IsPlain :=
  RegistrationHelper.isPlain_synthesize plain fun _ inside =>
    ⟨.of_isIdentifier (package.isIdentifier_name inside), package.isWord_moduleName inside⟩

theorem IsPackage.imports_registration (package : c.IsPackage o) (plain : o.IsPlain) :
    imports (Source.registration (.synthesize c.bindings o)) = c.bindingImports :=
  (Source.imports_registration (package.isPlain_registration plain)).trans
    (map_importLine_entriesFrom [] c.bindings)

theorem IsPackage.imports_package (package : c.IsPackage o) (plain : o.IsPlain) :
    imports (Source.package (.synthesize c.bindings o)) =
      c.bindingImports ++ [registrationImport (.synthesize c.bindings o)] :=
  (Source.imports_package (package.isPlain_registration plain)).trans
    (congrArg (· ++ _) (map_importLine_entriesFrom [] c.bindings))

-- A fake imports the binding that it stands in for, and besides what its types import.
theorem IsPackage.imports_fake (package : c.IsPackage o) (plain : o.IsPlain) {k : CompiledFake}
    (there : k ∈ c.fakes) {source : String} (rendered : k.source = some source) :
    ∃ b ∈ c.bindings, ∃ f, k.fake = some f ∧
      imports source = importOf b.moduleName b.name :: strayImports f o.cancellationType ∧
      (strayImports f o.cancellationType = [] ↔ ∀ t ∈ f.parameterTypes, laterImports t = []) := by
  obtain ⟨-, -, f, -, made, source'⟩ | ⟨-, none⟩ := package.fakes k there
  · obtain rfl := Option.some.inj (source'.symm.trans rendered)
    have has : c.Has o (.fake f o.cancellationType) := ⟨⟨k, there, made⟩, rfl⟩
    obtain ⟨b, inside, synthesized, name, module⟩ := package.of_has_fake has
    have identifier := package.isIdentifier_name inside
    obtain ⟨v, rfl⟩ := package.exists_validated inside
    have words : f.IsPlain := ClientBinding.isPlain_of_synthesizeFake plain identifier synthesized
    refine ⟨_, inside, f, made, ?_,
      strayImports_eq_nil_iff words (IsWord.of_isIdentifier plain.cancellation).isOneLine⟩
    rw [Source.imports_fake words, name, module]
  · cases none.symm.trans rendered

-- What a file holds once all files are written.
def fileText? (c : Compilation) (name : String) : Option String := c.artifacts.reverse.lookup name

theorem mem_of_lookup {entries : List (String × String)} {name text : String}
    (found : entries.lookup name = some text) : (name, text) ∈ entries := by
  obtain ⟨front, back, split, -⟩ := List.lookup_eq_some_iff.mp found
  rw [split]
  exact List.mem_append_right _ List.mem_cons_self

theorem exists_lookup {entries : List (String × String)} {name text : String}
    (inside : (name, text) ∈ entries) : ∃ text, entries.lookup name = some text := by
  cases found : entries.lookup name with
  | some text => exact ⟨text, rfl⟩
  | none => exact absurd (List.lookup_eq_none_iff.mp found _ inside) (by simp)

-- Where no fake has the file of a binding, it holds the source of the binding.
theorem IsPackage.fileText?_of_apart (package : c.IsPackage o) (apart : c.FakesApart)
    (inside : b ∈ c.bindings) : c.fileText? (b.moduleName ++ ".py") = some (Source.client b) := by
  have written := package.file_mem_artifacts (m := .client b) inside
  obtain ⟨text, found⟩ := exists_lookup (List.mem_reverse.mpr written)
  have other := List.mem_reverse.mp (mem_of_lookup found)
  obtain same | ⟨b', f, clash, -⟩ := package.file_eq_or_clash written other rfl
  · rw [fileText?]
    exact found.trans (congrArg some (congrArg Prod.snd same).symm)
  · exact absurd clash (fakesApart_iff.mp apart b' f)

-- Fakes are written last.
theorem IsPackage.fileText?_of_clash (package : c.IsPackage o) (clash : c.Clash o b f) :
    ∃ f', c.fileText? (b.moduleName ++ ".py") = some (Source.fake f' o.cancellationType none) := by
  obtain ⟨⟨k, there, made⟩, -⟩ := clash.made
  let fakes := (c.fakes.filterMap (·.fake)).map fun f => (SourceModule.fake f o.cancellationType).file
  have inside : (SourceModule.fake f o.cancellationType).file ∈ fakes :=
    List.mem_map_of_mem (List.mem_filterMap.mpr ⟨k, there, made⟩)
  obtain ⟨text, found⟩ := exists_lookup (List.mem_reverse.mpr inside)
  have last : c.fileText? (b.moduleName ++ ".py") = some text := by
    rw [fileText?, package.artifacts, List.reverse_append, List.lookup_append, clash.module]
    exact congrArg (Option.or · _) found
  obtain ⟨f', -, same⟩ := List.mem_map.mp (List.mem_reverse.mp (mem_of_lookup found))
  exact ⟨f', last.trans (congrArg some (congrArg Prod.snd same).symm)⟩

-- A line imports the class of a contract that was compiled, from the module that was rendered for that
-- contract and is still there in the end.
def Backs (c : Compilation) (line : String) : Prop :=
  ∃ k ∈ c.contracts, k.status = .success ∧ ∃ b source, k.binding = some b ∧ k.source = some source ∧
    Defines source b.name ∧ line = importOf b.moduleName b.name ∧
    c.fileText? (b.moduleName ++ ".py") = some source

theorem IsPackage.backs_of_apart (package : c.IsPackage o) (apart : c.FakesApart)
    (inside : b ∈ c.bindings) : c.Backs (importOf b.moduleName b.name) := by
  obtain ⟨k, there, status, bound⟩ := mem_bindings_iff.mp inside
  obtain ⟨-, source⟩ := (package.contracts k there).of_binding bound
  exact ⟨k, there, status, b, _, bound, source, defines_client b, rfl,
    package.fileText?_of_apart apart inside⟩

theorem IsPackage.not_backs_of_clash (package : c.IsPackage o) (clash : c.Clash o b f) :
    ¬ c.Backs (importOf b.moduleName b.name) := by
  rintro ⟨k, there, status, b', source, bound, rendered, -, line, text⟩
  obtain ⟨-, source'⟩ := (package.contracts k there).of_binding bound
  obtain rfl := Option.some.inj (rendered.symm.trans source')
  have inside := mem_bindings_iff.mpr ⟨k, there, status, bound⟩
  obtain ⟨modules, -⟩ :=
    importOf_inj (package.isWord_moduleName clash.bound) (package.isWord_moduleName inside) line
  obtain ⟨f', last⟩ := package.fileText?_of_clash clash
  rw [modules, text] at last
  exact client_ne_fake b' f' _ (Option.some.inj last)

theorem IsPackage.not_isOfRegistration (package : c.IsPackage o) (inside : b ∈ c.bindings) :
    ¬ IsOfRegistration (importOf b.moduleName b.name) := by
  rintro ⟨names, line⟩
  have modules := (importOf_inj (package.isWord_moduleName inside) (by decide) line).1
  exact (package.moduleName_ne inside).1 modules

-- The registration module, the package and the fakes.
def sources (c : Compilation) : List String :=
  c.registrationSource.toList ++ c.registration.toList.map Source.package ++ c.fakes.filterMap (·.source)

-- A binding is imported by the registration wherever it is.
theorem IsPackage.exists_unbacked (package : c.IsPackage o) (plain : o.IsPlain) (clash : c.Clash o b f) :
    ∃ source ∈ c.sources, ∃ line ∈ imports source, ¬ IsOfRegistration line ∧ ¬ c.Backs line := by
  refine ⟨Source.registration (.synthesize c.bindings o), ?_, importOf b.moduleName b.name, ?_,
    package.not_isOfRegistration clash.bound, package.not_backs_of_clash clash⟩
  · simp [sources, package.registrationSource]
  · rw [package.imports_registration plain]
    exact List.mem_map_of_mem clash.bound

end Compilation

namespace Engine

open HubContract.Document

variable {rules : RuleSet} {e : Engine} {o : Options}

theorem isUsableBinding_of_accepts {d : Document} {decl : Declaration} {marker : HubMarker}
    (accepted : d.AcceptsBinding decl marker) :
    isUsableBinding (Contract.bindingNameOf decl.name marker.name) := by
  obtain ⟨claims, claimed⟩ := accepted
  exact (of_claimModule claimed).1

-- A binding that is accepted has a name, but its module has one only if it can be imported. The
-- registration, the package and the fakes import all bindings by their modules.
theorem imports_wellFormed_iff {y : Data} (accepted : Options.ofData y = .ok o)
    (reachable : e.Reachable rules) (standard : e.pipelines.lookup "default" = some Pass.standard)
    (d : Document) :
    let c := (e.compile rules d o none).1.compilation
    (∀ decl ∈ d.declarations, ∀ marker, decl.hubClient = some marker → d.AcceptsBinding decl marker →
      let binding := Contract.bindingNameOf decl.name marker.name
      isIdentifier binding ∧ (isIdentifier (Naming.moduleName binding) ↔
        Naming.IsImportable (Naming.stem binding))) ∧
    (∃ h, c.registration = some h ∧ c.registrationSource = some (Source.registration h) ∧
      imports (Source.registration h) = c.bindingImports ∧
      imports (Source.package h) = c.bindingImports ++ [registrationImport h]) ∧
    (∀ k ∈ c.fakes, ∀ source ∈ k.source, ∃ line ∈ c.bindingImports, (imports source).head? = some line) ∧
    ((∀ line ∈ c.bindingImports, IsWellFormed line) ↔
      ∀ b ∈ c.bindings, Naming.IsImportable (Naming.stem b.name)) := by
  intro c
  have package : c.IsPackage o := isPackage_compile reachable.sound standard d o
  have plain := Options.isPlain_of_ofData accepted
  refine ⟨fun decl _ marker _ accepts => ?_, ⟨_, package.registration, package.registrationSource,
    package.imports_registration plain, package.imports_package plain⟩, fun k there source made => ?_, ?_⟩
  · have usable := isUsableBinding_of_accepts accepts
    rw [isUsableBinding, Bool.and_eq_true] at usable
    exact ⟨usable.1, Naming.isIdentifier_moduleName_iff _⟩
  · obtain ⟨b, inside, f, -, lines, -⟩ := package.imports_fake plain there made
    exact ⟨_, List.mem_map_of_mem inside, by rw [lines, List.head?_cons]⟩
  · rw [Compilation.bindingImports, List.forall_mem_map]
    refine forall₂_congr fun b inside => ?_
    rw [isWellFormed_importOf_iff (package.isWord_moduleName inside) (package.isIdentifier_name inside),
      package.moduleName_eq inside, Naming.isIdentifier_moduleName_iff]

theorem imports_wellFormed_iff_chat :
    let c := (standard.compile .builtIn (chatAndFakeChat "ChatClient") {} none).1.compilation
    Options.ofData (.mapping []) = .ok {} ∧
      c.bindingImports =
        ["from .chat_client import ChatClient", "from .fake_chat_client import FakeChatClient"] ∧
      ∀ line ∈ c.bindingImports, IsWellFormed line := by
  intro c
  have accepted : Options.ofData (.mapping []) = .ok {} := by rfl
  obtain ⟨-, -, -, wellFormed⟩ :=
    imports_wellFormed_iff accepted reachable_standard rfl (chatAndFakeChat "ChatClient")
  have package : c.IsPackage {} := isPackage_compile reachable_standard.sound rfl _ {}
  have names : c.bindings.map (·.name) = ["ChatClient", "FakeChatClient"] := names_chatAndFakeChat _
  have importable : ∀ name ∈ c.bindings.map (·.name), Naming.IsImportable (Naming.stem name) := by
    rw [names]
    decide
  refine ⟨accepted, ?_, wellFormed.mpr fun b inside => importable b.name (List.mem_map_of_mem inside)⟩
  rw [package.bindingImports_eq, names]
  decide

-- A class may be called like a keyword that its module is called, too.
theorem imports_wellFormed_iff_class :
    let d := lone "IClass" "class" "Class"
    let c := (standard.compile .builtIn d {} none).1.compilation
    ofData d.toData = .ok d ∧
      d.AcceptsBinding (loneClient "IClass" "class" "Class") (loneMarker "class" "Class") ∧
      isIdentifier "Class" ∧ isIdentifier (Naming.moduleName "Class") = false ∧
      ∃ h, c.registration = some h ∧ "from .class import Class" ∈ imports (Source.package h) ∧
        ¬ IsWellFormed "from .class import Class" := by
  intro d c
  have clients : d.discover.clients = [("IClass", .ok _)] := lone_clients (by rfl)
  have names : c.bindings.map (·.name) = ["Class"] := by
    simp only [c, Compilation.bindings, Engine.compile, clients]
    decide
  have package : c.IsPackage {} := isPackage_compile reachable_standard.sound rfl _ {}
  have bindings : c.bindingImports = ["from .class import Class"] := by
    rw [package.bindingImports_eq, names]
    decide
  have plain : Options.IsPlain {} :=
    Options.isPlain_of_ofData (by rfl : Options.ofData (.mapping []) = .ok {})
  refine ⟨by rfl, ⟨_, rfl⟩, by decide, by decide, _, package.registration, ?_, ?_⟩
  · rw [package.imports_package plain, bindings]
    exact List.mem_cons_self
  · have keyword : IsWellFormed (importOf "class" "Class") ↔ isIdentifier "class" :=
      isWellFormed_importOf_iff (by decide) (by decide)
    exact fun formed => absurd (keyword.mp formed) (by decide)

-- What the modules of a package import is there, and is what they take it for, exactly if no fake has the
-- file of a binding and nothing is imported by the types in a fake. Such imports stand behind line breaks.
theorem imports_backed_iff {y : Data} (accepted : Options.ofData y = .ok o) (reachable : e.Reachable rules)
    (standard : e.pipelines.lookup "default" = some Pass.standard) (d : Document) :
    let c := (e.compile rules d o none).1.compilation
    ((∀ source ∈ c.sources, ∀ line ∈ imports source, ¬ IsOfRegistration line → c.Backs line) ↔
      c.FakesApart ∧ ∀ k ∈ c.fakes, ∀ source ∈ k.source, ∀ line ∈ (imports source).tail,
        ¬ IsOfRegistration line → c.Backs line) ∧
    ∀ k ∈ c.fakes, ∀ f ∈ k.fake, ∀ source ∈ k.source,
      ((imports source).tail = [] ↔ ∀ t ∈ f.parameterTypes, laterImports t = []) := by
  intro c
  have package : c.IsPackage o := isPackage_compile reachable.sound standard d o
  have plain := Options.isPlain_of_ofData accepted
  refine ⟨⟨fun backed => ⟨?_, ?_⟩, fun ⟨apart, strays⟩ => ?_⟩,
    fun k there f made source rendered => ?_⟩
  · rw [Compilation.fakesApart_iff (o := o)]
    intro b f clash
    obtain ⟨source, inside, line, imported, other, lost⟩ := package.exists_unbacked plain clash
    exact lost (backed source inside line imported other)
  · intro k there source rendered line stray
    have inside : source ∈ c.sources :=
      List.mem_append_right _ (List.mem_filterMap.mpr ⟨k, there, rendered⟩)
    exact backed source inside line (List.mem_of_mem_tail stray)
  · have bindings : ∀ line ∈ c.bindingImports, c.Backs line :=
      List.forall_mem_map.mpr fun b inside => package.backs_of_apart apart inside
    intro source inside line imported other
    rw [Compilation.sources, package.registrationSource, package.registration, List.mem_append,
      List.mem_append] at inside
    obtain (registration | package') | fake := inside
    · obtain rfl := List.mem_singleton.mp registration
      rw [package.imports_registration plain] at imported
      exact bindings line imported
    · obtain rfl := List.mem_singleton.mp package'
      rw [package.imports_package plain, List.mem_append, List.mem_singleton] at imported
      obtain binding | rfl := imported
      · exact bindings line binding
      · exact absurd ⟨_, rfl⟩ other
    · obtain ⟨k, there, rendered⟩ := List.mem_filterMap.mp fake
      obtain ⟨b, bound, f, -, lines, -⟩ := package.imports_fake plain there rendered
      have later := strays k there source rendered line
      rw [lines] at imported later
      obtain rfl | stray := List.mem_cons.mp imported
      · exact package.backs_of_apart apart bound
      · exact later stray other
  · obtain ⟨b, -, f', made', lines, strays⟩ := package.imports_fake plain there rendered
    obtain rfl := Option.some.inj (made'.symm.trans made)
    rw [lines, List.tail_cons, strays]

theorem imports_backed_iff_fakeChat :
    let c := (standard.compile .builtIn (chatAndFakeChat "FakeChatClient") {} none).1.compilation
    Options.ofData (.mapping []) = .ok {} ∧ c.sources.length = 3 ∧
      ∀ source ∈ c.sources, ∀ line ∈ imports source, ¬ IsOfRegistration line → c.Backs line := by
  intro c
  have accepted : Options.ofData (.mapping []) = .ok {} := by rfl
  have package : c.IsPackage {} := isPackage_compile reachable_standard.sound rfl _ {}
  obtain ⟨backed, strays⟩ : (_ ↔ c.FakesApart ∧ _) ∧ _ :=
    imports_backed_iff accepted reachable_standard rfl (chatAndFakeChat "FakeChatClient")
  have apart : c.FakesApart := by
    simp only [c, Compilation.FakesApart, Engine.compile, chatAndFakeChat_clients]
    decide
  have untyped : ∀ k ∈ c.fakes, ∀ f ∈ k.fake, f.parameterTypes = [] := by
    simp only [c, Engine.compile, chatAndFakeChat_clients]
    decide
  have number : c.sources.length = 3 := by
    simp only [c, Compilation.sources, Engine.compile, chatAndFakeChat_clients]
    decide
  refine ⟨accepted, number, backed.mpr ⟨apart, fun k there source rendered line stray => ?_⟩⟩
  obtain ⟨-, -, f, made, -⟩ := package.imports_fake (Options.isPlain_of_ofData accepted) there rendered
  have none : (imports source).tail = [] := (strays k there f made source rendered).mpr (by
    rw [untyped k there f made]
    exact List.forall_mem_nil _)
  rw [none] at stray
  cases stray

-- The fake of the first client is in the file from which the second one is imported.
theorem imports_backed_iff_chat :
    let d := chatAndFakeChat "ChatClient"
    let o : Options := { fakePrefix := "Test" }
    let c := (standard.compile .builtIn d o none).1.compilation
    ofData d.toData = .ok d ∧ Options.ofData (.mapping [(.str "fake_prefix", .str "Test")]) = .ok o ∧
      ∃ source ∈ c.sources, ∃ line ∈ imports source, ¬ IsOfRegistration line ∧ ¬ c.Backs line := by
  intro d o c
  have accepted : Options.ofData (.mapping [(.str "fake_prefix", .str "Test")]) = .ok o := by rfl
  have package : c.IsPackage o := isPackage_compile reachable_standard.sound rfl _ o
  have clash : ¬ c.FakesApart := by
    simp only [c, d, o, Compilation.FakesApart, Engine.compile, chatAndFakeChat_clients]
    decide +kernel
  obtain ⟨b, f, clash⟩ := Compilation.exists_clash o clash
  exact ⟨ofData_chatAndFakeChat, accepted, package.exists_unbacked (Options.isPlain_of_ofData accepted) clash⟩

end Engine

end HubContract
