import HubContract.Proofs.Text.Line
import HubContract.Source.Fake
import HubContract.Source.Registration
import Mathlib.Data.List.Basic
import Mathlib.Data.List.Induction

namespace HubContract.Source

open HubContract.Text

variable {c : Char} {s t : String} {cs : List Char}

def isIndent (c : Char) : Bool := c = ' ' || c = '\t' || c = '\x0c'

-- Whether a line begins with an import from the package that it stands in.
def isRelativeImport (line : List Char) : Bool :=
  let line := line.dropWhile isIndent
  "from".toList.isPrefixOf line && ((line.drop 4).dropWhile isIndent).head? = some '.'

-- The lines of a source that import from its package.
def imports (source : String) : List String :=
  ((linesOf source.toList).filter isRelativeImport).map String.ofList

-- Those that stand behind a line break.
def laterImports (text : String) : List String :=
  ((linesOf text.toList).tail.filter isRelativeImport).map String.ofList

-- The line that imports a binding from its module.
def importOf (module name : String) : String := "from ." ++ module ++ " import " ++ name

-- The line that imports the registration helper.
def registrationImport (h : RegistrationHelper) : String :=
  importOf "registration" (h.builderName ++ ", " ++ h.functionName)

@[simp] theorem isRelativeImport_space (cs : List Char) :
    isRelativeImport (' ' :: cs) = isRelativeImport cs := rfl

theorem isRelativeImport_cons (outer : isIndent c = false) (other : c ≠ 'f') (cs : List Char) :
    isRelativeImport (c :: cs) = false := by
  have first : "from".toList.isPrefixOf (c :: cs) = false := by
    simp [List.isPrefixOf, other.symm]
  rw [isRelativeImport, List.dropWhile_cons_of_neg (by simp [outer]), first, Bool.false_and]

-- What may follow a line without making it an import.
def isStop (c : Char) : Bool := !isIndent c && !"from.".toList.contains c

theorem dropWhile_isIndent_append (stop : isIndent c = false) (cs ds : List Char) :
    (cs ++ c :: ds).dropWhile isIndent = cs.dropWhile isIndent ++ c :: ds := by
  have kept : (c :: ds).dropWhile isIndent = c :: ds :=
    List.dropWhile_cons_of_neg (by simp [stop])
  rw [List.dropWhile_append, kept]
  split
  · rename_i empty
    rw [List.isEmpty_iff.mp empty, List.nil_append]
  · rfl

theorem isRelativeImport_append (stop : isStop c) (cs ds : List Char) :
    isRelativeImport (cs ++ c :: ds) = isRelativeImport cs := by
  rw [isStop, Bool.and_eq_true, Bool.not_eq_true', Bool.not_eq_true'] at stop
  obtain ⟨outer, other⟩ := stop
  have other : ∀ d ∈ "from.".toList, d ≠ c := by
    rintro d inside rfl
    rw [List.contains_iff_mem.mpr inside] at other
    cases other
  have dot : c ≠ '.' := (other '.' (by decide)).symm
  simp only [isRelativeImport, dropWhile_isIndent_append outer]
  -- the word is in front of the stop, or not at all
  match cs.dropWhile isIndent with
  | [] | [a] | [a, b] | [a, b, d] => simp_all [List.isPrefixOf]
  | a :: b :: d :: e :: rest =>
    have behind : ((rest ++ c :: ds).dropWhile isIndent).head? = some '.' ↔
        (rest.dropWhile isIndent).head? = some '.' := by
      rw [dropWhile_isIndent_append outer]
      cases rest.dropWhile isIndent <;> simp [dot]
    simp [List.isPrefixOf, behind]

theorem isStop_of_isLineBreak (breaks : isLineBreak c) : isStop c := by
  rw [isLineBreak, Bool.or_eq_true, decide_eq_true_eq, decide_eq_true_eq] at breaks
  obtain rfl | rfl := breaks <;> decide

-- Whether a text begins with an import is seen on its first line.
theorem isRelativeImport_first {first : List Char} {back : List (List Char)}
    (lines : linesOf cs = first :: back) : isRelativeImport first = isRelativeImport cs := by
  obtain ⟨-, rfl⟩ | ⟨c, ds, breaks, rfl, -⟩ := of_linesOf_cons lines
  · rfl
  · exact (isRelativeImport_append (isStop_of_isLineBreak breaks) first ds).symm

theorem imports_eq_laterImports (other : isRelativeImport s.toList = false) :
    imports s = laterImports s := by
  obtain ⟨first, back, lines⟩ := exists_linesOf s.toList
  have skip : ¬ isRelativeImport first = true := by simp [isRelativeImport_first lines, other]
  rw [imports, laterImports, lines, List.filter_cons_of_neg skip, List.tail_cons]

theorem laterImports_of_isOneLine (one : IsOneLine s) : laterImports s = [] := by
  rw [laterImports, linesOf_of_isOneLine one]
  rfl

theorem imports_eq_nil (one : IsOneLine s) (other : isRelativeImport s.toList = false) :
    imports s = [] := by
  rw [imports_eq_laterImports other, laterImports_of_isOneLine one]

theorem imports_eq_singleton (one : IsOneLine s) (here : isRelativeImport s.toList) :
    imports s = [s] := by
  rw [imports, linesOf_of_isOneLine one, List.filter_cons_of_pos here, List.filter_nil,
    List.map_singleton, String.ofList_toList]

-- What a text has behind its line breaks does not change with what stands in front of it.
theorem laterImports_append (one : IsOneLine s) (t : String) :
    laterImports (s ++ t) = laterImports t := by
  rw [laterImports, String.toList_append, tail_linesOf_append one, laterImports]

theorem laterImports_eq_nil_iff :
    laterImports s = [] ↔ ∀ line ∈ (linesOf s.toList).tail, isRelativeImport line = false := by
  rw [laterImports, List.map_eq_nil_iff, List.filter_eq_nil_iff]
  simp only [Bool.not_eq_true]

-- A line that goes on with a stop is no other import for it, so that texts can be looked at one by one.
theorem laterImports_append_eq_nil_iff (s : String) (begins : t.toList = c :: cs) (stop : isStop c) :
    laterImports (s ++ t) = [] ↔ laterImports s = [] ∧ laterImports t = [] := by
  obtain ⟨front, last, own, append⟩ := exists_linesOf_append s.toList
  obtain ⟨first, back, next⟩ := exists_linesOf t.toList
  have meet : isRelativeImport (last ++ first) = isRelativeImport last := by
    rw [begins] at next
    cases breaks : isLineBreak c with
    | true =>
      rw [linesOf, List.splitOnP_cons_eq_if_modifyHead, if_pos breaks] at next
      obtain ⟨rfl, -⟩ := List.cons.inj next
      rw [List.append_nil]
    | false =>
      obtain ⟨line, others, -, outer⟩ := exists_linesOf_cons breaks cs
      obtain ⟨rfl, -⟩ := List.cons.inj (outer.symm.trans next)
      exact isRelativeImport_append stop last line
  simp only [laterImports_eq_nil_iff, String.toList_append, append _ _ _ next, own, next]
  cases front with
  | nil => simp
  | cons line front =>
    simp only [List.cons_append, List.tail_cons, List.forall_mem_append, List.forall_mem_cons,
      List.not_mem_nil, IsEmpty.forall_iff, implies_true, true_and, and_assoc, meet]

theorem imports_append_break (s t : String) : imports (s ++ "\n" ++ t) = imports s ++ imports t := by
  have lines : (s ++ "\n" ++ t).toList = s.toList ++ '\n' :: t.toList := by
    simp
  rw [imports, lines, linesOf_append_break _ _ (by decide), List.filter_append, List.map_append]
  rfl

@[simp] theorem imports_empty : imports "" = [] := imports_eq_nil (by decide) (by decide)

theorem imports_intercalate (lines : List String) :
    imports ("\n".intercalate lines ++ "\n") = lines.flatMap imports := by
  have ending (s : String) : imports (s ++ "\n") = imports s := by
    rw [← String.append_empty (s := s ++ "\n"), imports_append_break, imports_empty, List.append_nil]
  rw [ending]
  induction lines with
  | nil => exact imports_empty
  | cons line lines ih =>
    by_cases last : lines = []
    · rw [last, String.intercalate_singleton, List.flatMap_singleton]
    · rw [String.intercalate_cons_of_ne_nil last, imports_append_break, ih, List.flatMap_cons]

-- The imports of a module are those of the lines that it is made of.
theorem imports_joined (lines : List String) : imports (joined lines) = lines.flatMap imports := by
  rw [joined, imports_intercalate]
  induction lines using List.reverseRecOn with
  | nil => rfl
  | append_singleton lines line ih =>
    rw [List.reverse_append, List.reverse_singleton, List.singleton_append]
    by_cases empty : line = ""
    · rw [List.dropWhile_cons_of_pos (by simpa using empty), ih, empty, List.flatMap_append,
        List.flatMap_singleton, imports_empty, List.append_nil]
    · rw [List.dropWhile_cons_of_neg (by simpa using empty), List.reverse_cons, List.reverse_reverse]

-- A text that begins like no import.
def beginsOther (cs : List Char) : Bool := (cs.dropWhile isIndent).head?.any (· ≠ 'f')

theorem isRelativeImport_lead {lead : String} (begins : beginsOther lead.toList) (s : String) :
    isRelativeImport (lead ++ s).toList = false := by
  rw [beginsOther] at begins
  cases first : lead.toList.dropWhile isIndent with
  | nil =>
    rw [first] at begins
    cases begins
  | cons c cs =>
    rw [first] at begins
    have other : 'f' ≠ c := by simpa using Ne.symm (of_decide_eq_true begins)
    rw [isRelativeImport, String.toList_append, List.dropWhile_append, first]
    simp [List.isPrefixOf, other]

-- Lines that are no imports, and stay on their lines.
structure IsQuiet (line : String) : Prop where
  oneLine : IsOneLine line
  other : isRelativeImport line.toList = false

-- Which lines are the same for every module is tried out on their characters.
theorem isQuiet_ofList :
    IsQuiet (String.ofList cs) ↔ cs.all (!isLineBreak ·) ∧ isRelativeImport cs = false := by
  have one : cs.all (!isLineBreak ·) = true ↔ IsOneLine (String.ofList cs) := by
    simp only [isOneLine_ofList, List.all_eq_true, Bool.not_eq_true']
  rw [one, ← String.toList_ofList (l := cs), String.ofList_toList]
  exact ⟨fun quiet => ⟨quiet.oneLine, quiet.other⟩, fun given => ⟨given.1, given.2⟩⟩

theorem IsQuiet.of_lead {lead s : String} (begins : beginsOther lead.toList) (one : IsOneLine lead)
    (rest : IsOneLine s) : IsQuiet (lead ++ s) :=
  ⟨isOneLine_append.mpr ⟨one, rest⟩, isRelativeImport_lead begins s⟩

theorem IsQuiet.imports (quiet : IsQuiet s) : Source.imports s = [] := imports_eq_nil quiet.oneLine quiet.other

theorem flatMap_imports_eq_nil {lines : List String} (quiet : ∀ line ∈ lines, IsQuiet line) :
    lines.flatMap imports = [] :=
  List.flatMap_eq_nil_iff.mpr fun line inside => (quiet line inside).imports

theorem isRelativeImport_indent (n : Nat) (cs : List Char) :
    isRelativeImport (List.replicate n ' ' ++ cs) = isRelativeImport cs := by
  induction n with
  | zero => rfl
  | succ n ih => rw [List.replicate_succ, List.cons_append, isRelativeImport_space, ih]

theorem isOneLine_of_replicate {lead : String} {n : Nat} (blank : lead.toList = List.replicate n ' ') :
    IsOneLine lead := by
  intro c inside
  rw [blank] at inside
  rw [List.eq_of_mem_replicate inside]
  decide

-- What is listed on lines of its own, moved to the right, is as quiet as before.
theorem IsQuiet.listed {lead : String} {n : Nat} (blank : lead.toList = List.replicate n ' ')
    (quiet : IsQuiet s) : IsQuiet (lead ++ (s ++ ",")) := by
  have begins : (lead ++ (s ++ ",")).toList = List.replicate n ' ' ++ (s.toList ++ [',']) := by
    simp [blank]
  refine ⟨?_, ?_⟩
  · simp only [isOneLine_append]
    exact ⟨isOneLine_of_replicate blank, quiet.oneLine, by decide⟩
  · rw [begins, isRelativeImport_indent, isRelativeImport_append (by decide) s.toList []]
    exact quiet.other

-- Where no line is an import, moving them to the right makes none.
theorem flatMap_imports_indented (level : Nat) {lines : List String}
    (other : ∀ line ∈ lines, isRelativeImport line.toList = false) :
    (indented level lines).flatMap imports = lines.flatMap laterImports := by
  rw [indented, List.flatMap_map]
  refine List.flatMap_congr fun line inside => ?_
  split
  · rename_i empty
    rw [empty]
    rfl
  · have lead : IsOneLine (String.ofList (List.replicate (4 * level) ' ')) :=
      isOneLine_of_replicate String.toList_ofList
    rw [imports_eq_laterImports, laterImports_append lead]
    rw [String.toList_append, String.toList_ofList, isRelativeImport_indent, other line inside]

theorem flatMap_imports_indented_eq_nil (level : Nat) {lines : List String}
    (quiet : ∀ line ∈ lines, IsQuiet line) : (indented level lines).flatMap imports = [] := by
  rw [flatMap_imports_indented level fun line inside => (quiet line inside).other,
    List.flatMap_eq_nil_iff]
  exact fun line inside => laterImports_of_isOneLine (quiet line inside).oneLine

theorem isQuiet_header {subject : String} : ∀ line ∈ header subject, IsQuiet line := by
  have title : IsQuiet ("# " ++ docText subject) :=
    .of_lead (by decide) (by decide) (isOneLine_docText subject)
  have version : IsQuiet ("# Generated by hubgen " ++ (generatorVersion ++ ". Do not edit.")) :=
    .of_lead (by decide) (by decide) (by decide)
  simp only [header, List.forall_mem_cons, String.append_assoc, version, title, true_and,
    List.not_mem_nil, false_implies, implies_true, and_true]
  and_intros
  all_goals exact isQuiet_ofList.mpr (by decide)

-- A text that may stand in a name.
def IsWord (s : String) : Prop := ∀ c ∈ s.toList, isIdentifierPart c

instance (s : String) : Decidable (IsWord s) :=
  List.decidableBAll (fun c => isIdentifierPart c) s.toList

theorem IsWord.isOneLine (word : IsWord s) : IsOneLine s := fun c inside =>
  isLineBreak_eq_false (by decide) (by decide) (word c inside)

-- A name is no import, whatever it is.
theorem IsWord.isRelativeImport (word : IsWord s) : isRelativeImport s.toList = false := by
  have undotted : ∀ cs : List Char, (∀ c ∈ cs, isIdentifierPart c) → cs.head? ≠ some '.' := by
    rintro (_ | ⟨c, cs⟩) each first
    · cases first
    · obtain rfl := Option.some.inj first
      exact absurd (each '.' List.mem_cons_self) (by decide)
  have rest := undotted (((s.toList.dropWhile isIndent).drop 4).dropWhile isIndent) fun c inside =>
    word c (List.dropWhile_subset _ (List.drop_subset _ _ (List.dropWhile_subset _ inside)))
  simp [Source.isRelativeImport, rest]

theorem imports_importOf {module name : String} (here : IsOneLine module) (there : IsOneLine name) :
    imports (importOf module name) = [importOf module name] := by
  refine imports_eq_singleton ?_ ?_
  · simp only [importOf, isOneLine_append]
    exact ⟨⟨⟨by decide, here⟩, by decide⟩, there⟩
  · simp only [importOf, String.toList_append, List.append_assoc]
    rfl

end HubContract.Source

namespace HubContract

open HubContract.Text HubContract.Source

-- Whatever a helper names is a name.
structure RegistrationHelper.IsPlain (h : RegistrationHelper) : Prop where
  builder : IsWord h.builderName
  function : IsWord h.functionName
  modules : ∀ e ∈ h.entries, IsWord e.bindingModule
  names : ∀ e ∈ h.entries, IsWord e.bindingName
  methods : ∀ e ∈ h.entries, IsWord e.methodName

namespace Source

variable {h : RegistrationHelper}

theorem importLine_eq (e : RegistrationEntry) : importLine e = importOf e.bindingModule e.bindingName := rfl

theorem flatMap_importLine (plain : h.IsPlain) :
    (h.entries.map importLine).flatMap imports = h.entries.map importLine := by
  rw [List.flatMap_map, List.map_eq_flatMap]
  refine List.flatMap_congr fun e inside => ?_
  rw [importLine_eq]
  exact imports_importOf (plain.modules e inside).isOneLine (plain.names e inside).isOneLine

theorem tierLine_eq (t : BackoffTier) : tierLine t = "    BackoffTier(attempts=" ++ natural t.attempts ++
    ", delay_seconds=" ++ Number.Layout.source.render t.delay ++ ")," := rfl

theorem isQuiet_tierLine (t : BackoffTier) : IsQuiet (tierLine t) := by
  rw [tierLine_eq, String.append_assoc, String.append_assoc, String.append_assoc]
  refine .of_lead (by decide) (by decide) ?_
  rw [isOneLine_append, isOneLine_append, isOneLine_append]
  exact ⟨isOneLine_natural _, by decide, isOneLine_render Number.Layout.source t.delay, by decide⟩

theorem isQuiet_policyLines (p : ReconnectPolicy) : ∀ line ∈ policyLines p, IsQuiet line := by
  intro line inside
  rw [policyLines, List.mem_append, List.mem_append, List.mem_singleton, List.mem_singleton] at inside
  obtain (rfl | tier) | rfl := inside
  · exact isQuiet_ofList.mpr (by decide)
  · obtain ⟨t, -, rfl⟩ := List.mem_map.mp tier
    exact isQuiet_tierLine t
  · exact isQuiet_ofList.mpr (by decide)

-- Besides lines with names in them there are lines that are the same for every helper.
theorem isQuiet_entryLines (plain : h.IsPlain) {e : RegistrationEntry} (inside : e ∈ h.entries) :
    ∀ line ∈ entryLines h.builderName e, IsQuiet line := by
  have name := (plain.names e inside).isOneLine
  have title : IsQuiet ("def " ++ (e.methodName ++ "(")) :=
    .of_lead (by decide) (by decide)
      (isOneLine_append.mpr ⟨(plain.methods e inside).isOneLine, by decide⟩)
  have result : IsQuiet (") -> " ++ (h.builderName ++ ":")) :=
    .of_lead (by decide) (by decide) (isOneLine_append.mpr ⟨plain.builder.isOneLine, by decide⟩)
  have doc : IsQuiet ("    \"\"\"Register " ++
      (e.bindingName ++ (" at <base_url>" ++ (docText e.hubUri ++ ".\"\"\"")))) := by
    refine .of_lead (by decide) (by decide) ?_
    simp only [isOneLine_append]
    exact ⟨name, by decide, isOneLine_docText e.hubUri, by decide⟩
  have handed : IsQuiet ("        " ++ (e.bindingName ++ ",")) :=
    .listed (n := 8) (by simp) ⟨name, (plain.names e inside).isRelativeImport⟩
  simp only [entryLines, List.forall_mem_cons, String.append_assoc, title, result, doc, handed, true_and,
    List.not_mem_nil, false_implies, implies_true, and_true]
  and_intros
  all_goals exact isQuiet_ofList.mpr (by decide)

-- The registration module imports the bindings, in the order of the entries, and nothing else of its
-- package.
theorem imports_registration (plain : h.IsPlain) :
    imports (registration h) = h.entries.map importLine := by
  have lifetime : IsQuiet ("DEFAULT_LIFETIME = ServiceLifetime." ++ h.defaultLifetime.member) :=
    .of_lead (by decide) (by decide) (by cases h.defaultLifetime <;> decide)
  have entries : (h.entries.flatMap fun e => indented 1 (entryLines h.builderName e)).flatMap imports =
      [] := by
    rw [List.flatMap_assoc, List.flatMap_eq_nil_iff]
    exact fun e inside => flatMap_imports_indented_eq_nil 1 (isQuiet_entryLines plain inside)
  have gap : (if h.entries.isEmpty then [] else [""]).flatMap imports = [] :=
    by split <;> decide
  have policy := flatMap_imports_eq_nil (isQuiet_policyLines h.reconnectPolicy)
  have builder {lead back : String} (begins : beginsOther lead.toList) (one : IsOneLine lead)
      (rest : IsOneLine back) : IsQuiet (lead ++ (h.builderName ++ back)) :=
    .of_lead begins one (isOneLine_append.mpr ⟨plain.builder.isOneLine, rest⟩)
  have title : IsQuiet ("class " ++ (h.builderName ++ ":")) :=
    builder (by decide) (by decide) (by decide)
  have function : IsQuiet ("def " ++ (h.functionName ++ "(")) :=
    .of_lead (by decide) (by decide) (isOneLine_append.mpr ⟨plain.function.isOneLine, by decide⟩)
  have result : IsQuiet (") -> " ++ (h.builderName ++ ":")) :=
    builder (by decide) (by decide) (by decide)
  have back : IsQuiet ("    return " ++ (h.builderName ++ "(services, connection_factory, base_url)")) :=
    builder (by decide) (by decide) (by decide)
  rw [registration, imports_joined, registrationLines]
  simp only [List.flatMap_append]
  rw [flatMap_imports_eq_nil isQuiet_header, flatMap_importLine plain, gap, policy, entries,
    flatMap_imports_eq_nil, flatMap_imports_eq_nil, flatMap_imports_eq_nil]
  · simp only [List.nil_append, List.append_nil]
  all_goals
    simp only [List.forall_mem_cons, String.append_assoc, lifetime, title, function, result, back, true_and,
      List.not_mem_nil, false_implies, implies_true, and_true]
    and_intros
    all_goals exact isQuiet_ofList.mpr (by decide)

theorem registrationImport_eq (h : RegistrationHelper) :
    registrationImport h = "from .registration import " ++ h.builderName ++ ", " ++ h.functionName := by
  have lead : "from ." ++ "registration" ++ " import " = "from .registration import " := by decide
  rw [registrationImport, importOf, lead, ← String.append_assoc, ← String.append_assoc]

theorem isRelativeImport_quoted (s : String) : isRelativeImport (quoted s).toList = false := by
  rw [quoted, String.toList_ofList, Quoted.quoteChars, List.cons_append]
  apply isRelativeImport_cons <;> (unfold Quoted.quoteFor; split <;> decide)

theorem isQuiet_export (name : String) : IsQuiet ("    " ++ quoted name ++ ",") := by
  rw [String.append_assoc]
  exact .listed (n := 4) (by simp) ⟨isOneLine_quoted name, isRelativeImport_quoted name⟩

-- The package imports them as well, and then the helper.
theorem imports_package (plain : h.IsPlain) :
    imports (package h) = h.entries.map importLine ++ [registrationImport h] := by
  have helper : imports (registrationImport h) = [registrationImport h] := by
    refine imports_importOf (by decide) ?_
    simp only [isOneLine_append]
    exact ⟨⟨plain.builder.isOneLine, by decide⟩, plain.function.isOneLine⟩
  have exports : ((exportedNames h).map fun n => "    " ++ quoted n ++ ",").flatMap imports = [] := by
    rw [List.flatMap_map, List.flatMap_eq_nil_iff]
    exact fun n _ => (isQuiet_export n).imports
  rw [package, imports_joined, packageLines]
  simp only [List.flatMap_append, flatMap_imports_eq_nil isQuiet_header, flatMap_importLine plain, exports,
    List.flatMap_cons, List.flatMap_nil, List.nil_append, List.append_nil, ← registrationImport_eq, helper,
    imports_empty, imports_eq_nil (s := "__all__ = [") (by decide) (by decide),
    imports_eq_nil (s := "]") (by decide) (by decide)]

end Source

-- Whatever a fake names is a name, the types of its parameters apart.
structure FakeBinding.IsPlain (f : FakeBinding) : Prop where
  name : IsWord f.name
  bindingName : IsWord f.bindingName
  bindingModule : IsWord f.bindingModule
  invoke : ∀ m ∈ f.invoke, IsWord m.methodName ∧ (∀ p ∈ m.parameters, IsWord p.name) ∧
    IsOneLine m.defaultResult
  push : ∀ m ∈ f.push, IsWord m.simulateName ∧ IsWord m.waitName ∧ ∀ p ∈ m.parameters, IsWord p.name

-- The types in the signatures of a fake.
def FakeBinding.parameterTypes (f : FakeBinding) : List String :=
  (f.invoke.flatMap (·.parameters) ++ f.push.flatMap (·.parameters)).map (·.type)

namespace Source

variable {ps : List Parameter} {f : FakeBinding} {ct : String}

theorem isOneLine_commaList {xs : List String} (each : ∀ x ∈ xs, IsOneLine x) : IsOneLine (commaList xs) :=
  isOneLine_intercalate (by decide) each

theorem isOneLine_argumentTuple (words : ∀ p ∈ ps, IsWord p.name) : IsOneLine (argumentTuple ps) := by
  have names : IsOneLine (commaList (ps.map (·.name))) :=
    isOneLine_commaList (List.forall_mem_map.mpr fun p inside => (words p inside).isOneLine)
  unfold argumentTuple
  split
  · rename_i p
    exact isOneLine_append.mpr
      ⟨isOneLine_append.mpr ⟨by decide, (words p List.mem_cons_self).isOneLine⟩, by decide⟩
  · exact isOneLine_append.mpr ⟨isOneLine_append.mpr ⟨by decide, names⟩, by decide⟩

theorem laterImports_commaList (xs : List String) :
    laterImports (commaList xs) = [] ↔ ∀ x ∈ xs, laterImports x = [] := by
  induction xs with
  | nil => exact iff_of_true rfl (List.forall_mem_nil _)
  | cons x xs ih =>
    by_cases last : xs = []
    · rw [last, commaList, String.intercalate_singleton, List.forall_mem_singleton]
    · rw [commaList, String.intercalate_cons_of_ne_nil last, String.append_assoc,
        laterImports_append_eq_nil_iff x (by simp; rfl) (by decide : isStop ','),
        laterImports_append (by decide), ← commaList, ih, List.forall_mem_cons]

theorem isOneLine_cancellationArgument (own : IsOneLine ct) : IsOneLine (cancellationArgument ct) :=
  isOneLine_append.mpr ⟨isOneLine_append.mpr ⟨by decide, own⟩, by decide⟩

-- Nothing in a signature is imported but by types.
theorem laterImports_signature {cancellation? : Option String} (words : ∀ p ∈ ps, IsWord p.name)
    (own : ∀ t ∈ cancellation?, IsOneLine t) :
    laterImports (signature ps cancellation?) = [] ↔ ∀ t ∈ ps.map (·.type), laterImports t = [] := by
  have typed : ∀ p ∈ ps, laterImports (p.name ++ ": " ++ p.type) = laterImports p.type := fun p inside =>
    laterImports_append (isOneLine_append.mpr ⟨(words p inside).isOneLine, by decide⟩) _
  rw [signature.eq_def, laterImports_commaList, List.cons_append, List.forall_mem_cons, List.forall_mem_append,
    List.forall_mem_map, List.forall_mem_map]
  refine (and_iff_right (laterImports_of_isOneLine (by decide))).trans ((and_iff_left ?_).trans ?_)
  · intro x inside
    split at inside
    · rename_i t
      split at inside
      · cases inside
      · rw [List.mem_singleton.mp inside]
        exact laterImports_of_isOneLine (isOneLine_cancellationArgument (own t rfl))
    · cases inside
  · exact forall₂_congr fun p inside => by rw [typed p inside]

theorem laterImports_recordedType (ps : List Parameter) :
    laterImports (recordedType ps) = [] ↔ ∀ t ∈ ps.map (·.type), laterImports t = [] := by
  unfold recordedType
  split
  · exact iff_of_true rfl (List.forall_mem_nil _)
  · rw [List.map_singleton, List.forall_mem_singleton]
  · rw [laterImports_append_eq_nil_iff _ (by simp; rfl) (by decide : isStop ']'),
      laterImports_append (by decide), laterImports_commaList]
    exact and_iff_left rfl

-- Nor is there anything else in the line that begins a method.
theorem laterImports_title {name back : String} {cancellation? : Option String} (word : IsWord name)
    (words : ∀ p ∈ ps, IsWord p.name) (own : ∀ t ∈ cancellation?, IsOneLine t)
    (begins : back.toList = ')' :: cs) (one : IsOneLine back) :
    laterImports ("async def " ++ name ++ "(" ++ signature ps cancellation? ++ back) = [] ↔
      ∀ t ∈ ps.map (·.type), laterImports t = [] := by
  have lead : IsOneLine ("async def " ++ name ++ "(") :=
    isOneLine_append.mpr ⟨isOneLine_append.mpr ⟨by decide, word.isOneLine⟩, by decide⟩
  rw [String.append_assoc, laterImports_append lead,
    laterImports_append_eq_nil_iff _ begins (by decide : isStop ')'), laterImports_signature words own]
  exact and_iff_left (laterImports_of_isOneLine one)

theorem laterImports_fakeInvokeLines {m : FakeInvokeMember} (word : IsWord m.methodName)
    (words : ∀ p ∈ m.parameters, IsWord p.name) (answer : IsOneLine m.defaultResult) (own : IsOneLine ct) :
    (∀ line ∈ fakeInvokeLines ct m, laterImports line = []) ↔
      ∀ t ∈ m.parameters.map (·.type), laterImports t = [] := by
  have call : IsOneLine ("    return await self._fake_invoke(" ++ quoted m.wireName ++ ", " ++
      argumentTuple m.parameters ++ ", " ++ m.defaultResult ++ ")") := by
    simp only [isOneLine_append]
    exact ⟨⟨⟨⟨⟨⟨by decide, isOneLine_quoted _⟩, by decide⟩, isOneLine_argumentTuple words⟩, by decide⟩,
      answer⟩, by decide⟩
  rw [fakeInvokeLines, List.forall_mem_cons, List.forall_mem_cons, List.forall_mem_singleton,
    laterImports_title word words (fun t same => Option.some.inj same ▸ own) (by simp; rfl) (by decide),
    laterImports_of_isOneLine call]
  exact and_iff_left ⟨rfl, rfl⟩

theorem laterImports_fakePushLines {m : FakePushMember} (simulate : IsWord m.simulateName)
    (wait : IsWord m.waitName) (words : ∀ p ∈ m.parameters, IsWord p.name) (own : IsOneLine ct) :
    (∀ line ∈ fakePushLines ct m, laterImports line = []) ↔
      ∀ t ∈ m.parameters.map (·.type), laterImports t = [] := by
  have title : laterImports ("async def " ++ m.simulateName ++ "(" ++ signature m.parameters none ++
      ") -> None:") = [] ↔ ∀ t ∈ m.parameters.map (·.type), laterImports t = [] :=
    laterImports_title simulate words (fun t none => absurd none (Option.not_mem_none t)) (by simp; rfl)
      (by decide)
  have call : IsOneLine ("    await self._simulate(" ++ quoted m.wireName ++ ", " ++
      argumentTuple m.parameters ++ ")") := by
    simp only [isOneLine_append]
    exact ⟨⟨⟨⟨by decide, isOneLine_quoted _⟩, by decide⟩, isOneLine_argumentTuple words⟩, by decide⟩
  have lead : IsOneLine ("async def " ++ m.waitName ++ "(self, " ++ cancellationArgument ct ++ ") -> ") := by
    simp only [isOneLine_append]
    exact ⟨⟨⟨⟨by decide, wait.isOneLine⟩, by decide⟩, isOneLine_cancellationArgument own⟩, by decide⟩
  -- what is waited for is the only thing that the types of parameters are put into besides
  have waited : laterImports ("async def " ++ m.waitName ++ "(self, " ++ cancellationArgument ct ++
      ") -> " ++ recordedType m.parameters ++ ":") = [] ↔
        ∀ t ∈ m.parameters.map (·.type), laterImports t = [] := by
    rw [String.append_assoc, laterImports_append lead,
      laterImports_append_eq_nil_iff _ (by simp; rfl) (by decide : isStop ':'), laterImports_recordedType]
    exact and_iff_left rfl
  have last : IsOneLine ("    return await self._wait_for(" ++ quoted m.wireName ++ ", cancellation)") := by
    simp only [isOneLine_append]
    exact ⟨⟨by decide, isOneLine_quoted _⟩, by decide⟩
  rw [fakePushLines]
  simp only [List.forall_mem_cons, title, waited, laterImports_of_isOneLine call,
    laterImports_of_isOneLine last, laterImports_of_isOneLine (by decide : IsOneLine "")]
  simp

-- Lines of members are no imports themselves.
theorem isRelativeImport_memberLine {line : String}
    (inside : line ∈ f.invoke.flatMap (fakeInvokeLines ct) ++ f.push.flatMap (fakePushLines ct)) :
    isRelativeImport line.toList = false := by
  obtain invoke | push := List.mem_append.mp inside
  · obtain ⟨m, -, of⟩ := List.mem_flatMap.mp invoke
    simp only [fakeInvokeLines, List.mem_cons, List.not_mem_nil, or_false, String.append_assoc] at of
    obtain rfl | rfl | rfl := of
    · exact isRelativeImport_lead (by decide) _
    · exact isRelativeImport_lead (by decide) _
    · rfl
  · obtain ⟨m, -, of⟩ := List.mem_flatMap.mp push
    simp only [fakePushLines, List.mem_cons, List.not_mem_nil, or_false, String.append_assoc] at of
    obtain rfl | rfl | rfl | rfl | rfl | rfl := of
    · exact isRelativeImport_lead (by decide) _
    · exact isRelativeImport_lead (by decide) _
    · rfl
    · exact isRelativeImport_lead (by decide) _
    · exact isRelativeImport_lead (by decide) _
    · rfl

-- What the types of a fake import, behind line breaks of theirs.
def strayImports (f : FakeBinding) (ct : String) : List String :=
  (f.invoke.flatMap (fakeInvokeLines ct) ++ f.push.flatMap (fakePushLines ct)).flatMap laterImports

-- There are none unless a type has one.
theorem strayImports_eq_nil_iff (plain : f.IsPlain) (own : IsOneLine ct) :
    strayImports f ct = [] ↔ ∀ t ∈ f.parameterTypes, laterImports t = [] := by
  have invoke : ∀ m ∈ f.invoke, (∀ line ∈ fakeInvokeLines ct m, laterImports line = []) ↔
      ∀ p ∈ m.parameters, laterImports p.type = [] := fun m inside =>
    have ⟨word, words, answer⟩ := plain.invoke m inside
    (laterImports_fakeInvokeLines word words answer own).trans List.forall_mem_map
  have push : ∀ m ∈ f.push, (∀ line ∈ fakePushLines ct m, laterImports line = []) ↔
      ∀ p ∈ m.parameters, laterImports p.type = [] := fun m inside =>
    have ⟨simulate, wait, words⟩ := plain.push m inside
    (laterImports_fakePushLines simulate wait words own).trans List.forall_mem_map
  simp only [strayImports, FakeBinding.parameterTypes, List.flatMap_eq_nil_iff, List.forall_mem_append,
    List.forall_mem_map, List.forall_mem_flatMap]
  exact and_congr (forall₂_congr invoke) (forall₂_congr push)

-- A fake imports its binding first.
theorem imports_fake (plain : f.IsPlain) (ct : String) :
    imports (fake f ct none) = importOf f.bindingModule f.bindingName :: strayImports f ct := by
  have binding : bindingImport none f.bindingModule f.bindingName =
      importOf f.bindingModule f.bindingName := rfl
  have members : (indented 1 (f.invoke.flatMap (fakeInvokeLines ct) ++
      f.push.flatMap (fakePushLines ct))).flatMap imports = strayImports f ct :=
    flatMap_imports_indented 1 fun line inside => isRelativeImport_memberLine inside
  have typing : IsQuiet "from typing import Optional" :=
    isQuiet_ofList.mpr (by decide)
  have bindings : IsQuiet "from hubgen.ir.bindings import FakeBinding" :=
    isQuiet_ofList.mpr (by decide)
  have runtime : IsQuiet "from hubgen.runtime import CancellationToken" :=
    isQuiet_ofList.mpr (by decide)
  have testing : IsQuiet "from hubgen.testing import FakeHubClientBase" :=
    isQuiet_ofList.mpr (by decide)
  have literal : IsQuiet ("_FAKE_JSON = " ++ fakeLiteral f) :=
    .of_lead (by decide) (by decide) (isOneLine_quoted _)
  have title : IsQuiet ("class " ++ (f.name ++ ("(FakeHubClientBase, " ++ (f.bindingName ++ "):")))) := by
    refine .of_lead (by decide) (by decide) ?_
    simp only [isOneLine_append]
    exact ⟨plain.name.isOneLine, by decide, plain.bindingName.isOneLine, by decide⟩
  have doc : IsQuiet ("    \"\"\"Test double for " ++ (f.bindingName ++ ".\"\"\"")) :=
    .of_lead (by decide) (by decide) (isOneLine_append.mpr ⟨plain.bindingName.isOneLine, by decide⟩)
  have model : IsQuiet "    __fake__ = FakeBinding.model_validate_json(_FAKE_JSON)" :=
    isQuiet_ofList.mpr (by decide)
  rw [fake, imports_joined, fakeLines, binding]
  simp only [String.append_assoc, List.flatMap_append, List.flatMap_cons, List.flatMap_nil, List.nil_append,
    flatMap_imports_eq_nil isQuiet_header, members, imports_empty, typing.imports, bindings.imports,
    runtime.imports, testing.imports, literal.imports, title.imports, doc.imports, model.imports,
    imports_importOf plain.bindingModule.isOneLine plain.bindingName.isOneLine, List.singleton_append]

end Source

end HubContract
