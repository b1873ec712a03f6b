import HubContract.Proofs.Binding.Plain
import HubContract.Source.Client
import HubContract.Source.Registration

namespace HubContract.Source

open HubContract.Text

-- The characters that a backslash is put in front of.
def isMarked (c : Char) : Bool := c = '\\' || c = '"'

-- Texts in which every double quote is escaped and no backslash stands alone.
inductive IsEscaped : List Char → Prop where
  | nil : IsEscaped []
  | plain (other : isMarked c = false) (rest : IsEscaped cs) : IsEscaped (c :: cs)
  | pair (marked : isMarked c = true) (rest : IsEscaped cs) : IsEscaped ('\\' :: c :: cs)

-- What an escaped text stands for.
def unescaped? : List Char → Option (List Char)
  | [] => some []
  | '\\' :: c :: r => if isMarked c then (unescaped? r).map (c :: ·) else none
  | c :: r => if isMarked c then none else (unescaped? r).map (c :: ·)

-- A docstring from behind its first delimiter on: the text that it holds, and what stands behind its last
-- delimiter. Single double quotes may stand in a docstring, backslashes only in front of marked characters.
def docstring? : List Char → Option (List Char × List Char)
  | [] => none
  | '"' :: '"' :: '"' :: r => some ([], r)
  | '\\' :: c :: r => if isMarked c then (docstring? r).map (Prod.map (c :: ·) id) else none
  | c :: r => if c = '\\' then none else (docstring? r).map (Prod.map (c :: ·) id)

-- A piece of a docstring that stands for a text, whatever comes behind it.
def Denotes (piece value : List Char) : Prop :=
  ∀ behind, docstring? (piece ++ behind) = (docstring? behind).map (Prod.map (value ++ ·) id)

-- A line of a class or function on which its docstring begins and ends.
def HasDocstring (lines : List String) (value : String) : Prop :=
  ∃ body, "    \"\"\"" ++ body ++ "\"\"\"" ∈ lines ∧ IsOneLine body ∧
    ∀ behind, docstring? ((body ++ "\"\"\"").toList ++ behind) = some (value.toList, behind)

-- The text with a space for every run of blanks and none at its ends.
def tidy (s : String) : String := String.ofList (tidied s.toList)

variable {c : Char} {cs : List Char}

theorem of_not_isMarked (other : isMarked c = false) : c ≠ '\\' ∧ c ≠ '"' := by
  simpa [isMarked] using other

-- Marked characters and all others, as they are written.

theorem escapeDoc_marked (marked : isMarked c = true) : escapeDoc (c :: cs) = '\\' :: c :: escapeDoc cs := by
  have special : c = '\\' ∨ c = '"' := by simpa [isMarked] using marked
  rw [escapeDoc_eq_flatMap, List.flatMap_cons, if_pos special, ← escapeDoc_eq_flatMap]
  rfl

theorem escapeDoc_plain (other : isMarked c = false) : escapeDoc (c :: cs) = c :: escapeDoc cs := by
  rw [escapeDoc_eq_flatMap, List.flatMap_cons, if_neg (not_or.mpr (of_not_isMarked other)),
    ← escapeDoc_eq_flatMap]
  rfl

theorem isEscaped_escapeDoc (cs : List Char) : IsEscaped (escapeDoc cs) := by
  induction cs with
  | nil => exact .nil
  | cons c cs ih =>
    cases marked : isMarked c with
    | true =>
      rw [escapeDoc_marked marked]
      exact .pair marked ih
    | false =>
      rw [escapeDoc_plain marked]
      exact .plain marked ih

theorem unescaped?_escapeDoc (cs : List Char) : unescaped? (escapeDoc cs) = some cs := by
  induction cs with
  | nil => rfl
  | cons c cs ih =>
    cases marked : isMarked c with
    | true => rw [escapeDoc_marked marked, unescaped?, if_pos marked, ih, Option.map_some]
    | false =>
      have backslash := (of_not_isMarked marked).1
      rw [escapeDoc_plain marked, unescaped?.eq_def]
      simp_all

-- Pieces of docstrings

theorem Denotes.append {piece piece' value value' : List Char} (first : Denotes piece value)
    (second : Denotes piece' value') : Denotes (piece ++ piece') (value ++ value') := by
  intro behind
  rw [List.append_assoc, first, second, Option.map_map]
  congr 1
  funext ⟨text, rest⟩
  simp

theorem denotes_plain (other : isMarked c = false) : Denotes [c] [c] := by
  obtain ⟨backslash, quote⟩ := of_not_isMarked other
  intro behind
  rw [docstring?.eq_def]
  simp_all

theorem denotes_marked (marked : isMarked c = true) : Denotes ['\\', c] [c] := fun _ => if_pos marked

theorem denotes_escapeDoc (cs : List Char) : Denotes (escapeDoc cs) cs := by
  induction cs with
  | nil => exact fun _ => Option.map_id'.symm
  | cons c cs ih =>
    cases marked : isMarked c with
    | true =>
      rw [escapeDoc_marked marked]
      exact (denotes_marked marked).append ih
    | false =>
      rw [escapeDoc_plain marked]
      exact (denotes_plain marked).append ih

-- What is written as it is stands for itself.
theorem denotes_of_plain (plain : ∀ c ∈ cs, isMarked c = false) : Denotes cs cs := by
  have same : escapeDoc cs = cs := by
    induction cs with
    | nil => rfl
    | cons c cs ih =>
      obtain ⟨first, rest⟩ := List.forall_mem_cons.mp plain
      rw [escapeDoc_plain first, ih rest]
  have denotes := denotes_escapeDoc cs
  rwa [same] at denotes

-- A text of the generator itself.
theorem denotes_own (plain : cs.all (fun c => !isMarked c) = true) : Denotes cs cs :=
  denotes_of_plain fun c inside => by simpa using List.all_eq_true.mp plain c inside

theorem denotes_docText (s : String) : Denotes (docText s).toList (tidied s.toList) := by
  rw [docText, String.toList_ofList, docChars, collapse_eq_tidied]
  exact denotes_escapeDoc _

theorem isBlank_of_mem_docText {s : String} (inside : c ∈ (docText s).toList) (blank : isBlank c) :
    c = ' ' := by
  rw [docText, String.toList_ofList, docChars, escapeDoc_eq_flatMap] at inside
  obtain ⟨d, kept, escaped⟩ := List.mem_flatMap.mp inside
  have space : isBlank d → d = ' ' := isBlank_of_mem_collapse kept
  split at escaped
  · obtain rfl | same := List.mem_cons.mp escaped
    · cases blank
    · obtain rfl := List.mem_singleton.mp same
      exact space blank
  · obtain rfl := List.mem_singleton.mp escaped
    exact space blank

-- A docstring ends behind its pieces.
theorem Denotes.docstring? {piece value : List Char} (denotes : Denotes piece value) (behind : List Char) :
    Source.docstring? (piece ++ '"' :: '"' :: '"' :: behind) = some (value, behind) := by
  rw [denotes, Source.docstring?]
  simp

theorem Denotes.hasDocstring {lines : List String} {body value : String}
    (denotes : Denotes body.toList value.toList) (one : IsOneLine body)
    (inside : "    \"\"\"" ++ body ++ "\"\"\"" ∈ lines) : HasDocstring lines value :=
  ⟨body, inside, one, fun behind => by simpa using denotes.docstring? behind⟩

theorem period_append_delimiter : ".\"\"\"" = "." ++ "\"\"\"" := by decide

theorem hasDocstring_client (m : ClientModule) :
    HasDocstring m.lines ("Hub client for " ++ tidy m.contractName ++ " at " ++ tidy m.uri ++ ".") := by
  have denotes : Denotes ("Hub client for " ++ docText m.contractName ++ " at " ++ docText m.uri ++ ".").toList
      ("Hub client for " ++ tidy m.contractName ++ " at " ++ tidy m.uri ++ ".").toList := by
    simp only [String.toList_append, tidy, String.toList_ofList]
    exact ((((denotes_own (by decide)).append (denotes_docText _)).append
      (denotes_own (by decide))).append (denotes_docText _)).append (denotes_own (by decide))
  refine denotes.hasDocstring ?_ ?_
  · simp only [isOneLine_append]
    exact ⟨⟨⟨⟨by decide, isOneLine_docText _⟩, by decide⟩, isOneLine_docText _⟩, by decide⟩
  · have line : m.lines[14]? = some ("    \"\"\"Hub client for " ++ docText m.contractName ++ " at " ++
        docText m.uri ++ ".\"\"\"") := rfl
    have opening : "    \"\"\"Hub client for " = "    \"\"\"" ++ "Hub client for " := by decide
    rw [opening, period_append_delimiter] at line
    exact List.mem_of_getElem? (by simpa only [String.append_assoc] using line)

-- Names of bindings are identifiers, which are written as they are.
theorem hasDocstring_entry (builder : String) {e : RegistrationEntry} (named : isIdentifier e.bindingName) :
    HasDocstring (entryLines builder e)
      ("Register " ++ e.bindingName ++ " at <base_url>" ++ tidy e.hubUri ++ ".") := by
  have word : IsWord e.bindingName := .of_isIdentifier named
  have plain : ∀ c ∈ e.bindingName.toList, isMarked c = false := by
    intro c inside
    by_contra marked
    have part := word c inside
    simp only [isMarked, Bool.not_eq_false, Bool.or_eq_true, decide_eq_true_eq] at marked
    obtain rfl | rfl := marked <;> revert part <;> decide
  have denotes : Denotes ("Register " ++ e.bindingName ++ " at <base_url>" ++ docText e.hubUri ++ ".").toList
      ("Register " ++ e.bindingName ++ " at <base_url>" ++ tidy e.hubUri ++ ".").toList := by
    simp only [String.toList_append, tidy, String.toList_ofList]
    exact ((((denotes_own (by decide)).append (denotes_of_plain plain)).append
      (denotes_own (by decide))).append (denotes_docText _)).append (denotes_own (by decide))
  refine denotes.hasDocstring ?_ ?_
  · simp only [isOneLine_append]
    exact ⟨⟨⟨⟨by decide, word.isOneLine⟩, by decide⟩, isOneLine_docText _⟩, by decide⟩
  · have line : (entryLines builder e)[7]? = some ("    \"\"\"Register " ++ e.bindingName ++
        " at <base_url>" ++ docText e.hubUri ++ ".\"\"\"") := rfl
    have opening : "    \"\"\"Register " = "    \"\"\"" ++ "Register " := by decide
    rw [opening, period_append_delimiter] at line
    exact List.mem_of_getElem? (by simpa only [String.append_assoc] using line)

-- What is written for a declared text has no blank but spaces, and so no line break of any kind; its quotes
-- are escaped and its backslashes are paired, so that a comment goes on to the end of its line and a
-- docstring to its own delimiter; and it stands for the text with a space for every run of blanks and
-- none at its ends.
theorem declared_text_stays_inside :
    (∀ s : String,
      (∀ c ∈ (docText s).toList, isBlank c → c = ' ') ∧
      IsEscaped (docText s).toList ∧
      unescaped? (docText s).toList = some (tidied s.toList) ∧
      (∀ behind, linesOf (("# " ++ docText s).toList ++ '\n' :: behind) =
        ("# " ++ docText s).toList :: linesOf behind) ∧
      Denotes (docText s).toList (tidied s.toList) ∧
      ∀ behind, docstring? ((docText s ++ "\"\"\"").toList ++ behind) = some (tidied s.toList, behind)) ∧
    (∀ m : ClientModule, HasDocstring m.lines
      ("Hub client for " ++ tidy m.contractName ++ " at " ++ tidy m.uri ++ ".")) ∧
    ∀ (builder : String) (e : RegistrationEntry), isIdentifier e.bindingName →
      HasDocstring (entryLines builder e)
        ("Register " ++ e.bindingName ++ " at <base_url>" ++ tidy e.hubUri ++ ".") := by
  refine ⟨fun s => ?_, hasDocstring_client, fun builder e => hasDocstring_entry builder⟩
  have written : (docText s).toList = escapeDoc (tidied s.toList) := by
    rw [docText, String.toList_ofList, docChars, collapse_eq_tidied]
  have one : IsOneLine ("# " ++ docText s) := isOneLine_append.mpr ⟨by decide, isOneLine_docText s⟩
  refine ⟨fun c => isBlank_of_mem_docText, ?_, ?_, fun behind => ?_, denotes_docText s, fun behind => ?_⟩
  · rw [written]
    exact isEscaped_escapeDoc _
  · rw [written]
    exact unescaped?_escapeDoc _
  · rw [linesOf_append_break _ _ (by decide), linesOf_of_isOneLine one]
    rfl
  · simpa using (denotes_docText s).docstring? behind

end HubContract.Source
