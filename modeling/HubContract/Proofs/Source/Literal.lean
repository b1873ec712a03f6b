import HubContract.Proofs.Binding.RoundTrip
import HubContract.Proofs.Text.Quoted
import HubContract.Source.Client
import HubContract.Source.Fake

namespace HubContract.Source

open HubContract.Text

-- A module with a line that gives a name to a literal.
def Carries (source name literal : String) : Prop :=
  ∃ front back, source = front ++ "\n" ++ (name ++ " = " ++ literal) ++ "\n" ++ back

-- A text without a line break, or anything else that has no visible form.
def StaysOnLine (literal : String) : Prop :=
  ∀ c ∈ literal.toList, c ≠ '\n' ∧ c ≠ '\r' ∧ Quoted.isVisible c = true

-- Only empty lines at the end are left out of the text of a module.
theorem exists_joined {front : List String} (first : front ≠ []) {line : String} (given : line ≠ "")
    (back : List String) : ∃ rest, joined (front ++ line :: back) =
      "\n".intercalate front ++ "\n" ++ line ++ "\n" ++ rest := by
  have kept : (front ++ line :: back).reverse.dropWhile (· = "") =
      back.reverse.dropWhile (· = "") ++ line :: front.reverse := by
    have stop : (line :: front.reverse).dropWhile (fun l => decide (l = "")) =
        line :: front.reverse := List.dropWhile_cons_of_neg (by simpa using given)
    rw [List.reverse_append, List.reverse_cons, List.append_assoc, List.dropWhile_append]
    split
    next empty =>
      rw [List.isEmpty_iff.mp empty, List.nil_append]
      exact stop
    next => rfl
  have lines : ((front ++ line :: back).reverse.dropWhile (· = "")).reverse =
      front ++ line :: (back.reverse.dropWhile (· = "")).reverse := by
    rw [kept]
    simp
  rw [joined, lines, String.intercalate_append_of_ne_nil first (List.cons_ne_nil _ _)]
  cases (back.reverse.dropWhile (· = "")).reverse with
  | nil => exact ⟨"", by simp⟩
  | cons l ls => exact ⟨"\n".intercalate (l :: ls) ++ "\n", by simp [String.append_assoc]⟩

-- A line behind the first one stands between two line breaks.
theorem exists_joined_of_getElem? {lines : List String} {n : Nat} (first : n ≠ 0) {line : String}
    (given : line ≠ "") (found : lines[n]? = some line) :
    ∃ front back, joined lines = front ++ "\n" ++ line ++ "\n" ++ back := by
  obtain ⟨inside, same⟩ := List.getElem?_eq_some_iff.mp found
  have split : lines = lines.take n ++ line :: lines.drop (n + 1) := by
    rw [← same, ← List.drop_eq_getElem_cons inside, List.take_append_drop]
  have some_front : lines.take n ≠ [] := by
    rw [Ne, List.take_eq_nil_iff, not_or]
    exact ⟨first, List.ne_nil_of_length_pos (Nat.zero_lt_of_lt inside)⟩
  obtain ⟨rest, text⟩ := exists_joined some_front given (lines.drop (n + 1))
  rw [split]
  exact ⟨"\n".intercalate (lines.take n), rest, text⟩

theorem carries_joined {lines : List String} {n : Nat} (first : n ≠ 0) {name literal : String}
    (found : lines[n]? = some (name ++ " = " ++ literal)) : Carries (joined lines) name literal := by
  have given : name ++ " = " ++ literal ≠ "" := by
    intro empty
    have length := congrArg String.length empty
    simp at length
  exact exists_joined_of_getElem? first given found

theorem staysOnLine_quoted (s : String) : StaysOnLine (quoted s) := by
  intro c mem
  rw [quoted, String.toList_ofList] at mem
  have visible := Quoted.isVisible_of_mem_quoteChars mem
  refine ⟨?_, ?_, visible⟩
  · rintro rfl
    cases visible
  · rintro rfl
    cases visible

theorem unquote?_quoted (s : String) : Quoted.unquote? (quoted s).toList = some s.toList := by
  rw [quoted, String.toList_ofList, Quoted.unquote?_quoteChars]

theorem client_carries (b : ClientBinding) :
    Carries (client b) "_MANIFEST_JSON" (ClientModule.manifestLiteral b.manifest) := by
  have found : (ClientModule.ofBinding b).lines[10]? =
      some ("_MANIFEST_JSON" ++ " = " ++ ClientModule.manifestLiteral b.manifest) := rfl
  exact carries_joined (by decide) found

theorem fake_carries (f : FakeBinding) (cancellationType : String) (package : Option String) :
    Carries (fake f cancellationType package) "_FAKE_JSON" (fakeLiteral f) := by
  have found : (fakeLines f cancellationType package)[13]? =
      some ("_FAKE_JSON" ++ " = " ++ fakeLiteral f) := rfl
  exact carries_joined (by decide) found

-- Both kinds of modules carry their model as a literal on a line of its own, which denotes a text that
-- is read as that model; and the text of a manifest, with any indent, is taken for that manifest.
theorem literals_restore :
    (∀ b : ClientBinding,
      Carries (client b) "_MANIFEST_JSON" (ClientModule.manifestLiteral b.manifest) ∧
      StaysOnLine (ClientModule.manifestLiteral b.manifest) ∧
      ∃ text : String,
        Quoted.unquote? (ClientModule.manifestLiteral b.manifest).toList = some text.toList ∧
        Manifest.checkText text = .ok b.manifest) ∧
    (∀ (f : FakeBinding) (cancellationType : String) (package : Option String),
      Carries (fake f cancellationType package) "_FAKE_JSON" (fakeLiteral f) ∧
      StaysOnLine (fakeLiteral f) ∧
      ∃ (text : String) (j : Json),
        Quoted.unquote? (fakeLiteral f).toList = some text.toList ∧
        Json.parse? text Json.maxNesting = some j ∧ FakeBinding.check (.ofJson j) = .ok f) ∧
    ∀ (m : Manifest) (indent : Option Nat),
      ManifestOrigin.load (.data (.str (m.toJson.render indent))) = .ok m := by
  refine ⟨fun b => ?_, fun f cancellationType package => ?_, ManifestOrigin.load_render⟩
  · exact ⟨client_carries b, staysOnLine_quoted _, _, unquote?_quoted _,
      b.manifest.checkText_render none⟩
  · exact ⟨fake_carries f cancellationType package, staysOnLine_quoted _, _, _, unquote?_quoted _,
      f.parse?_render none, f.restores.back⟩

end HubContract.Source
