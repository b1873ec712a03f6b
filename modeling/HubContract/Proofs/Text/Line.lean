import HubContract.Proofs.Json.Number
import HubContract.Proofs.Text.Blank
import HubContract.Proofs.Text.Quoted
import HubContract.Source.Text

namespace HubContract.Text

open HubContract.Number

variable {c : Char} {s t : String} {cs ds : List Char}

def isLineBreak (c : Char) : Bool := c = '\n' || c = '\r'

-- The lines of a text, also the one behind the last line break.
def linesOf (cs : List Char) : List (List Char) := cs.splitOnP isLineBreak

-- A text that goes on the line on which it begins.
def IsOneLine (s : String) : Prop := ∀ c ∈ s.toList, isLineBreak c = false

instance (s : String) : Decidable (IsOneLine s) :=
  List.decidableBAll (fun c => isLineBreak c = false) s.toList

theorem linesOf_of_isOneLine (one : IsOneLine s) : linesOf s.toList = [s.toList] :=
  List.splitOnP_eq_singleton one

-- A line break ends one line and begins the next.
theorem linesOf_append_break (cs ds : List Char) (ends : isLineBreak c) :
    linesOf (cs ++ c :: ds) = linesOf cs ++ linesOf ds := List.splitOnP_append_cons cs ds ends

-- The last line of a text is the only one that may go on.
theorem exists_linesOf_append (cs : List Char) : ∃ front last, linesOf cs = front ++ [last] ∧
    ∀ ds first back, linesOf ds = first :: back →
      linesOf (cs ++ ds) = front ++ (last ++ first) :: back := by
  induction cs with
  | nil => exact ⟨[], [], List.splitOnP_nil, fun ds first back lines => lines⟩
  | cons c cs ih =>
    obtain ⟨front, last, lines, append⟩ := ih
    simp only [linesOf, List.cons_append, List.splitOnP_cons_eq_if_modifyHead] at lines append ⊢
    split
    · refine ⟨[] :: front, last, by rw [lines, List.cons_append], fun ds first back given => ?_⟩
      rw [append ds first back given, List.cons_append]
    · cases front with
      | nil =>
        refine ⟨[], c :: last, by rw [lines]; rfl, fun ds first back given => ?_⟩
        rw [append ds first back given]
        rfl
      | cons line front =>
        refine ⟨(c :: line) :: front, last, by rw [lines]; rfl, fun ds first back given => ?_⟩
        rw [append ds first back given]
        rfl

theorem exists_linesOf (cs : List Char) : ∃ first back, linesOf cs = first :: back :=
  List.exists_cons_of_ne_nil (List.splitOnP_ne_nil _ cs)

-- A character that is no line break stands on the first line.
theorem exists_linesOf_cons (other : isLineBreak c = false) (cs : List Char) :
    ∃ first back, linesOf cs = first :: back ∧ linesOf (c :: cs) = (c :: first) :: back := by
  obtain ⟨first, back, lines⟩ := exists_linesOf cs
  refine ⟨first, back, lines, ?_⟩
  rw [linesOf, List.splitOnP_cons_eq_if_modifyHead, other, ← linesOf, lines]
  rfl

-- A text is its first line, or what follows that line is the next ones.
theorem of_linesOf_cons {first : List Char} {back : List (List Char)} (lines : linesOf cs = first :: back) :
    back = [] ∧ cs = first ∨
      ∃ c ds, isLineBreak c ∧ cs = first ++ c :: ds ∧ linesOf ds = back := by
  induction cs generalizing first with
  | nil =>
    obtain ⟨rfl, rfl⟩ := List.cons.inj lines
    exact .inl ⟨rfl, rfl⟩
  | cons c cs ih =>
    cases breaks : isLineBreak c with
    | true =>
      rw [linesOf, List.splitOnP_cons_eq_if_modifyHead, if_pos breaks] at lines
      obtain ⟨rfl, rfl⟩ := List.cons.inj lines
      exact .inr ⟨c, cs, breaks, rfl, rfl⟩
    | false =>
      obtain ⟨line, others, inner, outer⟩ := exists_linesOf_cons breaks cs
      obtain ⟨rfl, rfl⟩ := List.cons.inj (outer.symm.trans lines)
      obtain ⟨last, same⟩ | ⟨d, ds, ends, split, later⟩ := ih inner
      · exact .inl ⟨last, congrArg _ same⟩
      · exact .inr ⟨d, ds, ends, congrArg _ split, later⟩

-- A text without line break in front only makes the first line longer.
theorem tail_linesOf_append (one : IsOneLine s) (ds : List Char) :
    (linesOf (s.toList ++ ds)).tail = (linesOf ds).tail := by
  obtain ⟨front, last, lines, append⟩ := exists_linesOf_append s.toList
  obtain ⟨first, back, given⟩ := exists_linesOf ds
  obtain rfl : front = [] := by
    have length := congrArg List.length lines
    rw [linesOf_of_isOneLine one] at length
    simpa using length
  rw [append ds first back given, given]
  rfl

-- Texts on one line.

@[simp] theorem isOneLine_append : IsOneLine (s ++ t) ↔ IsOneLine s ∧ IsOneLine t := by
  simp only [IsOneLine, String.toList_append, List.forall_mem_append]

@[simp] theorem isOneLine_ofList : IsOneLine (String.ofList cs) ↔ ∀ c ∈ cs, isLineBreak c = false := by
  rw [IsOneLine, String.toList_ofList]

theorem isOneLine_intercalate {sep : String} {xs : List String} (between : IsOneLine sep)
    (each : ∀ x ∈ xs, IsOneLine x) : IsOneLine (sep.intercalate xs) := by
  induction xs with
  | nil =>
    rw [String.intercalate_nil]
    decide
  | cons x xs ih =>
    obtain ⟨first, others⟩ := List.forall_mem_cons.mp each
    by_cases last : xs = []
    · rwa [last, String.intercalate_singleton]
    · rw [String.intercalate_cons_of_ne_nil last]
      simp only [isOneLine_append]
      exact ⟨⟨first, between⟩, ih others⟩

-- What neither of the two line breaks has.
theorem isLineBreak_eq_false {p : Char → Bool} (feed : p '\n' = false) (back : p '\r' = false)
    (holds : p c) : isLineBreak c = false := by
  by_contra breaks
  rw [Bool.not_eq_false, isLineBreak, Bool.or_eq_true, decide_eq_true_eq, decide_eq_true_eq] at breaks
  obtain rfl | rfl := breaks
  · exact absurd holds (by simp [feed])
  · exact absurd holds (by simp [back])

theorem isLineBreak_of_isDigit (digit : isDigit c) : isLineBreak c = false :=
  isLineBreak_eq_false (by decide) (by decide) digit

theorem isOneLine_quoted (s : String) : IsOneLine (quoted s) := by
  rw [quoted, isOneLine_ofList]
  exact fun c inside =>
    isLineBreak_eq_false (by decide) (by decide) (Quoted.isVisible_of_mem_quoteChars inside)

theorem isOneLine_natural (n : Nat) : IsOneLine (natural n) := by
  rw [natural, isOneLine_ofList]
  exact fun c inside => isLineBreak_of_isDigit (isDigit_of_mem_digits inside)

theorem isOneLine_padded (width n : Nat) : IsOneLine (padded width n) :=
  fun _ inside => isLineBreak_of_isDigit (isDigit_of_mem_padded inside)

theorem isLineBreak_of_mem_collapse (inside : c ∈ collapse cs) : isLineBreak c = false := by
  by_contra breaks
  have blank : isBlank c := by
    rw [Bool.not_eq_false, isLineBreak, Bool.or_eq_true, decide_eq_true_eq, decide_eq_true_eq] at breaks
    obtain rfl | rfl := breaks <;> decide
  obtain rfl := isBlank_of_mem_collapse inside blank
  exact breaks (by decide)

-- What is declared with a plain character first is written with that character first.
theorem head?_docText (first : s.toList.head? = some c) (plain : isBlank c = false) (kept : c ≠ '\\')
    (kept' : c ≠ '"') : (Source.docText s).toList.head? = some c := by
  rw [Source.docText, String.toList_ofList, Source.docChars, Source.escapeDoc_eq_flatMap, collapse]
  cases chars : s.toList with
  | nil =>
    rw [chars] at first
    cases first
  | cons d cs =>
    obtain rfl : d = c := by simpa [chars] using first
    obtain ⟨rest, others, eq⟩ := exists_wordsFrom cs (List.cons_ne_nil d [])
    rw [words, wordsFrom, if_neg (by simp [plain]), eq]
    cases others <;> simp [List.intercalate_cons_of_ne_nil, kept, kept']

-- However a text is declared, a comment or docstring made of it stays on its line.
theorem isOneLine_docText (s : String) : IsOneLine (Source.docText s) := by
  rw [Source.docText, Source.docChars, Source.escapeDoc_eq_flatMap, isOneLine_ofList]
  intro c inside
  obtain ⟨d, kept, escaped⟩ := List.mem_flatMap.mp inside
  have plain := isLineBreak_of_mem_collapse kept
  split at escaped
  · obtain rfl | same := List.mem_cons.mp escaped
    · decide
    · exact List.mem_singleton.mp same ▸ plain
  · exact List.mem_singleton.mp escaped ▸ plain

-- Nor do numbers need more than one line, however they are laid out.
theorem isOneLine_place (l : Layout) (n : Nat) (point : Int) :
    IsOneLine (l.place (digits n) point) := by
  have row {ds : List Char} (sub : ds ⊆ '0' :: digits n) : IsOneLine (String.ofList ds) := by
    rw [isOneLine_ofList]
    intro c inside
    obtain rfl | digit := List.mem_cons.mp (sub inside)
    · decide
    · exact isLineBreak_of_isDigit (isDigit_of_mem_digits digit)
  have zeros (k : Nat) : List.replicate k '0' ⊆ '0' :: digits n := fun c inside => by
    rw [List.eq_of_mem_replicate inside]
    exact List.mem_cons_self
  have all : digits n ⊆ '0' :: digits n := List.subset_cons_self ..
  have signed (e : Int) : IsOneLine (l.exponentText e) := by
    rw [Layout.exponentText, isOneLine_append]
    refine ⟨?_, isOneLine_padded _ _⟩
    split <;> decide
  have first (k : Nat) := row (List.Subset.trans (List.take_subset k _) all)
  have rest (k : Nat) := row (List.Subset.trans (List.drop_subset k _) all)
  rw [Layout.place]
  split
  · split
    · exact isOneLine_append.mpr ⟨by decide, row (List.append_subset.mpr ⟨zeros _, all⟩)⟩
    · split
      · exact isOneLine_append.mpr ⟨row (List.append_subset.mpr ⟨all, zeros _⟩), by decide⟩
      · simp only [isOneLine_append]
        exact ⟨⟨first _, by decide⟩, rest _⟩
  · simp only [isOneLine_append]
    refine ⟨⟨⟨first 1, ?_⟩, by decide⟩, signed _⟩
    split
    · decide
    · exact isOneLine_append.mpr ⟨by decide, rest 1⟩

theorem isOneLine_render (l : Layout) (x : Binary64) : IsOneLine (l.render x) := by
  cases x with
  | finite s m =>
    rw [Layout.render, isOneLine_append]
    refine ⟨?_, isOneLine_place _ _ _⟩
    split <;> decide
  | infinite s =>
    rw [Layout.render]
    split <;> decide
  | nan =>
    rw [Layout.render]
    decide

end HubContract.Text
