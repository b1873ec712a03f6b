import HubContract.Text.Blank
import Mathlib.Data.List.TakeWhile

namespace HubContract.Text

variable {p : Char → Bool} {c : Char} {cs ds : List Char}

-- Trimming

theorem trimWhere_eq_self (front : ∀ c ∈ cs.head?, p c = false)
    (back : ∀ c ∈ cs.getLast?, p c = false) : trimWhere p cs = cs := by
  have kept (ds : List Char) (h : ∀ c ∈ ds.head?, p c = false) : ds.dropWhile p = ds := by
    cases ds with
    | nil => rfl
    | cons c r => exact List.dropWhile_cons_of_neg (by simp [h c rfl])
  have kept' : cs.reverse.dropWhile p = cs.reverse := kept _ (by simpa using back)
  rw [trimWhere, kept cs front, kept', List.reverse_reverse]

theorem head?_trimWhere : ∀ c ∈ (trimWhere p cs).head?, p c = false := by
  intro c hc
  -- what is cut at the end leaves the first character, if it leaves any
  have front : trimWhere p cs <+: cs.dropWhile p := by
    have cut := (cs.dropWhile p).reverse.dropWhile_suffix p
    simpa [trimWhere] using List.reverse_prefix.mpr cut
  obtain ⟨rest, split⟩ := front
  have first : (cs.dropWhile p).head? = some c := by
    rw [← split, List.head?_append, Option.mem_def.mp hc, Option.some_or]
  simpa [first] using List.head?_dropWhile_not p cs

theorem getLast?_trimWhere : ∀ c ∈ (trimWhere p cs).getLast?, p c = false := by
  intro c hc
  have first : ((cs.dropWhile p).reverse.dropWhile p).head? = some c := by
    simpa [trimWhere] using hc
  simpa [first] using List.head?_dropWhile_not p (cs.dropWhile p).reverse

theorem trimWhere_trimWhere : trimWhere p (trimWhere p cs) = trimWhere p cs :=
  trimWhere_eq_self head?_trimWhere getLast?_trimWhere

theorem mem_trimWhere (inside : c ∈ trimWhere p cs) : c ∈ cs := by
  have kept := List.dropWhile_subset _ (List.mem_reverse.mp inside)
  exact List.dropWhile_subset _ (List.mem_reverse.mp kept)

-- What is cut away may stand in front or at the end.
theorem trimWhere_append_of_all (each : ∀ c ∈ ds, p c) : trimWhere p (ds ++ cs) = trimWhere p cs := by
  rw [trimWhere, List.dropWhile_append_of_pos each, trimWhere]

theorem trimWhere_all_append (each : ∀ c ∈ ds, p c) : trimWhere p (cs ++ ds) = trimWhere p cs := by
  have reversed : ∀ c ∈ ds.reverse, p c := fun c inside => each c (List.mem_reverse.mp inside)
  rw [trimWhere, trimWhere, List.dropWhile_append]
  split
  · rename_i empty
    rw [List.dropWhile_eq_nil_iff.mpr each, List.isEmpty_iff.mp empty]
  · rw [List.reverse_append, List.dropWhile_append_of_pos reversed]

theorem exists_trimWhere (p : Char → Bool) (cs : List Char) : ∃ front back,
    (∀ c ∈ front, p c) ∧ (∀ c ∈ back, p c) ∧ cs = front ++ (trimWhere p cs ++ back) := by
  refine ⟨cs.takeWhile p, ((cs.dropWhile p).reverse.takeWhile p).reverse, fun c => List.mem_takeWhile_imp,
    fun c inside => List.mem_takeWhile_imp (List.mem_reverse.mp inside), ?_⟩
  rw [trimWhere, ← List.reverse_append, List.takeWhile_append_dropWhile, List.reverse_reverse,
    List.takeWhile_append_dropWhile]

-- Of what is not to be cut away nothing is.
theorem filter_trimWhere (p : Char → Bool) (cs : List Char) :
    ((trimWhere p cs).filter fun c => !p c) = cs.filter fun c => !p c := by
  obtain ⟨front, back, before, behind, whole⟩ := exists_trimWhere p cs
  have cut {ds : List Char} (each : ∀ c ∈ ds, p c) : ds.filter (fun c => !p c) = [] :=
    List.filter_eq_nil_iff.mpr fun c inside => by simp [each c inside]
  rw [congrArg (List.filter _) whole, List.filter_append, List.filter_append, cut before, cut behind,
    List.nil_append, List.append_nil]

-- What is kept of a text begins with the first character that is not cut away.
theorem head?_trimWhere_eq (p : Char → Bool) (cs : List Char) :
    (trimWhere p cs).head? = cs.find? fun c => !p c := by
  obtain ⟨front, back, before, behind, whole⟩ := exists_trimWhere p cs
  have cut {ds : List Char} (each : ∀ c ∈ ds, p c) : ds.find? (fun c => !p c) = none :=
    List.find?_eq_none.mpr fun c inside => by simp [each c inside]
  have found : cs.find? (fun c => !p c) = (trimWhere p cs).find? fun c => !p c := by
    rw [congrArg (List.find? _) whole, List.find?_append, List.find?_append, cut before, cut behind,
      Option.none_or, Option.or_none]
  have first : ∀ c ∈ (trimWhere p cs).head?, p c = false := head?_trimWhere
  rw [found]
  cases kept : trimWhere p cs with
  | nil => rfl
  | cons c rest =>
    rw [kept] at first
    simp [first c rfl]

-- Between two characters that are kept nothing is cut away.
theorem trimWhere_cons_append {d : Char} (first : p c = false) (other : p d = false) :
    trimWhere p (c :: cs ++ d :: ds) = c :: cs ++ trimWhere p (d :: ds) := by
  obtain ⟨front, back, before, behind, whole⟩ := exists_trimWhere p (d :: ds)
  obtain rfl : front = [] := by
    cases front with
    | nil => rfl
    | cons e front =>
      obtain ⟨rfl, -⟩ := List.cons.inj whole
      simp [other] at before
  rw [List.nil_append] at whole
  have filled : trimWhere p (d :: ds) ≠ [] := by
    intro nothing
    rw [nothing, List.nil_append] at whole
    simpa [other] using behind d (whole ▸ List.mem_cons_self)
  rw [congrArg (fun es => trimWhere p (c :: cs ++ es)) whole, ← List.append_assoc,
    trimWhere_all_append behind]
  refine trimWhere_eq_self ?_ ?_
  · simpa using first
  · rw [List.getLast?_append, List.getLast?_eq_some_getLast filled, Option.some_or,
      ← List.getLast?_eq_some_getLast]
    exact getLast?_trimWhere

-- Runs of blanks

-- Of every run of blanks one is left, as a space.
def squeezed : List Char → List Char
  | [] => []
  | c :: r =>
    if isBlank c then
      if r.head?.any isBlank then squeezed r else ' ' :: squeezed r
    else c :: squeezed r

-- A text with a space for every run of blanks, and none at either end.
def tidied (cs : List Char) : List Char := trimChars (squeezed cs)

theorem isBlank_of_mem_squeezed (inside : c ∈ squeezed cs) (blank : isBlank c) : c = ' ' := by
  induction cs with
  | nil => cases inside
  | cons d cs ih =>
    rw [squeezed] at inside
    split at inside
    · split at inside
      · exact ih inside
      · exact (List.mem_cons.mp inside).elim id ih
    · rename_i plain
      obtain rfl | later := List.mem_cons.mp inside
      · exact absurd blank plain
      · exact ih later

-- A word that was begun goes on.
theorem exists_wordsFrom (cs : List Char) {word : List Char} (begun : word ≠ []) :
    ∃ rest others, wordsFrom cs word = (word.reverse ++ rest) :: others := by
  induction cs generalizing word with
  | nil => exact ⟨[], [], by simp [wordsFrom, begun]⟩
  | cons c cs ih =>
    rw [wordsFrom]
    split
    · exact ⟨[], wordsFrom cs [], by simp [begun]⟩
    · obtain ⟨rest, others, eq⟩ := ih (List.cons_ne_nil c word)
      exact ⟨c :: rest, others, by simp [eq]⟩

theorem wordsFrom_plain (plain : ¬isBlank c) (word : List Char) :
    wordsFrom (c :: cs) word = wordsFrom cs (c :: word) := by
  rw [wordsFrom, if_neg plain]

theorem wordsFrom_blank {word : List Char} (blank : isBlank c) (begun : word ≠ []) :
    wordsFrom (c :: cs) word = word.reverse :: wordsFrom cs [] := by
  rw [wordsFrom, if_pos blank, if_neg (by simpa using begun)]

theorem wordsFrom_blank_nil (blank : isBlank c) : wordsFrom (c :: cs) [] = wordsFrom cs [] := by
  rw [wordsFrom, if_pos blank, List.isEmpty_nil, if_pos rfl]

-- Further blanks behind a word change nothing.
theorem wordsFrom_blank_blank (blank : isBlank c) (next : cs.head?.any isBlank) (word : List Char) :
    wordsFrom (c :: cs) word = wordsFrom cs word := by
  cases cs with
  | nil => cases next
  | cons d cs =>
    by_cases begun : word = []
    · rw [begun, wordsFrom_blank_nil blank]
    · rw [wordsFrom_blank blank begun, wordsFrom_blank_nil next, wordsFrom_blank next begun]

theorem trimChars_eq_self (plain : ∀ c ∈ cs, isBlank c = false) : trimChars cs = cs :=
  trimWhere_eq_self (fun c first => plain c (List.mem_of_mem_head? first))
    fun c last => plain c (List.mem_of_mem_getLast? last)

-- The induction is on the text behind that part of a word that was read before.
theorem intercalate_wordsFrom {word : List Char} (plain : ∀ c ∈ word.reverse, isBlank c = false) :
    [' '].intercalate (wordsFrom cs word) = trimChars (word.reverse ++ squeezed cs) := by
  have space : ∀ c ∈ [' '], isBlank c := List.forall_mem_singleton.mpr rfl
  induction cs using squeezed.induct generalizing word with
  | case1 =>
    rw [squeezed, List.append_nil, trimChars_eq_self plain]
    by_cases begun : word = [] <;> simp [wordsFrom, begun]
  | case2 c cs blank next ih =>
    rw [wordsFrom_blank_blank blank next, ih plain, squeezed, if_pos blank, if_pos next]
  | case3 c cs blank next ih =>
    rw [squeezed, if_pos blank, if_neg next]
    have later : [' '].intercalate (wordsFrom cs []) = trimChars (squeezed cs) :=
      ih (List.forall_mem_nil _)
    by_cases begun : word = []
    · rw [begun, wordsFrom_blank_nil blank, later]
      exact (trimWhere_append_of_all space).symm
    rw [wordsFrom_blank blank begun]
    cases cs with
    | nil =>
      -- the blank stands at the end
      rw [wordsFrom, List.isEmpty_nil, if_pos rfl, List.intercalate_singleton, squeezed]
      exact ((trimWhere_all_append space).trans (trimChars_eq_self plain)).symm
    | cons d cs =>
      obtain ⟨rest, others, given⟩ := exists_wordsFrom cs (List.cons_ne_nil d [])
      have goesOn : wordsFrom (d :: cs) [] ≠ [] := by
        rw [wordsFrom_plain next, given]
        exact List.cons_ne_nil _ _
      have kept : squeezed (d :: cs) = d :: squeezed cs := if_neg next
      obtain ⟨b, front, split⟩ := List.exists_cons_of_ne_nil (List.reverse_ne_nil_iff.mpr begun)
      have first : isBlank b = false := plain b (split ▸ List.mem_cons_self)
      have behind : trimChars (b :: (front ++ [' ']) ++ d :: squeezed cs) =
          b :: (front ++ [' ']) ++ trimChars (d :: squeezed cs) :=
        trimWhere_cons_append first (Bool.eq_false_iff.mpr next)
      rw [List.intercalate_cons_of_ne_nil goesOn, later, kept, split]
      simpa using behind.symm
  | case4 c cs other ih =>
    have longer : ∀ d ∈ (c :: word).reverse, isBlank d = false := by
      simpa [or_imp, forall_and] using ⟨by simpa using plain, by simpa using other⟩
    rw [wordsFrom_plain other, ih longer, squeezed, if_neg other, List.reverse_cons, List.append_assoc]
    rfl

theorem collapse_eq_tidied (cs : List Char) : collapse cs = tidied cs :=
  intercalate_wordsFrom (List.forall_mem_nil _)

theorem isBlank_of_mem_collapse (inside : c ∈ collapse cs) (blank : isBlank c) : c = ' ' := by
  rw [collapse_eq_tidied] at inside
  exact isBlank_of_mem_squeezed (mem_trimWhere inside) blank

end HubContract.Text
