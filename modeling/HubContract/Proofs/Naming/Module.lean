import HubContract.Proofs.Naming.Shape
import HubContract.Proofs.Text.Blank

namespace HubContract

namespace Naming

open HubContract.Text

variable {c : Char} {cs us word : List Char} {before : Option Char}

-- Nothing but a capital begins a word.
theorem separate_eq_self (small : ∀ c ∈ cs, isUpper c = false) (before : Option Char) :
    separate before cs = cs := by
  induction cs generalizing before with
  | nil => rfl
  | cons c cs ih =>
    obtain ⟨first, others⟩ := List.forall_mem_cons.mp small
    have goes : startsWord before c cs.head? = false := by
      cases before <;> simp [startsWord, first]
    rw [separate, goes, if_neg Bool.false_ne_true, ih others]

-- Underscores

theorem startsWord_underscore (before after : Option Char) : startsWord before '_' after = false := by
  cases before <;> rfl

-- Nothing is put behind an underscore.
theorem separate_some_underscore (cs : List Char) : separate (some '_') cs = separate none cs := by
  cases cs with
  | nil => rfl
  | cons c r =>
    have first : startsWord (some '_') c r.head? = false := by
      simp [startsWord, isLower, isUpper, isDigit]
    rw [separate, separate, first]
    rfl

theorem separate_append_front (under : ∀ c ∈ us, c = '_') (cs : List Char) :
    separate none (us ++ cs) = us ++ separate none cs := by
  induction us with
  | nil => rfl
  | cons c us ih =>
    obtain ⟨rfl, others⟩ := List.forall_mem_cons.mp under
    rw [List.cons_append, separate, startsWord_underscore, if_neg Bool.false_ne_true,
      separate_some_underscore, ih others, List.cons_append]

-- An underscore that follows makes no word begin.
theorem separate_append_back (under : ∀ c ∈ us, c = '_') (before : Option Char) (cs : List Char) :
    separate before (cs ++ us) = separate before cs ++ us := by
  induction cs generalizing before with
  | nil => exact separate_eq_self (fun c inside => by rw [under c inside]; rfl) before
  | cons c cs ih =>
    have follows : startsWord before c (cs ++ us).head? = startsWord before c cs.head? := by
      cases cs with
      | cons d cs => rfl
      | nil =>
        cases us with
        | nil => rfl
        | cons d us =>
          obtain rfl := under d List.mem_cons_self
          rfl
    rw [List.cons_append, separate, separate, follows, ih]
    split <;> rfl

theorem head?_separate (cs : List Char) : (separate none cs).head? = cs.head? := by
  cases cs <;> rfl

theorem getLast?_separate (before : Option Char) (cs : List Char) :
    (separate before cs).getLast? = cs.getLast? := by
  induction cs generalizing before with
  | nil => rfl
  | cons c cs ih =>
    rw [separate]
    split <;> simp [List.getLast?_cons, ih]

theorem subset_separate (before : Option Char) (cs : List Char) : cs ⊆ separate before cs := by
  induction cs generalizing before with
  | nil => exact List.nil_subset _
  | cons c cs ih =>
    rw [separate]
    split
    · exact List.subset_cons_of_subset _ (List.cons_subset_cons c (ih _))
    · exact List.cons_subset_cons c (ih _)

-- What is left of a name without what becomes an underscore at its ends.
def stem (name : String) : List Char := trimWhere (fun c => clean c = '_') name.toList

theorem toLower_eq_underscore (plain : isPlain c) : c.toLower = '_' ↔ c = '_' := by
  have each : ∀ n < 128, (Char.ofNat n).toLower = '_' ↔ Char.ofNat n = '_' := by decide
  exact of_ascii (p := fun c => c.toLower = '_' ↔ c = '_') each (toNat_lt_of_isPlain plain)

-- The words of the stem are those of the name.
theorem snakeChars_eq (name : String) : snakeChars name.toList =
    if (stem name).isEmpty then ['_'] else (separate none ((stem name).map clean)).map Char.toLower := by
  obtain ⟨front, back, before, behind, whole⟩ := exists_trimWhere (fun c => clean c = '_') name.toList
  have under {us : List Char} (each : ∀ c ∈ us, decide (clean c = '_') = true) :
      ∀ c ∈ us.map clean, c = '_' :=
    List.forall_mem_map.mpr fun c inside => of_decide_eq_true (each c inside)
  have lower {us : List Char} (each : ∀ c ∈ us, decide (clean c = '_') = true) :
      ∀ c ∈ (us.map clean).map Char.toLower, decide (c = '_') = true :=
    List.forall_mem_map.mpr fun c inside => by rw [under each c inside]; rfl
  have words : (separate none (name.toList.map clean)).map Char.toLower =
      (front.map clean).map Char.toLower ++
        ((separate none ((stem name).map clean)).map Char.toLower ++ (back.map clean).map Char.toLower) := by
    rw [whole, List.map_append, List.map_append, separate_append_front (under before),
      separate_append_back (under behind), List.map_append, List.map_append, stem]
  -- the ends of the stem are no underscores, nor do they become such
  have kept : ∀ c, decide (clean c = '_') = false → decide ((clean c).toLower = '_') = false := by
    intro c other
    simpa [toLower_eq_underscore (isPlain_clean c)] using other
  have ends : trimWhere (· = '_') ((separate none ((stem name).map clean)).map Char.toLower) =
      (separate none ((stem name).map clean)).map Char.toLower := by
    refine trimWhere_eq_self (fun d first => ?_) fun d last => ?_
    · rw [List.head?_map, head?_separate, List.head?_map, Option.mem_def, Option.map_map] at first
      obtain ⟨c, here, rfl⟩ := Option.map_eq_some_iff.mp first
      exact kept c (head?_trimWhere c here)
    · rw [List.getLast?_map, getLast?_separate, List.getLast?_map, Option.mem_def, Option.map_map] at last
      obtain ⟨c, here, rfl⟩ := Option.map_eq_some_iff.mp last
      exact kept c (getLast?_trimWhere c here)
  rw [snakeChars, words, trimWhere_append_of_all (lower before), trimWhere_all_append (lower behind), ends]
  cases stem name with
  | nil => rfl
  | cons c cs =>
    simp [separate, startsWord]

-- A module is called like nothing that begins with an underscore, but for one alone.
theorem moduleName_ne {name binding : String} (first : name.toList.head? = some '_') (long : name ≠ "_") :
    moduleName binding ≠ name := by
  rintro rfl
  obtain short | ⟨other, -⟩ := (isSnakeName_snakeCase binding).trimmed
  · exact long short
  · exact other first

-- Letters

theorem isPlain_of_isLower (lower : isLower c) : isPlain c :=
  isPlain_of_isSnake (by simp [isSnake, lower])

theorem isPlain_of_isUpper (upper : isUpper c) : isPlain c := by
  simp only [isUpper, decide_eq_true_eq] at upper
  simp [isPlain, isAsciiLetter, upper]

theorem of_isLower (lower : isLower c) :
    isUpper c = false ∧ c.toLower = c ∧ isUpper c.toUpper ∧ c.toUpper.toLower = c := by
  have each : ∀ n < 128, isLower (Char.ofNat n) → isUpper (Char.ofNat n) = false ∧
      (Char.ofNat n).toLower = Char.ofNat n ∧ isUpper (Char.ofNat n).toUpper ∧
      (Char.ofNat n).toUpper.toLower = Char.ofNat n := by decide
  exact of_ascii (p := fun c => isLower c → isUpper c = false ∧ c.toLower = c ∧ isUpper c.toUpper ∧
    c.toUpper.toLower = c) each (toNat_lt_of_isPlain (isPlain_of_isLower lower)) lower

theorem of_isUpper (upper : isUpper c) :
    isLower c = false ∧ isDigit c = false ∧ c.toLower.toUpper = c := by
  have each : ∀ n < 128, isUpper (Char.ofNat n) → isLower (Char.ofNat n) = false ∧
      isDigit (Char.ofNat n) = false ∧ (Char.ofNat n).toLower.toUpper = Char.ofNat n := by decide
  exact of_ascii (p := fun c => isUpper c → isLower c = false ∧ isDigit c = false ∧ c.toLower.toUpper = c)
    each (toNat_lt_of_isPlain (isPlain_of_isUpper upper)) upper

theorem isLower_or_isUpper (lower : isLower c.toLower) : isLower c ∨ isUpper c := by
  by_cases capital : 'A' ≤ c ∧ c ≤ 'Z'
  · exact .inr (decide_eq_true capital)
  · have same : c.toLower = c := dif_neg capital
    exact .inl (same ▸ lower)

-- Behind a small letter no word begins as long as there are small letters.
theorem isLower_of_separate {b : Char} (lower : isLower b) (letters : ∀ c ∈ cs, isLower c ∨ isUpper c)
    (whole : '_' ∉ separate (some b) cs) : ∀ c ∈ cs, isLower c := by
  induction cs generalizing b with
  | nil => exact List.forall_mem_nil _
  | cons c cs ih =>
    obtain ⟨first, others⟩ := List.forall_mem_cons.mp letters
    rw [separate] at whole
    split at whole
    · exact absurd List.mem_cons_self whole
    · rename_i goes
      have small : isLower c := first.resolve_right fun upper => goes (by simp [startsWord, upper, lower])
      have rest := ih small others fun inside => whole (List.mem_cons_of_mem _ inside)
      exact List.forall_mem_cons.mpr ⟨small, rest⟩

-- Behind a capital there are small letters alone, or capitals alone.
theorem isLower_or_isUpper_of_separate {b : Char} (upper : isUpper b)
    (letters : ∀ c ∈ cs, isLower c ∨ isUpper c) (whole : '_' ∉ separate (some b) cs) :
    (∀ c ∈ cs, isLower c) ∨ ∀ c ∈ cs, isUpper c := by
  induction cs generalizing b with
  | nil => exact .inl (List.forall_mem_nil _)
  | cons c cs ih =>
    obtain ⟨first, others⟩ := List.forall_mem_cons.mp letters
    rw [separate] at whole
    split at whole
    · exact absurd List.mem_cons_self whole
    · rename_i goes
      have later : '_' ∉ separate (some c) cs := fun inside => whole (List.mem_cons_of_mem _ inside)
      obtain small | capital := first
      · exact .inl (List.forall_mem_cons.mpr ⟨small, isLower_of_separate small others later⟩)
      · refine .inr (List.forall_mem_cons.mpr ⟨capital, ?_⟩)
        obtain smalls | capitals := ih capital others later
        · cases cs with
          | nil => exact List.forall_mem_nil _
          | cons d cs =>
            have small := smalls d List.mem_cons_self
            exact absurd (by simp [startsWord, upper, capital, small]) goes
        · exact capitals

theorem separate_of_isLower (lower : ∀ c ∈ cs, isLower c) (before : Option Char) :
    separate before cs = cs :=
  separate_eq_self (fun c inside => (of_isLower (lower c inside)).1) before

theorem separate_of_isUpper {b : Char} (upper : isUpper b) (uppers : ∀ c ∈ cs, isUpper c) :
    separate (some b) cs = cs := by
  induction cs generalizing b with
  | nil => rfl
  | cons c cs ih =>
    obtain ⟨first, others⟩ := List.forall_mem_cons.mp uppers
    have after : cs.head?.any isLower = false := by
      cases cs with
      | nil => rfl
      | cons d cs => exact (of_isUpper (others d List.mem_cons_self)).1
    obtain ⟨small, digit, -⟩ := of_isUpper upper
    have goes : startsWord (some b) c cs.head? = false := by
      simp [startsWord, small, digit, after]
    rw [separate, goes, if_neg Bool.false_ne_true, ih first others]

theorem map_eq_self {f : Char → Char} (each : ∀ c ∈ cs, f c = c) : cs.map f = cs :=
  (List.map_congr_left each).trans cs.map_id

-- A word of small letters as it stands, with a capital in front, and in capitals alone.
def spellings (word : List Char) : List (List Char) :=
  [word, word.modifyHead Char.toUpper, word.map Char.toUpper]

-- A spelling has one word.
theorem map_toLower_separate_of_mem (lower : ∀ c ∈ word, isLower c) (spelled : cs ∈ spellings word) :
    (separate none cs).map Char.toLower = word := by
  have small : word.map Char.toLower = word := map_eq_self fun c inside => (of_isLower (lower c inside)).2.1
  simp only [spellings, List.mem_cons, List.not_mem_nil, or_false] at spelled
  obtain rfl | capitalized := spelled
  · rw [separate_of_isLower lower, small]
  cases word with
  | nil =>
    obtain rfl : cs = [] := capitalized.elim id id
    rfl
  | cons d word =>
    obtain ⟨first, others⟩ := List.forall_mem_cons.mp lower
    obtain ⟨-, -, capital, back⟩ := of_isLower first
    obtain rfl | rfl := capitalized
    · rw [List.modifyHead_cons, separate, startsWord, if_neg Bool.false_ne_true, separate_of_isLower others,
        List.map_cons, back, (List.cons.inj small).2]
    · have uppers : ∀ c ∈ word.map Char.toUpper, isUpper c :=
        List.forall_mem_map.mpr fun c inside => (of_isLower (others c inside)).2.2.1
      have backs : (word.map Char.toUpper).map Char.toLower = word := by
        rw [List.map_map]
        exact map_eq_self fun c inside => (of_isLower (others c inside)).2.2.2
      rw [List.map_cons, separate, startsWord, if_neg Bool.false_ne_true, separate_of_isUpper capital uppers,
        List.map_cons, back, backs]

-- A word of small letters comes from its spellings alone.
theorem map_toLower_separate_eq_iff (lower : ∀ c ∈ word, isLower c) :
    (separate none cs).map Char.toLower = word ↔ cs ∈ spellings word := by
  refine ⟨?_, map_toLower_separate_of_mem lower⟩
  rintro rfl
  rw [List.forall_mem_map] at lower
  have letters : ∀ c ∈ separate none cs, isLower c ∨ isUpper c := fun c inside =>
    isLower_or_isUpper (lower c inside)
  cases cs with
  | nil => exact List.mem_cons_self
  | cons c cs =>
    have apart : separate none (c :: cs) = c :: separate (some c) cs := rfl
    rw [apart] at letters
    obtain ⟨first, others⟩ := List.forall_mem_cons.mp letters
    have whole : '_' ∉ separate (some c) cs := fun inside =>
      absurd (others '_' inside) (by decide)
    have others : ∀ d ∈ cs, isLower d ∨ isUpper d := fun d inside =>
      others d (subset_separate _ cs inside)
    simp only [apart, spellings, List.map_cons, List.modifyHead_cons, List.mem_cons]
    obtain small | capital := first
    · have smalls := isLower_of_separate small others whole
      rw [separate_of_isLower smalls, map_eq_self fun d inside => (of_isLower (smalls d inside)).2.1,
        (of_isLower small).2.1]
      exact .inl rfl
    · have back := (of_isUpper capital).2.2
      obtain smalls | capitals := isLower_or_isUpper_of_separate capital others whole
      · rw [separate_of_isLower smalls, map_eq_self fun d inside => (of_isLower (smalls d inside)).2.1, back]
        exact .inr (.inl rfl)
      · have backs : (cs.map Char.toLower).map Char.toUpper = cs := by
          rw [List.map_map]
          exact map_eq_self fun d inside => (of_isUpper (capitals d inside)).2.2
        rw [separate_of_isUpper capital capitals, back, backs]
        exact .inr (.inr (.inl rfl))

-- Spellings have nothing but letters in them.
theorem isLower_or_isUpper_of_mem_spellings (lower : ∀ c ∈ word, isLower c) (spelled : cs ∈ spellings word) :
    ∀ c ∈ cs, isLower c ∨ isUpper c := by
  have comes := map_toLower_separate_of_mem lower spelled
  intro c inside
  refine isLower_or_isUpper (lower _ ?_)
  rw [← comes]
  exact List.mem_map_of_mem (subset_separate none cs inside)

-- Characters that become underscores are in no spelling.
theorem map_clean_mem_spellings (lower : ∀ c ∈ word, isLower c) :
    cs.map clean ∈ spellings word ↔ cs ∈ spellings word := by
  constructor
  · intro spelled
    have letters := isLower_or_isUpper_of_mem_spellings lower spelled
    rw [List.forall_mem_map] at letters
    have kept : cs.map clean = cs := map_eq_self fun c inside => clean_eq_self fun under => by
      have letter := letters c inside
      rw [under] at letter
      exact absurd letter (by decide)
    rwa [kept] at spelled
  · intro spelled
    have letters := isLower_or_isUpper_of_mem_spellings lower spelled
    have kept : cs.map clean = cs := map_eq_self fun c inside =>
      if_pos ((letters c inside).elim isPlain_of_isLower isPlain_of_isUpper)
    rwa [kept]

-- The keywords that a module can be called like.
def smallKeywords : List String := keywords.filter (·.toList.all isLower)

-- A stem that begins with no digit, and is no keyword in any spelling.
def IsImportable (stem : List Char) : Prop :=
  (∀ c ∈ stem.head?, isDigit c = false) ∧ ∀ k ∈ smallKeywords, stem ∉ spellings k.toList

instance (stem : List Char) : Decidable (IsImportable stem) :=
  @instDecidableAnd _ _ (Option.decidableForallMem stem.head?) (List.decidableBAll _ smallKeywords)

theorem isDigit_toLower (plain : isPlain c) : isDigit c.toLower = isDigit c := by
  have each : ∀ n < 128, isDigit (Char.ofNat n).toLower = isDigit (Char.ofNat n) := by decide
  exact of_ascii (p := fun c => isDigit c.toLower = isDigit c) each (toNat_lt_of_isPlain plain)

-- A module is shaped like a name unless the stem of the binding begins with a digit.
theorem isName_snakeChars_iff (name : String) :
    isName (snakeChars name.toList) ↔ ∀ c ∈ (stem name).head?, isDigit c = false := by
  have snake : ∀ d ∈ snakeChars name.toList, isSnake d := fun d inside =>
    isSnake_of_mem_snakeCase (s := name) (by rwa [snakeCase, String.toList_ofList])
  rw [snakeChars_eq] at snake ⊢
  have cut : ∀ c ∈ (stem name).head?, decide (clean c = '_') = false := head?_trimWhere
  cases chars : stem name with
  | nil => exact iff_of_true (by decide) (by simp)
  | cons c cs =>
    rw [chars] at snake cut
    have kept : clean c = c := clean_eq_self (of_decide_eq_false (cut c rfl))
    have plain : isPlain c := kept ▸ isPlain_clean c
    have words : (separate none ((c :: cs).map clean)).map Char.toLower =
        c.toLower :: (separate (some c) (cs.map clean)).map Char.toLower := by
      rw [List.map_cons, kept]
      rfl
    rw [List.isEmpty_cons, if_neg Bool.false_ne_true, words] at snake ⊢
    rw [isName_iff_of_isPlain fun d inside => isPlain_of_isSnake (snake d inside), isDigit_toLower plain]
    simp

-- It is a keyword if the stem is that keyword in one of its spellings.
theorem isKeyword_moduleName_iff (binding : String) :
    isKeyword (moduleName binding) ↔ ∃ k ∈ smallKeywords, stem binding ∈ spellings k.toList := by
  have snake : ∀ d ∈ (moduleName binding).toList, isSnake d := fun d => isSnake_of_mem_snakeCase
  have small : ∀ k ∈ keywords, k.toList.all isSnake → k.toList.all isLower := by decide
  have marked : ∀ k ∈ smallKeywords, k.toList ≠ ['_'] ∧ k.toList ≠ [] := by decide
  have comes : ∀ k ∈ smallKeywords, moduleName binding = k ↔ stem binding ∈ spellings k.toList := by
    intro k inside
    have lower : ∀ c ∈ k.toList, isLower c := List.all_eq_true.mp (List.mem_filter.mp inside).2
    rw [← map_clean_mem_spellings lower, ← map_toLower_separate_eq_iff lower, ← String.toList_inj, moduleName,
      snakeCase, String.toList_ofList, snakeChars_eq]
    cases stem binding with
    | nil => exact iff_of_false (marked k inside).1.symm (marked k inside).2.symm
    | cons c cs => rfl
  rw [isKeyword, List.contains_iff_mem]
  constructor
  · intro keyword
    have inside : moduleName binding ∈ smallKeywords :=
      List.mem_filter.mpr ⟨keyword, small _ keyword (List.all_eq_true.mpr snake)⟩
    exact ⟨_, inside, (comes _ inside).mp rfl⟩
  · rintro ⟨k, inside, spelled⟩
    rw [(comes k inside).mpr spelled]
    exact (List.mem_filter.mp inside).1

-- Whether a module has a name of the generated language shows on the stem of the binding.
theorem isIdentifier_moduleName_iff (binding : String) :
    isIdentifier (moduleName binding) ↔ IsImportable (stem binding) := by
  have shape := isName_snakeChars_iff binding
  have keyword := isKeyword_moduleName_iff binding
  rw [isIdentifier, Bool.and_eq_true, Bool.not_eq_true', ← Bool.not_eq_true, keyword, moduleName, snakeCase,
    String.toList_ofList, shape, IsImportable]
  push Not
  rfl

end Naming

end HubContract
