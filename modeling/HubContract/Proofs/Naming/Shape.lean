import HubContract.Proofs.Naming.Distinct
import HubContract.Proofs.Text.Blank
import HubContract.Proofs.Text.Numeral
import Mathlib.Data.List.Forall2

namespace HubContract.Naming

open HubContract.Text

variable {c : Char} {cs ds : List Char} {s : String} {names : List String}

-- Characters of names in snake case.
def isSnake (c : Char) : Bool := isLower c || isDigit c || c = '_'

theorem isPlain_clean (c : Char) : isPlain (clean c) := by
  unfold clean
  split
  case isTrue plain => exact plain
  case isFalse => decide

theorem clean_eq_self (other : clean c ≠ '_') : clean c = c := by
  unfold clean at other ⊢
  split
  case isTrue => rfl
  case isFalse foreign => exact absurd (if_neg foreign) other

-- Letters and digits, which no name loses.
def isAlphanumeric (c : Char) : Bool := isAsciiLetter c || isDigit c

theorem clean_ne_underscore_iff (c : Char) : clean c ≠ '_' ↔ isAlphanumeric c := by
  constructor
  · intro other
    have plain := isPlain_clean c
    rw [clean_eq_self other] at plain other
    simpa [isPlain, isAlphanumeric, other] using plain
  · intro solid
    have plain : isPlain c := by rw [isPlain, ← isAlphanumeric, solid, Bool.true_or]
    rw [clean, if_pos plain]
    rintro rfl
    exact absurd solid (by decide)

theorem toNat_lt_of_isPlain (plain : isPlain c) : c.toNat < 128 := by
  simp only [isPlain, isAsciiLetter, isDigit, Bool.or_eq_true, decide_eq_true_eq] at plain
  obtain (((⟨-, last⟩ | ⟨-, last⟩) | ⟨-, last⟩) | rfl) := plain
  · exact Nat.lt_of_le_of_lt (show c.toNat ≤ 'z'.toNat from last) (by decide)
  · exact Nat.lt_of_le_of_lt (show c.toNat ≤ 'Z'.toNat from last) (by decide)
  · exact Nat.lt_of_le_of_lt (show c.toNat ≤ '9'.toNat from last) (by decide)
  · decide

theorem isPlain_of_isSnake (snake : isSnake c) : isPlain c := by
  simp only [isSnake, isPlain, isLower, isAsciiLetter, Bool.or_eq_true, decide_eq_true_eq] at snake ⊢
  exact snake.imp_left (Or.imp_left .inl)

-- What holds of all ASCII characters can be tried out.
theorem of_ascii {p : Char → Prop} (each : ∀ n < 128, p (Char.ofNat n)) (ascii : c.toNat < 128) : p c := by
  have here := each c.toNat ascii
  rwa [Char.ofNat_toNat] at here

theorem isSnake_toLower (plain : isPlain c) : isSnake c.toLower := by
  have each : ∀ n < 128, isPlain (Char.ofNat n) → isSnake (Char.ofNat n).toLower := by decide
  exact of_ascii (p := fun c => isPlain c → isSnake c.toLower) each (toNat_lt_of_isPlain plain) plain

-- Words are only told apart by more underscores.
theorem mem_separate {before : Option Char} {cs : List Char} (inside : c ∈ separate before cs) :
    c = '_' ∨ c ∈ cs := by
  induction cs generalizing before with
  | nil => cases inside
  | cons d cs ih =>
    rw [separate] at inside
    split at inside
    · obtain rfl | inside := List.mem_cons.mp inside
      · exact .inl rfl
      obtain rfl | later := List.mem_cons.mp inside
      · exact .inr List.mem_cons_self
      · exact (ih later).imp_right (List.mem_cons_of_mem _)
    · obtain rfl | later := List.mem_cons.mp inside
      · exact .inr List.mem_cons_self
      · exact (ih later).imp_right (List.mem_cons_of_mem _)

theorem isPlain_of_mem_separate (inside : c ∈ separate none (cs.map clean)) : isPlain c := by
  obtain rfl | cleaned := mem_separate inside
  · decide
  · obtain ⟨_, -, rfl⟩ := List.mem_map.mp cleaned
    exact isPlain_clean _

theorem isSnake_of_mem_snakeCase (inside : c ∈ (snakeCase s).toList) : isSnake c := by
  rw [snakeCase, String.toList_ofList, snakeChars] at inside
  split at inside
  · obtain rfl := List.mem_singleton.mp inside
    decide
  · obtain ⟨d, apart, rfl⟩ := List.mem_map.mp (mem_trimWhere inside)
    exact isSnake_toLower (isPlain_of_mem_separate apart)

-- What a name in snake case looks like.
structure IsSnakeName (s : String) : Prop where
  filled : s ≠ ""
  snake : ∀ c ∈ s.toList, isSnake c
  -- One underscore stands for a text of which nothing is left.
  trimmed : s = "_" ∨ s.toList.head? ≠ some '_' ∧ s.toList.getLast? ≠ some '_'

theorem isSnakeName_snakeCase (s : String) : IsSnakeName (snakeCase s) where
  filled := by
    rw [snakeCase, snakeChars, ne_eq, ← String.toList_inj, String.toList_ofList]
    split
    · decide
    · rename_i filled
      simpa using filled
  snake _ := isSnake_of_mem_snakeCase
  trimmed := by
    rw [snakeCase, String.toList_ofList, snakeChars]
    split
    · exact .inl rfl
    · exact .inr ⟨fun first => absurd (head?_trimWhere '_' first) (by decide),
        fun last => absurd (getLast?_trimWhere '_' last) (by decide)⟩

namespace Namer

-- A name is given as it was asked for, or with a suffix.
theorem give_eq (n : Namer) (name : String) :
    (n.give name).1 = name ∨ ∃ k, (n.give name).1 = suffixed name k := by
  unfold give
  split
  · exact .inr ⟨_, rfl⟩
  · exact .inl rfl

theorem forall₂_giveAll (n : Namer) (names : List String) :
    List.Forall₂ (fun name s => s = name ∨ ∃ k, s = suffixed name k) names (n.giveAll names) := by
  induction names generalizing n with
  | nil => exact .nil
  | cons name names ih => exact .cons (n.give_eq name) (ih _)

end Namer

theorem forall₂_uniqueNames (names : List String) :
    List.Forall₂ (fun name s => s = name ∨ ∃ k, s = suffixed name k) names (uniqueNames names) :=
  Namer.forall₂_giveAll {} names

theorem mem_uniqueNames (given : s ∈ uniqueNames names) :
    ∃ name ∈ names, s = name ∨ ∃ k, s = suffixed name k := by
  obtain ⟨i, within, rfl⟩ := List.getElem_of_mem given
  have asked : i < names.length := by rwa [length_uniqueNames] at within
  exact ⟨names[i], List.getElem_mem asked, (forall₂_uniqueNames names).get asked within⟩

theorem toList_suffixed (name : String) (k : Nat) :
    (suffixed name k).toList = name.toList ++ '_' :: digits k := by
  simp [suffixed, natural]

theorem isSnake_of_mem_suffix (k : Nat) : ∀ c ∈ '_' :: digits k, isSnake c :=
  List.forall_mem_cons.mpr ⟨by decide, fun c digit => by simp [isSnake, isDigit_of_mem_digits digit]⟩

-- What a base can be that is given for a name.
def IsBase (name base : String) : Prop := base = snakeCase name ∨ ∃ k, base = suffixed (snakeCase name) k

theorem IsBase.isSnake {name base : String} (given : IsBase name base) : ∀ c ∈ base.toList, isSnake c := by
  obtain rfl | ⟨k, rfl⟩ := given
  · exact fun c => isSnake_of_mem_snakeCase
  · rw [toList_suffixed]
    exact List.forall_mem_append.mpr ⟨fun c => isSnake_of_mem_snakeCase, isSnake_of_mem_suffix k⟩

theorem forall₂_uniqueBases (names : List String) : List.Forall₂ IsBase names (uniqueBases names) := by
  have given := forall₂_uniqueNames (names.map snakeCase)
  rwa [List.forall₂_map_left_iff] at given

theorem isSnake_of_mem_uniqueBases (given : s ∈ uniqueBases names) (inside : c ∈ s.toList) :
    isSnake c := by
  obtain ⟨i, within, rfl⟩ := List.getElem_of_mem given
  have asked : i < names.length := by rwa [length_uniqueBases] at within
  exact ((forall₂_uniqueBases names).get asked within).isSnake c inside

-- Names with an underscore are not taken for keywords.
theorem isKeyword_eq_false (marked : '_' ∈ s.toList) : isKeyword s = false := by
  have unmarked : ∀ k ∈ keywords, '_' ∉ k.toList := by decide
  rw [isKeyword, ← Bool.not_eq_true, List.contains_iff_mem]
  exact fun keyword => unmarked s keyword marked

theorem isIdentifierPart_of_isPlain (plain : isPlain c) : isIdentifierPart c := by
  have ascii := toNat_lt_of_isPlain plain
  rw [isIdentifierPart, if_pos ascii]
  simpa [isPlain, isDigit, or_assoc, or_left_comm, or_comm] using plain

-- A text of such characters is shaped like a name, unless it begins with a digit.

theorem isIdentifierStart_of_isPlain (plain : isPlain c) : isIdentifierStart c ↔ isDigit c = false := by
  have each : ∀ n < 128, isPlain (Char.ofNat n) →
      (isIdentifierStart (Char.ofNat n) ↔ isDigit (Char.ofNat n) = false) := by decide
  exact of_ascii (p := fun c => isPlain c → (isIdentifierStart c ↔ isDigit c = false)) each
    (toNat_lt_of_isPlain plain) plain

theorem isName_iff_of_isPlain (plain : ∀ d ∈ c :: cs, isPlain d) : isName (c :: cs) ↔ isDigit c = false := by
  obtain ⟨first, others⟩ := List.forall_mem_cons.mp plain
  have parts : cs.all isIdentifierPart := List.all_eq_true.mpr fun d inside =>
    isIdentifierPart_of_isPlain (others d inside)
  rw [isName, parts, Bool.and_true, isIdentifierStart_of_isPlain first]

-- What is put behind it has no say in that.

theorem isName_append_iff (filled : cs ≠ []) (parts : ∀ d ∈ ds, isIdentifierPart d) :
    isName (cs ++ ds) ↔ isName cs := by
  cases cs with
  | nil => exact absurd rfl filled
  | cons c cs => rw [List.cons_append, isName, isName, List.all_append, List.all_eq_true.mpr parts, Bool.and_true]

theorem isName_append (shaped : isName cs) (parts : ∀ d ∈ ds, isIdentifierPart d) : isName (cs ++ ds) := by
  have filled : cs ≠ [] := by
    rintro rfl
    cases shaped
  exact (isName_append_iff filled parts).mpr shaped

-- A base between such texts is a name as well, and an ASCII one.
theorem isIdentifier_around (lead tail : String) {base : String} (front : lead.toList.all isSnake)
    (snake : ∀ c ∈ base.toList, isSnake c) (back : tail.toList.all isSnake)
    (marked : '_' ∈ lead.toList) (shaped : isName lead.toList) :
    isIdentifier (lead ++ base ++ tail) ∧ ∀ c ∈ (lead ++ base ++ tail).toList, c.toNat < 128 := by
  have behind : ∀ c ∈ base.toList ++ tail.toList, isSnake c :=
    List.forall_mem_append.mpr ⟨snake, List.all_eq_true.mp back⟩
  have chars : (lead ++ base ++ tail).toList = lead.toList ++ (base.toList ++ tail.toList) := by simp
  have named : isName (lead ++ base ++ tail).toList := by
    rw [chars]
    exact isName_append shaped fun c inside =>
      isIdentifierPart_of_isPlain (isPlain_of_isSnake (behind c inside))
  refine ⟨?_, fun c inside => ?_⟩
  · rw [isIdentifier, named, isKeyword_eq_false (by simp [marked])]
    rfl
  · rw [chars] at inside
    exact toNat_lt_of_isPlain (isPlain_of_isSnake
      (List.forall_mem_append.mpr ⟨List.all_eq_true.mp front, behind⟩ c inside))

-- A repaired name is one of plain characters.

theorem isPlain_of_mem_safeIdentifier {name : String} (inside : c ∈ (safeIdentifier name).toList) :
    isPlain c := by
  have cleaned : ∀ d ∈ name.toList.map clean, isPlain d :=
    List.forall_mem_map.mpr fun d _ => isPlain_clean d
  unfold safeIdentifier at inside
  extract_lets cs s at inside
  have mark : ∀ d ∈ "_".toList, isPlain d := List.all_eq_true.mp (by decide)
  have plain : ∀ d ∈ s.toList, isPlain d := by
    unfold s
    split
    · exact mark
    · rwa [String.toList_ofList]
  split at inside
  · rw [String.toList_append] at inside
    exact List.forall_mem_append.mpr ⟨plain, mark⟩ c inside
  split at inside
  · rw [String.toList_append] at inside
    exact List.forall_mem_append.mpr ⟨mark, plain⟩ c inside
  · exact plain c inside

theorem isName_safeIdentifier (name : String) : isName (safeIdentifier name).toList := by
  have plain {c : Char} (inside : c ∈ (safeIdentifier name).toList) := isPlain_of_mem_safeIdentifier inside
  -- so only the first character counts
  suffices first : ∃ c cs, (safeIdentifier name).toList = c :: cs ∧ isDigit c = false by
    obtain ⟨c, cs, chars, other⟩ := first
    rw [chars] at plain ⊢
    exact (isName_iff_of_isPlain fun d => plain).mpr other
  clear plain
  unfold safeIdentifier
  extract_lets cs s
  have known : ∀ k ∈ keywords ++ reserved, k.toList.head?.any (!isDigit ·) := by decide
  split
  case isTrue taken =>
    rw [Bool.or_eq_true, isKeyword, List.contains_iff_mem, List.contains_iff_mem, ← List.mem_append] at taken
    obtain ⟨c, first, other⟩ := (Option.any_eq_true ..).mp (known s taken)
    obtain ⟨ds, chars⟩ := List.head?_eq_some_iff.mp first
    exact ⟨c, ds ++ ['_'], by simp [chars], by simpa using other⟩
  split
  case isTrue => exact ⟨'_', s.toList, by simp, by decide⟩
  case isFalse digit =>
    unfold s
    cases chars : cs with
    | nil => exact ⟨'_', [], by decide, by decide⟩
    | cons c ds =>
      rw [chars] at digit
      exact ⟨c, ds, by simp, by simpa using digit⟩

-- It is neither a keyword nor what a wrapper uses itself, because these have no underscore.

theorem free_of_marked (marked : '_' ∈ s.toList) : isKeyword s = false ∧ s ∉ reserved := by
  have unmarked : ∀ r ∈ reserved, '_' ∉ r.toList := by decide
  exact ⟨isKeyword_eq_false marked, fun inside => unmarked s inside marked⟩

theorem safeIdentifier_free (name : String) :
    isKeyword (safeIdentifier name) = false ∧ safeIdentifier name ∉ reserved := by
  unfold safeIdentifier
  extract_lets cs s
  split
  case isTrue => exact free_of_marked (by simp)
  case isFalse kept =>
    split
    · exact free_of_marked (by simp)
    · simpa only [Bool.or_eq_true, List.contains_iff_mem, not_or, Bool.not_eq_true] using kept

-- What a parameter of generated code may be called.
structure IsParameterName (s : String) : Prop where
  plain : ∀ c ∈ s.toList, isPlain c
  shaped : isName s.toList
  free : isKeyword s = false ∧ s ∉ reserved

theorem isParameterName_safeIdentifier (name : String) : IsParameterName (safeIdentifier name) where
  plain _ := isPlain_of_mem_safeIdentifier
  shaped := isName_safeIdentifier name
  free := safeIdentifier_free name

-- A suffix takes none of that away.
theorem IsParameterName.suffixed (fit : IsParameterName s) (k : Nat) : IsParameterName (suffixed s k) := by
  have behind : ∀ c ∈ '_' :: digits k, isPlain c := fun c inside =>
    isPlain_of_isSnake (isSnake_of_mem_suffix k c inside)
  refine ⟨?_, ?_, free_of_marked (by simp [toList_suffixed])⟩
  · rw [toList_suffixed]
    exact List.forall_mem_append.mpr ⟨fit.plain, behind⟩
  · rw [toList_suffixed]
    exact isName_append fit.shaped fun c inside => isIdentifierPart_of_isPlain (behind c inside)

theorem isParameterName_of_mem_uniqueNames (given : s ∈ uniqueNames (names.map safeIdentifier)) :
    IsParameterName s := by
  obtain ⟨name, asked, form⟩ := mem_uniqueNames given
  obtain ⟨declared, -, rfl⟩ := List.mem_map.mp asked
  obtain rfl | ⟨k, rfl⟩ := form
  · exact isParameterName_safeIdentifier declared
  · exact (isParameterName_safeIdentifier declared).suffixed k

-- A name that needs no repair and has no underscore is given only for itself, because there is one wherever
-- a name is repaired.

theorem safeIdentifier_eq (name : String) : '_' ∈ (safeIdentifier name).toList ∨
    safeIdentifier name = String.ofList (name.toList.map clean) := by
  unfold safeIdentifier
  extract_lets cs s
  split
  · exact .inl (by simp)
  split
  · exact .inl (by simp)
  unfold s
  split
  · exact .inl (by decide)
  · exact .inr rfl

theorem safeIdentifier_eq_self {name : String} (unmarked : '_' ∉ (safeIdentifier name).toList) :
    safeIdentifier name = name := by
  have cleaned := (safeIdentifier_eq name).resolve_left unmarked
  rw [cleaned, String.toList_ofList] at unmarked
  have same : ∀ c ∈ name.toList, clean c = c := fun c inside =>
    clean_eq_self fun marked => unmarked (List.mem_map.mpr ⟨c, inside, marked⟩)
  rw [cleaned, List.map_congr_left same, List.map_id', String.ofList_toList]

theorem safeIdentifier_eq_iff {name : String} (unmarked : '_' ∉ s.toList) (kept : safeIdentifier s = s) :
    safeIdentifier name = s ↔ name = s := by
  refine ⟨fun same => ?_, fun same => same ▸ kept⟩
  exact (safeIdentifier_eq_self (same ▸ unmarked)).symm.trans same

namespace Namer

-- What is asked for is given, now or before.
theorem mem_giveAll_of_mem {n : Namer} (asked : s ∈ names) : s ∈ n.taken ∨ s ∈ n.giveAll names := by
  induction names generalizing n with
  | nil => cases asked
  | cons name names ih =>
    rw [giveAll, List.mem_cons]
    obtain rfl | later := List.mem_cons.mp asked
    · by_cases here : s ∈ n.taken
      · exact .inl here
      · exact .inr (.inl (by rw [give, if_neg (by simpa using here)]))
    · obtain before | given := ih (n := (n.give name).2) later
      · rw [taken_give, List.mem_cons] at before
        exact before.elim (.inr ∘ .inl) .inl
      · exact .inr (.inr given)

end Namer

theorem mem_uniqueNames_iff (unmarked : '_' ∉ s.toList) : s ∈ uniqueNames names ↔ s ∈ names := by
  refine ⟨fun given => ?_, fun asked => (Namer.mem_giveAll_of_mem asked).resolve_left List.not_mem_nil⟩
  obtain ⟨name, asked, rfl | ⟨k, rfl⟩⟩ := mem_uniqueNames given
  · exact asked
  · exact absurd (by simp [toList_suffixed]) unmarked

end HubContract.Naming
