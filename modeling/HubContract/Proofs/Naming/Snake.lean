import HubContract.Proofs.Naming.Module

namespace HubContract.Naming

open HubContract.Text

variable {c : Char} {cs : List Char} {s : String}

theorem isUpper_eq_false_of_isSnake (snake : isSnake c) : isUpper c = false := by
  have each : ∀ n < 128, isSnake (Char.ofNat n) → isUpper (Char.ofNat n) = false := by decide
  exact of_ascii (p := fun c => isSnake c → isUpper c = false) each
    (toNat_lt_of_isPlain (isPlain_of_isSnake snake)) snake

theorem toLower_eq_self_of_isSnake (snake : isSnake c) : c.toLower = c := by
  refine dif_neg fun capital => ?_
  have upper : isUpper c := decide_eq_true capital
  exact absurd (isUpper_eq_false_of_isSnake snake) (by rw [upper]; decide)

-- Such names are left alone.

theorem IsSnakeName.snakeCase_eq_self (named : IsSnakeName s) : snakeCase s = s := by
  have kept : s.toList.map clean = s.toList := map_eq_self fun c inside =>
    if_pos (isPlain_of_isSnake (named.snake c inside))
  have whole : separate none s.toList = s.toList :=
    separate_eq_self (fun c inside => isUpper_eq_false_of_isSnake (named.snake c inside)) none
  have small : s.toList.map Char.toLower = s.toList := map_eq_self fun c inside =>
    toLower_eq_self_of_isSnake (named.snake c inside)
  obtain rfl | ⟨first, last⟩ := named.trimmed
  · decide
  · have ends : trimWhere (· = '_') s.toList = s.toList :=
      trimWhere_eq_self (fun c front => decide_eq_false fun under => first (under ▸ front))
        fun c back => decide_eq_false fun under => last (under ▸ back)
    have filled : ¬s.toList.isEmpty := by simpa using named.filled
    rw [snakeCase, snakeChars, kept, whole, small, ends, if_neg filled, String.ofList_toList]

theorem snakeCase_eq_self_iff : snakeCase s = s ↔ IsSnakeName s :=
  ⟨fun same => same ▸ isSnakeName_snakeCase s, IsSnakeName.snakeCase_eq_self⟩

-- Each step leaves letters and digits in their order.

theorem filter_map_clean (cs : List Char) :
    (cs.map clean).filter (· != '_') = cs.filter isAlphanumeric := by
  induction cs with
  | nil => rfl
  | cons c cs ih =>
    by_cases solid : isAlphanumeric c
    · have other := (clean_ne_underscore_iff c).mpr solid
      rw [List.map_cons, List.filter_cons_of_pos (by simpa using other), ih, clean_eq_self other,
        List.filter_cons_of_pos solid]
    · have under : clean c = '_' := not_not.mp fun other => solid ((clean_ne_underscore_iff c).mp other)
      rw [List.map_cons, List.filter_cons_of_neg (by simp [under]), ih, List.filter_cons_of_neg solid]

theorem filter_separate (before : Option Char) (cs : List Char) :
    (separate before cs).filter (· != '_') = cs.filter (· != '_') := by
  induction cs generalizing before with
  | nil => rfl
  | cons c cs ih =>
    rw [separate]
    split
    · rw [List.filter_cons_of_neg (by decide), List.filter_cons, List.filter_cons, ih]
    · rw [List.filter_cons, List.filter_cons, ih]

theorem filter_map_toLower (plain : ∀ c ∈ cs, isPlain c) :
    (cs.map Char.toLower).filter (· != '_') = (cs.filter (· != '_')).map Char.toLower := by
  rw [List.filter_map]
  refine congrArg (List.map Char.toLower) (List.filter_congr fun c inside => ?_)
  rw [Bool.eq_iff_iff, Function.comp_apply, bne_iff_ne, bne_iff_ne, ne_eq, ne_eq,
    toLower_eq_underscore (plain c inside)]

theorem filter_snakeChars (cs : List Char) :
    (snakeChars cs).filter (· != '_') = (cs.filter isAlphanumeric).map Char.toLower := by
  have trimmed : (snakeChars cs).filter (· != '_') =
      ((separate none (cs.map clean)).map Char.toLower).filter (· != '_') := by
    refine Eq.trans ?_ (filter_trimWhere (· = '_') _)
    rw [snakeChars]
    split
    · rename_i empty
      rw [List.isEmpty_iff.mp empty]
      rfl
    · rfl
  calc (snakeChars cs).filter (· != '_')
    _ = ((separate none (cs.map clean)).map Char.toLower).filter (· != '_') := trimmed
    _ = ((separate none (cs.map clean)).filter (· != '_')).map Char.toLower :=
      filter_map_toLower fun _ => isPlain_of_mem_separate
    _ = ((cs.map clean).filter (· != '_')).map Char.toLower := by rw [filter_separate]
    _ = (cs.filter isAlphanumeric).map Char.toLower := by rw [filter_map_clean]

-- Whatever it is made of, a name in snake case is small and trimmed, stays as it is when that is asked for
-- again, and has the letters and digits in their order.
theorem snakeCase_canonical (s : String) :
    IsSnakeName (snakeCase s) ∧ snakeCase (snakeCase s) = snakeCase s ∧
      (snakeCase s).toList.filter (· != '_') = (s.toList.filter isAlphanumeric).map Char.toLower := by
  refine ⟨isSnakeName_snakeCase s, snakeCase_eq_self_iff.mpr (isSnakeName_snakeCase s), ?_⟩
  rw [snakeCase, String.toList_ofList, filter_snakeChars]

example : snakeCase "GetHTTPStatus" = "get_http_status" := by decide

end HubContract.Naming
