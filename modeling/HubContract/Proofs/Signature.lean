import HubContract.Proofs.Text.Blank
import HubContract.Proofs.Text.Parted
import HubContract.Signature.Method
import HubContract.Signature.ReturnType

namespace HubContract

open HubContract.Text

namespace ReturnType

-- A type that its own text denotes.
def IsWritten (r : ReturnType) : Prop := parse r.text = r

theorem isWritten_unitAsync : unitAsync.IsWritten := by
  unfold IsWritten
  decide +kernel

theorem isWritten_void : IsWritten ⟨.void, none⟩ := by
  unfold IsWritten
  decide +kernel

theorem wrapped?_of_wrapped (wrapper inner : List Char) :
    wrapped? wrapper (wrapper ++ '[' :: inner ++ [']']) = some (trimChars inner) := by
  have longer : wrapper ++ '[' :: inner ++ [']'] ≠ wrapper := by
    intro same
    have lengths := congrArg List.length same
    simp at lengths
  have opens : (wrapper ++ ['[']).isPrefixOf (wrapper ++ '[' :: inner ++ [']']) := by
    rw [List.isPrefixOf_iff_prefix]
    exact ⟨inner ++ [']'], by simp⟩
  have closes : decide ((wrapper ++ '[' :: inner ++ [']']).getLast? = some ']') := by
    rw [List.getLast?_concat, decide_eq_true rfl]
  have held : (wrapper ++ '[' :: inner ++ [']']).drop (wrapper.length + 1) = inner ++ [']'] := by
    simp [List.drop_append]
  rw [wrapped?, if_neg longer, opens, closes, Bool.and_self, if_pos rfl, held, List.dropLast_concat]

-- Blanks inside of the wrapper are not kept.
theorem isWritten_valueAsync {inner : List Char} (something : isNone inner = false)
    (trimmed : trimChars inner = inner) : (valueAsync (String.ofList inner)).IsWritten := by
  have text : (valueAsync (String.ofList inner)).text.toList =
      "Awaitable".toList ++ '[' :: inner ++ [']'] := by
    simp [valueAsync, ReturnType.text]
  have held := wrapped?_of_wrapped "Awaitable".toList inner
  rw [← text, trimmed] at held
  have whole : trimChars (valueAsync (String.ofList inner)).text.toList =
      (valueAsync (String.ofList inner)).text.toList := by
    apply trimWhere_eq_self
    · simp [text, isBlank]
    · intro c last
      rw [text, List.getLast?_concat] at last
      obtain rfl := Option.mem_some_iff.mp last
      decide
  have notNone : isNone (valueAsync (String.ofList inner)).text.toList = false := by
    simp [text, isNone]
  have first : wrappers.findSome? (wrapped? · (valueAsync (String.ofList inner)).text.toList) =
      some inner := by
    rw [wrappers, List.findSome?_cons, held]
  rw [IsWritten, parse, ofChars, whole, notNone]
  simp only [first, something]
  rfl

theorem isWritten_value {cs : List Char} (something : isNone cs = false) (trimmed : trimChars cs = cs)
    (bare : wrappers.findSome? (wrapped? · cs) = none) :
    IsWritten ⟨.value, some (String.ofList cs)⟩ := by
  have present : cs ≠ [] := by
    rintro rfl
    simp [isNone] at something
  have text : (ReturnType.text ⟨.value, some (String.ofList cs)⟩).toList = cs := by
    simp [ReturnType.text, present]
  simp only [IsWritten, parse, text, ofChars, trimmed, something, bare]
  simp

-- The types that texts denote. Only what is trimmed and no empty text is taken for a payload, and only what
-- is not wrapped for a value that is not awaited.
inductive IsNormal : ReturnType → Prop where
  | void : IsNormal ⟨.void, none⟩
  | unitAsync : IsNormal .unitAsync
  | valueAsync (something : isNone cs = false) (trimmed : trimChars cs = cs) :
    IsNormal (.valueAsync (String.ofList cs))
  | value (something : isNone cs = false) (trimmed : trimChars cs = cs)
    (bare : wrappers.findSome? (wrapped? · cs) = none) : IsNormal ⟨.value, some (String.ofList cs)⟩

theorem IsNormal.isWritten {r : ReturnType} (normal : r.IsNormal) : r.IsWritten := by
  cases normal with
  | void => exact isWritten_void
  | unitAsync => exact isWritten_unitAsync
  | valueAsync something trimmed => exact isWritten_valueAsync something trimmed
  | value something trimmed bare => exact isWritten_value something trimmed bare

theorem isNormal_parse (s : String) : (parse s).IsNormal := by
  have trimmed : trimChars (trimChars s.toList) = trimChars s.toList := trimWhere_trimWhere
  simp only [parse, ofChars]
  split
  · exact .void
  · rename_i something
    split
    case h_1 inner held =>
      split
      · exact .unitAsync
      · rename_i payload
        refine .valueAsync (by simpa using payload) ?_
        obtain ⟨wrapper, -, held⟩ := List.exists_of_findSome?_eq_some held
        unfold wrapped? at held
        split at held
        · obtain rfl := Option.some.inj held
          rfl
        · split at held
          · obtain rfl := Option.some.inj held
            exact trimWhere_trimWhere
          · nomatch held
    case h_2 bare => exact .value (by simpa using something) trimmed bare

theorem isWritten_parse (s : String) : (parse s).IsWritten := (isNormal_parse s).isWritten

end ReturnType

namespace Method

variable {m m' : Method}

-- Methods with the same name and the same types of parameters in the same order.
def Agrees (m m' : Method) : Prop := m.name = m'.name ∧ m.parameterTypes = m'.parameterTypes

instance : DecidableRel Agrees := fun m m' =>
  inferInstanceAs (Decidable (m.name = m'.name ∧ m.parameterTypes = m'.parameterTypes))

theorem Agrees.symm (agrees : m.Agrees m') : m'.Agrees m := ⟨agrees.1.symm, agrees.2.symm⟩

theorem Agrees.trans {m'' : Method} (agrees : m.Agrees m') (agrees' : m'.Agrees m'') : m.Agrees m'' :=
  ⟨agrees.1.trans agrees'.1, agrees.2.trans agrees'.2⟩

theorem Agrees.signatureKey_eq (agrees : m.Agrees m') : m.signatureKey = m'.signatureKey := by
  rw [signatureKey, signatureKey, agrees.1, agrees.2]

-- Methods whose keys can be read: no mark is part of what it separates, and a single type is not empty,
-- since it would be written like none.
structure IsLegible (m : Method) : Prop where
  name : '(' ∉ m.name.toList
  types : ∀ t ∈ m.parameterTypes, ',' ∉ t.toList
  single : m.parameterTypes ≠ [""]

theorem splitOn_types {types : List String} (legible : ∀ t ∈ types, ',' ∉ t.toList) (some : types ≠ []) :
    (",".intercalate types).toList.splitOn ',' = types.map String.toList := by
  rw [String.toList_intercalate]
  exact List.splitOn_intercalate ',' (List.forall_mem_map.mpr legible) (by simpa using some)

theorem types_eq_of_intercalate_eq {types types' : List String} (legible : ∀ t ∈ types, ',' ∉ t.toList)
    (single : types ≠ [""]) (legible' : ∀ t ∈ types', ',' ∉ t.toList) (single' : types' ≠ [""])
    (same : ",".intercalate types = ",".intercalate types') : types = types' := by
  -- no types are written like one empty type
  have empty {types : List String} (legible : ∀ t ∈ types, ',' ∉ t.toList) (single : types ≠ [""])
      (none : ",".intercalate types = "") : types = [] := by
    by_contra some
    have parts := splitOn_types legible some
    rw [none] at parts
    have one : types.map String.toList = [""].map String.toList := parts.symm
    exact single (List.map_injective_iff.mpr (fun _ _ => String.toList_inj.mp) one)
  by_cases none : types = []
  · subst none
    exact (empty legible' single' same.symm).symm
  by_cases none' : types' = []
  · subst none'
    exact empty legible single same
  have parts := splitOn_types legible none
  rw [same, splitOn_types legible' none'] at parts
  exact List.map_injective_iff.mpr (fun _ _ => String.toList_inj.mp) parts.symm

-- Then the key gives the name and the types away.
theorem agrees_of_signatureKey_eq (legible : m.IsLegible) (legible' : m'.IsLegible)
    (same : m.signatureKey = m'.signatureKey) : m.Agrees m' := by
  have parted (m : Method) : m.signatureKey =
      m.name ++ String.singleton '(' ++ (",".intercalate m.parameterTypes ++ ")") := by
    rw [signatureKey, String.append_assoc]
    rfl
  rw [parted, parted] at same
  obtain ⟨names, rest⟩ := Text.parted_inj legible.name legible'.name same
  have types : ",".intercalate m.parameterTypes = ",".intercalate m'.parameterTypes := by
    have closed : (",".intercalate m.parameterTypes).toList ++ [')'] =
        (",".intercalate m'.parameterTypes).toList ++ [')'] := by
      simpa using congrArg String.toList rest
    exact String.toList_inj.mp (List.append_cancel_right closed)
  exact ⟨names, types_eq_of_intercalate_eq legible.types legible.single legible'.types legible'.single types⟩

end Method

end HubContract
