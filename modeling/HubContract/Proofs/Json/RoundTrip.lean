import HubContract.Proofs.Json.Text

namespace HubContract.Json

open HubContract.Number HubContract.Text

mutual

-- How deep collections with something in them are nested.
def nesting : Json → Nat
  | .null | .bool _ | .int _ | .float _ | .str _ | .array [] | .object [] => 0
  | .array (x :: xs) => nestingItems (x :: xs) + 1
  | .object (m :: ms) => nestingMembers (m :: ms) + 1

def nestingItems : List Json → Nat
  | [] => 0
  | x :: xs => max (nesting x) (nestingItems xs)

def nestingMembers : List (String × Json) → Nat
  | [] => 0
  | (_, v) :: ms => max (nesting v) (nestingMembers ms)

end

mutual

-- Whether no whole number is too long to be read.
def isShort : Json → Bool
  | .int n => (integer n).length ≤ maxDigits
  | .array xs => isShortItems xs
  | .object ms => isShortMembers ms
  | _ => true

def isShortItems : List Json → Bool
  | [] => true
  | x :: xs => isShort x && isShortItems xs

def isShortMembers : List (String × Json) → Bool
  | [] => true
  | (_, v) :: ms => isShort v && isShortMembers ms

end

mutual

-- Whether all floating point numbers have digits.
def isFinite : Json → Bool
  | .float (.finite ..) => true
  | .float _ => false
  | .array xs => isFiniteItems xs
  | .object ms => isFiniteMembers ms
  | _ => true

def isFiniteItems : List Json → Bool
  | [] => true
  | x :: xs => isFinite x && isFiniteItems xs

def isFiniteMembers : List (String × Json) → Bool
  | [] => true
  | (_, v) :: ms => isFinite v && isFiniteMembers ms

end

-- What can be read where `room` collections with something in them may be opened.
def Fits (room : Nat) (j : Json) : Prop := j.isShort = true ∧ j.nesting ≤ room

def FitItems (room : Nat) (xs : List Json) : Prop :=
  isShortItems xs = true ∧ nestingItems xs ≤ room

def FitMembers (room : Nat) (ms : List (String × Json)) : Prop :=
  isShortMembers ms = true ∧ nestingMembers ms ≤ room

instance (room : Nat) (j : Json) : Decidable (Fits room j) := inferInstanceAs (Decidable (_ ∧ _))

instance (room : Nat) (xs : List Json) : Decidable (FitItems room xs) :=
  inferInstanceAs (Decidable (_ ∧ _))

instance (room : Nat) (ms : List (String × Json)) : Decidable (FitMembers room ms) :=
  inferInstanceAs (Decidable (_ ∧ _))

section Fits

variable {room : Nat} {k : String} {x : Json} {xs : List Json} {m : String × Json}
  {ms : List (String × Json)}

theorem fitItems_cons : FitItems room (x :: xs) ↔ Fits room x ∧ FitItems room xs := by
  rw [FitItems, FitItems, Fits, isShortItems, nestingItems, Bool.and_eq_true, Nat.max_le,
    and_and_and_comm]

theorem fitMembers_cons :
    FitMembers room ((k, x) :: ms) ↔ Fits room x ∧ FitMembers room ms := by
  rw [FitMembers, FitMembers, Fits, isShortMembers, nestingMembers, Bool.and_eq_true, Nat.max_le,
    and_and_and_comm]

theorem fitItems_nil : FitItems room [] := ⟨rfl, Nat.zero_le _⟩

theorem fitMembers_nil : FitMembers room [] := ⟨rfl, Nat.zero_le _⟩

theorem fits_array_succ : Fits (room + 1) (.array (x :: xs)) ↔ FitItems room (x :: xs) := by
  rw [Fits, FitItems, isShort, nesting, Nat.add_le_add_iff_right]

theorem fits_object_succ : Fits (room + 1) (.object (m :: ms)) ↔ FitMembers room (m :: ms) := by
  rw [Fits, FitMembers, isShort, nesting, Nat.add_le_add_iff_right]

theorem not_fits_array_zero : ¬ Fits 0 (.array (x :: xs)) := by
  rintro ⟨-, deep⟩
  rw [nesting] at deep
  cases deep

theorem not_fits_object_zero : ¬ Fits 0 (.object (m :: ms)) := by
  rintro ⟨-, deep⟩
  rw [nesting] at deep
  cases deep

end Fits

variable {indent : Option Nat} {fuel room depth outer : Nat} {c : Char} {cs r t : List Char}

-- What a value starts with: neither a blank nor a bracket that closes.
def StartsValue (c : Char) : Prop := isSpace c = false ∧ c ≠ ']' ∧ c ≠ '}'

theorem StartsNumber.startsValue (starts : StartsNumber c) : StartsValue c := by
  rcases starts with digit | rfl
  · refine ⟨?_, ?_, ?_⟩
    · by_contra space
      rw [Bool.not_eq_false, isSpace, decide_eq_true_eq] at space
      rcases space with rfl | rfl | rfl | rfl <;> cases digit
    · rintro rfl
      cases digit
    · rintro rfl
      cases digit
  · exact ⟨rfl, by decide, by decide⟩

theorem exists_chars_cons (indent : Option Nat) (depth : Nat) (j : Json) :
    ∃ c t, j.chars indent depth = c :: t ∧ StartsValue c := by
  have start (c : Char) (t : List Char) (starts : StartsValue c) :
      ∃ d u, c :: t = d :: u ∧ StartsValue d := ⟨c, t, rfl, starts⟩
  have word : StartsValue 'n' ∧ StartsValue 't' ∧ StartsValue 'f' := by
    refine ⟨⟨?_, ?_, ?_⟩, ⟨?_, ?_, ?_⟩, ⟨?_, ?_, ?_⟩⟩ <;> decide
  have mark : StartsValue '"' ∧ StartsValue '[' ∧ StartsValue '{' := by
    refine ⟨⟨?_, ?_, ?_⟩, ⟨?_, ?_, ?_⟩, ⟨?_, ?_, ?_⟩⟩ <;> decide
  match j with
  | .null => exact start 'n' _ word.1
  | .bool true => exact start 't' _ word.2.1
  | .bool false => exact start 'f' _ word.2.2
  | .int n =>
    obtain ⟨c, t, written, starts⟩ := exists_integer_cons n
    exact ⟨c, t, written, starts.startsValue⟩
  | .float (.finite negative m) =>
    obtain ⟨c, t, written, starts⟩ := exists_floatChars_cons negative m
    exact ⟨c, t, written, starts.startsValue⟩
  | .float (.infinite _) => exact start 'n' _ word.1
  | .float .nan => exact start 'n' _ word.1
  | .str s => exact start '"' _ mark.1
  | .array [] => exact start '[' _ mark.2.1
  | .array (x :: xs) => exact start '[' _ mark.2.1
  | .object [] => exact start '{' _ mark.2.2
  | .object ((k, v) :: ms) => exact start '{' _ mark.2.2

theorem chars_int (n : Int) : chars indent depth (.int n) = (integer n).toList := rfl

theorem chars_float (x : Binary64) : chars indent depth (.float x) = floatChars x := rfl

theorem chars_str (s : String) : chars indent depth (.str s) = stringChars s := rfl

theorem readValue_number (starts : StartsNumber c) (t : List Char) :
    readValue (fuel + 1) room (c :: t) = readNumber? (c :: t) := by
  have shown : skipSpace (c :: t) = c :: t := skipSpace_cons starts.startsValue.1 t
  rw [readValue, shown]
  split
  case h_9 => rfl
  all_goals
    rename_i h
    obtain rfl := (List.cons.inj h).1
    rcases starts with h | h <;> cases h

theorem skipSpace_chars (indent : Option Nat) (depth : Nat) (j : Json) (r : List Char) :
    skipSpace (j.chars indent depth ++ r) = j.chars indent depth ++ r := by
  obtain ⟨c, t, written, starts⟩ := exists_chars_cons indent depth j
  rw [written]
  exact skipSpace_cons starts.1 _

-- Blanks in front of a value are passed over.
theorem readValue_congr (same : skipSpace cs = skipSpace t) :
    readValue fuel room cs = readValue fuel room t := by
  cases fuel with
  | zero => rw [readValue, readValue]
  | succ fuel => rw [readValue, readValue, same]

theorem readValue_quote (cs : List Char) : readValue (fuel + 1) room ('"' :: cs) =
    (readString fuel cs).map fun (s, rest) => (.str s, rest) := by
  change (readString fuel cs >>= fun (s, rest) => some (Json.str s, rest)) = _
  cases readString fuel cs <;> rfl

theorem readValue_bracket (cs : List Char) : readValue (fuel + 1) room ('[' :: cs) =
    match skipSpace cs, room with
    | ']' :: r, _ => some (.array [], r)
    | _, 0 => none
    | r, room + 1 => do
      let (xs, rest) ← readItems fuel room r
      return (.array xs, rest) := rfl

theorem readValue_brace (cs : List Char) : readValue (fuel + 1) room ('{' :: cs) =
    match skipSpace cs, room with
    | '}' :: r, _ => some (.object [], r)
    | _, 0 => none
    | r, room + 1 => do
      let (ms, rest) ← readMembers fuel room r
      return (.object ms, rest) := rfl

theorem readValue_array (shown : skipSpace cs = c :: t) (starts : StartsValue c) :
    readValue (fuel + 1) (room + 1) ('[' :: cs) =
      (readItems fuel room (c :: t)).map fun (xs, rest) => (.array xs, rest) := by
  rw [readValue_bracket, shown]
  split
  next h => exact absurd (List.cons.inj h).1 starts.2.1
  next same _ => cases same
  next same _ =>
    cases same
    cases readItems fuel room (c :: t) <;> rfl

theorem readValue_array_full (shown : skipSpace cs = c :: t) (starts : StartsValue c) :
    readValue (fuel + 1) 0 ('[' :: cs) = none := by
  rw [readValue_bracket, shown]
  split
  next h => exact absurd (List.cons.inj h).1 starts.2.1
  next => rfl
  next same _ => cases same

theorem readValue_object (shown : skipSpace cs = c :: t) (starts : StartsValue c) :
    readValue (fuel + 1) (room + 1) ('{' :: cs) =
      (readMembers fuel room (c :: t)).map fun (ms, rest) => (.object ms, rest) := by
  rw [readValue_brace, shown]
  split
  next h => exact absurd (List.cons.inj h).1 starts.2.2
  next same _ => cases same
  next same _ =>
    cases same
    cases readMembers fuel room (c :: t) <;> rfl

theorem readValue_object_full (shown : skipSpace cs = c :: t) (starts : StartsValue c) :
    readValue (fuel + 1) 0 ('{' :: cs) = none := by
  rw [readValue_brace, shown]
  split
  next h => exact absurd (List.cons.inj h).1 starts.2.2
  next => rfl
  next same _ => cases same

-- What stands behind a value: the end of a line or of the text, a comma or a bracket that closes.
theorem endsNumber_nil : EndsNumber [] := fun _ head => by cases head

theorem endsNumber_cons (c : Char) (ends : c = ',' ∨ c = ']' ∨ c = '}' ∨ c = '\n')
    (r : List Char) : EndsNumber (c :: r) := by
  intro d head
  obtain rfl := Option.some.inj head
  rcases ends with rfl | rfl | rfl | rfl <;> exact ⟨rfl, by decide, by decide, by decide⟩

theorem endsNumber_lineBreak (ends : EndsNumber r) : EndsNumber (lineBreak indent depth ++ r) := by
  cases indent with
  | none => exact ends
  | some width => exact endsNumber_cons '\n' (by decide) _

theorem endsNumber_itemChars (ends : EndsNumber r) (xs : List Json) :
    EndsNumber (itemChars indent depth xs ++ r) := by
  cases xs with
  | nil => rwa [itemChars]
  | cons x xs =>
    rw [itemChars]
    exact endsNumber_cons ',' (by decide) _

theorem endsNumber_memberChars (ends : EndsNumber r) (ms : List (String × Json)) :
    EndsNumber (memberChars indent depth ms ++ r) := by
  cases ms with
  | nil => rwa [memberChars]
  | cons m ms =>
    rw [memberChars]
    exact endsNumber_cons ',' (by decide) _

-- The items of an array with the commas between them.
def listChars (indent : Option Nat) (depth : Nat) : List Json → List Char
  | [] => []
  | x :: xs => x.chars indent depth ++ itemChars indent depth xs

-- The members of an object with the commas between them.
def tableChars (indent : Option Nat) (depth : Nat) : List (String × Json) → List Char
  | [] => []
  | (k, v) :: ms =>
    stringChars k ++ colon indent ++ v.chars indent depth ++ memberChars indent depth ms

theorem itemChars_cons (x : Json) (xs : List Json) : itemChars indent depth (x :: xs) =
    ',' :: lineBreak indent depth ++ listChars indent depth (x :: xs) := by
  rw [itemChars, listChars, List.append_assoc]

theorem memberChars_cons (m : String × Json) (ms : List (String × Json)) :
    memberChars indent depth (m :: ms) =
      ',' :: lineBreak indent depth ++ tableChars indent depth (m :: ms) := by
  obtain ⟨k, v⟩ := m
  simp only [memberChars, tableChars, List.append_assoc]

theorem chars_array (x : Json) (xs : List Json) : chars indent depth (.array (x :: xs)) =
    '[' :: lineBreak indent (depth + 1) ++ listChars indent (depth + 1) (x :: xs) ++
      lineBreak indent depth ++ [']'] := by
  rw [listChars, ← List.append_assoc]
  rfl

theorem chars_object (m : String × Json) (ms : List (String × Json)) :
    chars indent depth (.object (m :: ms)) =
      '{' :: lineBreak indent (depth + 1) ++ tableChars indent (depth + 1) (m :: ms) ++
        lineBreak indent depth ++ ['}'] := by
  obtain ⟨k, v⟩ := m
  simp only [tableChars, ← List.append_assoc]
  rfl

theorem exists_tableChars (k : String) (v : Json) (ms : List (String × Json)) :
    tableChars indent depth ((k, v) :: ms) = stringChars k ++
      (colon indent ++ (v.chars indent depth ++ memberChars indent depth ms)) := by
  simp only [tableChars, List.append_assoc]

-- Reading goes on behind an item: either the array ends there or a comma follows.
theorem readItems_cons {x : Json} (read : readValue fuel room cs = some (x, r)) :
    (∀ rest, skipSpace r = ']' :: rest → readItems (fuel + 1) room cs = some ([x], rest)) ∧
    ∀ rest, skipSpace r = ',' :: rest → readItems (fuel + 1) room cs =
      (readItems fuel room rest).map fun (xs, rest) => (x :: xs, rest) := by
  constructor
  · intro rest closed
    rw [readItems, read, Option.bind_eq_bind, Option.bind_some]
    simp only [closed]
    rfl
  · intro rest more
    rw [readItems, read, Option.bind_eq_bind, Option.bind_some]
    simp only [more]
    cases readItems fuel room rest <;> rfl

theorem readItems_none (unread : readValue fuel room cs = none) :
    readItems (fuel + 1) room cs = none := by
  rw [readItems, unread]
  rfl

section Members

variable {k : String} {v : Json} {after rest : List Char}

theorem readMembers_cons (quote : skipSpace cs = '"' :: t)
    (key : readString fuel t = some (k, after)) (mark : skipSpace after = ':' :: r)
    (read : readValue fuel room r = some (v, rest)) :
    (∀ u, skipSpace rest = '}' :: u → readMembers (fuel + 1) room cs = some ([(k, v)], u)) ∧
    ∀ u, skipSpace rest = ',' :: u → readMembers (fuel + 1) room cs =
      (readMembers fuel room u).map fun (ms, rest) => ((k, v) :: ms, rest) := by
  constructor
  · intro u closed
    rw [readMembers, quote]
    simp only [key, mark, read, closed, Option.bind_eq_bind, Option.bind_some]
    rfl
  · intro u more
    rw [readMembers, quote]
    simp only [key, mark, read, more, Option.bind_eq_bind, Option.bind_some]
    cases readMembers fuel room u <;> rfl

theorem readMembers_none (quote : skipSpace cs = '"' :: t)
    (key : readString fuel t = some (k, after)) (mark : skipSpace after = ':' :: r)
    (unread : readValue fuel room r = none) : readMembers (fuel + 1) room cs = none := by
  rw [readMembers, quote]
  simp only [key, mark, unread, Option.bind_eq_bind, Option.bind_some]
  rfl

-- Behind the name of a member its value is read, with or without a blank in between.
theorem exists_mark (indent : Option Nat) (r : List Char) :
    ∃ u, skipSpace (colon indent ++ r) = ':' :: u ∧ skipSpace u = skipSpace r := by
  cases indent with
  | none => exact ⟨r, skipSpace_cons rfl r, rfl⟩
  | some width => exact ⟨' ' :: r, skipSpace_cons rfl _, skipSpace_space r⟩

end Members

-- Reading the text of a value gives the value and leaves what follows it, if there is room for it,
-- and nothing otherwise. Each character pays for two steps.
def ReadsBack (indent : Option Nat) (j : Json) : Prop :=
  ∀ fuel room depth r, EndsNumber r → 2 * (j.chars indent depth).length ≤ fuel →
    readValue fuel room (j.chars indent depth ++ r) = if j.Fits room then some (j, r) else none

-- The same of the items of an array, up to the bracket that closes it.
def ItemsReadBack (indent : Option Nat) (xs : List Json) : Prop :=
  ∀ fuel room depth outer cs r,
    skipSpace cs = listChars indent depth xs ++ (lineBreak indent outer ++ ']' :: r) →
    2 * (listChars indent depth xs).length < fuel →
    readItems fuel room cs = if FitItems room xs then some (xs, r) else none

-- The same of the members of an object.
def MembersReadBack (indent : Option Nat) (ms : List (String × Json)) : Prop :=
  ∀ fuel room depth outer cs r,
    skipSpace cs = tableChars indent depth ms ++ (lineBreak indent outer ++ '}' :: r) →
    2 * (tableChars indent depth ms).length < fuel →
    readMembers fuel room cs = if FitMembers room ms then some (ms, r) else none

section ReadsBack

variable {j x v : Json} {k : String} {xs : List Json} {m : String × Json}
  {ms : List (String × Json)}

-- At least one step can be taken.
theorem exists_fuel (enough : 2 * (j.chars indent depth).length ≤ fuel) :
    ∃ left, fuel = left + 1 := by
  obtain ⟨c, t, written, -⟩ := exists_chars_cons indent depth j
  rw [written, List.length_cons] at enough
  exact ⟨fuel - 1, by omega⟩

theorem readsBack_null : ReadsBack indent .null := by
  intro fuel room depth r ends enough
  obtain ⟨left, rfl⟩ := exists_fuel enough
  rw [if_pos ⟨rfl, Nat.zero_le room⟩]
  rfl

theorem readsBack_bool (b : Bool) : ReadsBack indent (.bool b) := by
  intro fuel room depth r ends enough
  obtain ⟨left, rfl⟩ := exists_fuel enough
  rw [if_pos ⟨rfl, Nat.zero_le room⟩]
  cases b <;> rfl

theorem readsBack_int (n : Int) : ReadsBack indent (.int n) := by
  intro fuel room depth r ends enough
  obtain ⟨left, rfl⟩ := exists_fuel enough
  obtain ⟨c, t, written, starts⟩ := exists_integer_cons n
  have read := readNumber?_integer n ends
  have fits : (Fits room (.int n)) ↔ (integer n).length ≤ maxDigits := by
    rw [Fits, isShort, nesting, decide_eq_true_eq, and_iff_left (Nat.zero_le room)]
  rw [written] at read
  rw [chars_int, written, if_congr fits rfl rfl, ← read]
  exact readValue_number starts (t ++ r)

theorem readsBack_float (negative : Bool) (m : Magnitude) :
    ReadsBack indent (.float (.finite negative m)) := by
  intro fuel room depth r ends enough
  obtain ⟨left, rfl⟩ := exists_fuel enough
  obtain ⟨c, t, written, starts⟩ := exists_floatChars_cons negative m
  have read := readNumber?_floatChars negative m ends
  rw [written] at read
  rw [chars_float, written, if_pos ⟨rfl, Nat.zero_le room⟩, ← read]
  exact readValue_number starts (t ++ r)

theorem readsBack_str (s : String) : ReadsBack indent (.str s) := by
  intro fuel room depth r ends enough
  obtain ⟨left, rfl⟩ := exists_fuel enough
  have long := length_le_stringChars s
  rw [chars_str] at enough
  obtain ⟨body, written, read⟩ := @readString_stringChars s left (by omega) r
  rw [chars_str, written, readValue_quote, read, if_pos ⟨rfl, Nat.zero_le room⟩,
    Option.map_some]

theorem readsBack_array_nil : ReadsBack indent (.array []) := by
  intro fuel room depth r ends enough
  obtain ⟨left, rfl⟩ := exists_fuel enough
  rw [if_pos ⟨rfl, Nat.zero_le room⟩]
  rfl

theorem readsBack_object_nil : ReadsBack indent (.object []) := by
  intro fuel room depth r ends enough
  obtain ⟨left, rfl⟩ := exists_fuel enough
  rw [if_pos ⟨rfl, Nat.zero_le room⟩]
  rfl

theorem exists_listChars_cons (indent : Option Nat) (depth : Nat) (x : Json) (xs : List Json)
    (r : List Char) : ∃ c t, listChars indent depth (x :: xs) ++ r = c :: t ∧ StartsValue c := by
  obtain ⟨c, t, written, starts⟩ := exists_chars_cons indent depth x
  rw [listChars, written]
  exact ⟨c, _, rfl, starts⟩

theorem exists_tableChars_cons (indent : Option Nat) (depth : Nat) (m : String × Json)
    (ms : List (String × Json)) (r : List Char) :
    ∃ c t, tableChars indent depth (m :: ms) ++ r = c :: t ∧ StartsValue c := by
  rw [exists_tableChars, stringChars]
  exact ⟨'"', _, rfl, rfl, by decide, by decide⟩

theorem ItemsReadBack.array (items : ItemsReadBack indent (x :: xs)) :
    ReadsBack indent (.array (x :: xs)) := by
  intro fuel room depth r ends enough
  obtain ⟨left, rfl⟩ := exists_fuel enough
  obtain ⟨c, t, inside, starts⟩ := exists_listChars_cons indent (depth + 1) x xs
    (lineBreak indent depth ++ ']' :: r)
  have text : chars indent depth (.array (x :: xs)) ++ r =
      '[' :: (lineBreak indent (depth + 1) ++ c :: t) := by
    rw [chars_array, ← inside]
    simp only [List.append_assoc, List.cons_append, List.nil_append]
  have shown : skipSpace (lineBreak indent (depth + 1) ++ c :: t) = c :: t := by
    rw [skipSpace_lineBreak, skipSpace_cons starts.1]
  have short : 2 * (listChars indent (depth + 1) (x :: xs)).length < left := by
    rw [chars_array] at enough
    simp only [List.length_append, List.length_cons] at enough
    omega
  rw [text]
  cases room with
  | zero => rw [if_neg not_fits_array_zero, readValue_array_full shown starts]
  | succ room =>
    have read := items left room (depth + 1) depth (c :: t) r
      (by rw [skipSpace_cons starts.1, inside]) short
    rw [readValue_array shown starts, read, if_congr fits_array_succ rfl rfl]
    split <;> rfl

theorem MembersReadBack.object (members : MembersReadBack indent (m :: ms)) :
    ReadsBack indent (.object (m :: ms)) := by
  intro fuel room depth r ends enough
  obtain ⟨left, rfl⟩ := exists_fuel enough
  obtain ⟨c, t, inside, starts⟩ := exists_tableChars_cons indent (depth + 1) m ms
    (lineBreak indent depth ++ '}' :: r)
  have text : chars indent depth (.object (m :: ms)) ++ r =
      '{' :: (lineBreak indent (depth + 1) ++ c :: t) := by
    rw [chars_object, ← inside]
    simp only [List.append_assoc, List.cons_append, List.nil_append]
  have shown : skipSpace (lineBreak indent (depth + 1) ++ c :: t) = c :: t := by
    rw [skipSpace_lineBreak, skipSpace_cons starts.1]
  have short : 2 * (tableChars indent (depth + 1) (m :: ms)).length < left := by
    rw [chars_object] at enough
    simp only [List.length_append, List.length_cons] at enough
    omega
  rw [text]
  cases room with
  | zero => rw [if_neg not_fits_object_zero, readValue_object_full shown starts]
  | succ room =>
    have read := members left room (depth + 1) depth (c :: t) r
      (by rw [skipSpace_cons starts.1, inside]) short
    rw [readValue_object shown starts, read, if_congr fits_object_succ rfl rfl]
    split <;> rfl

theorem ReadsBack.items (value : ReadsBack indent x) (rest : xs ≠ [] → ItemsReadBack indent xs) :
    ItemsReadBack indent (x :: xs) := by
  intro fuel room depth outer cs r shown enough
  obtain ⟨left, rfl⟩ : ∃ left, fuel = left + 1 := ⟨fuel - 1, by omega⟩
  rw [listChars, List.append_assoc] at shown
  have length : 2 * (x.chars indent depth).length + 2 * (itemChars indent depth xs).length ≤ left := by
    rw [listChars, List.length_append] at enough
    omega
  have ends : EndsNumber (itemChars indent depth xs ++ (lineBreak indent outer ++ ']' :: r)) :=
    endsNumber_itemChars (endsNumber_lineBreak (endsNumber_cons ']' (by decide) r)) xs
  have read : readValue left room cs = if Fits room x then
      some (x, itemChars indent depth xs ++ (lineBreak indent outer ++ ']' :: r)) else none := by
    rw [readValue_congr (shown.trans (skipSpace_chars indent depth x _).symm)]
    exact value left room depth _ ends (by omega)
  by_cases fits : Fits room x
  · rw [if_pos fits] at read
    obtain ⟨last, more⟩ := readItems_cons read
    cases xs with
    | nil =>
      have closed : skipSpace (itemChars indent depth [] ++ (lineBreak indent outer ++ ']' :: r)) =
          ']' :: r := by
        rw [itemChars, List.nil_append, skipSpace_lineBreak, skipSpace_cons rfl]
      rw [if_pos (fitItems_cons.mpr ⟨fits, fitItems_nil⟩), last r closed]
    | cons y ys =>
      obtain ⟨c, t, next, starts⟩ := exists_listChars_cons indent depth y ys
        (lineBreak indent outer ++ ']' :: r)
      have comma : skipSpace (itemChars indent depth (y :: ys) ++
          (lineBreak indent outer ++ ']' :: r)) = ',' :: (lineBreak indent depth ++ c :: t) := by
        rw [itemChars_cons, ← next]
        simp only [List.append_assoc, List.cons_append]
        exact skipSpace_cons rfl _
      have behind := rest (List.cons_ne_nil y ys) left room depth outer
        (lineBreak indent depth ++ c :: t) r
        (by rw [skipSpace_lineBreak, skipSpace_cons starts.1, next]) (by
          rw [itemChars_cons, List.length_append, List.length_cons] at length
          omega)
      rw [more _ comma, behind]
      by_cases others : FitItems room (y :: ys)
      · rw [if_pos others, if_pos (fitItems_cons.mpr ⟨fits, others⟩)]
        rfl
      · rw [if_neg others, if_neg fun all => others (fitItems_cons.mp all).2]
        rfl
  · rw [if_neg fits] at read
    rw [readItems_none read, if_neg fun all => fits (fitItems_cons.mp all).1]

theorem ReadsBack.members (value : ReadsBack indent v)
    (rest : ms ≠ [] → MembersReadBack indent ms) : MembersReadBack indent ((k, v) :: ms) := by
  intro fuel room depth outer cs r shown enough
  obtain ⟨left, rfl⟩ : ∃ left, fuel = left + 1 := ⟨fuel - 1, by omega⟩
  rw [exists_tableChars] at shown enough
  simp only [List.append_assoc, List.length_append] at shown enough
  have long := length_le_stringChars k
  have ends : EndsNumber (memberChars indent depth ms ++ (lineBreak indent outer ++ '}' :: r)) :=
    endsNumber_memberChars (endsNumber_lineBreak (endsNumber_cons '}' (by decide) r)) ms
  obtain ⟨body, written, key⟩ := @readString_stringChars k left (by omega)
    (colon indent ++ (v.chars indent depth ++
      (memberChars indent depth ms ++ (lineBreak indent outer ++ '}' :: r))))
  have quote : skipSpace cs = '"' :: body := by rw [shown, written]
  obtain ⟨u, mark, same⟩ := exists_mark indent (v.chars indent depth ++
    (memberChars indent depth ms ++ (lineBreak indent outer ++ '}' :: r)))
  have read : readValue left room u = if Fits room v then
      some (v, memberChars indent depth ms ++ (lineBreak indent outer ++ '}' :: r)) else none := by
    rw [readValue_congr same]
    exact value left room depth _ ends (by omega)
  by_cases fits : Fits room v
  · rw [if_pos fits] at read
    obtain ⟨last, more⟩ := readMembers_cons quote key mark read
    cases ms with
    | nil =>
      have closed : skipSpace (memberChars indent depth [] ++
          (lineBreak indent outer ++ '}' :: r)) = '}' :: r := by
        rw [memberChars, List.nil_append, skipSpace_lineBreak, skipSpace_cons rfl]
      rw [if_pos (fitMembers_cons.mpr ⟨fits, fitMembers_nil⟩), last r closed]
    | cons m ms =>
      obtain ⟨c, t, next, starts⟩ := exists_tableChars_cons indent depth m ms
        (lineBreak indent outer ++ '}' :: r)
      have comma : skipSpace (memberChars indent depth (m :: ms) ++
          (lineBreak indent outer ++ '}' :: r)) = ',' :: (lineBreak indent depth ++ c :: t) := by
        rw [memberChars_cons, ← next]
        simp only [List.append_assoc, List.cons_append]
        exact skipSpace_cons rfl _
      have behind := rest (List.cons_ne_nil m ms) left room depth outer
        (lineBreak indent depth ++ c :: t) r
        (by rw [skipSpace_lineBreak, skipSpace_cons starts.1, next]) (by
          rw [memberChars_cons, List.length_append, List.length_cons] at enough
          omega)
      rw [more _ comma, behind]
      by_cases others : FitMembers room (m :: ms)
      · rw [if_pos others, if_pos (fitMembers_cons.mpr ⟨fits, others⟩)]
        rfl
      · rw [if_neg others, if_neg fun all => others (fitMembers_cons.mp all).2]
        rfl
  · rw [if_neg fits] at read
    rw [readMembers_none quote key mark read, if_neg fun all => fits (fitMembers_cons.mp all).1]

end ReadsBack

mutual

-- By recursion on the value: a collection is read with the room that is left inside of it, and with
-- that each of its items.
theorem readsBack (indent : Option Nat) : (j : Json) → j.isFinite = true → ReadsBack indent j
  | .null, _ => readsBack_null
  | .bool b, _ => readsBack_bool b
  | .int n, _ => readsBack_int n
  | .float (.finite negative m), _ => readsBack_float negative m
  | .str s, _ => readsBack_str s
  | .array [], _ => readsBack_array_nil
  | .array (x :: xs), finite =>
    (itemsReadBack indent (x :: xs) (List.cons_ne_nil x xs) finite).array
  | .object [], _ => readsBack_object_nil
  | .object (m :: ms), finite =>
    (membersReadBack indent (m :: ms) (List.cons_ne_nil m ms) finite).object

theorem itemsReadBack (indent : Option Nat) :
    (xs : List Json) → xs ≠ [] → isFiniteItems xs = true → ItemsReadBack indent xs
  | [], nonempty, _ => absurd rfl nonempty
  | x :: xs, _, finite =>
    have ⟨first, others⟩ := Bool.and_eq_true_iff.mp finite
    (readsBack indent x first).items fun more => itemsReadBack indent xs more others

theorem membersReadBack (indent : Option Nat) :
    (ms : List (String × Json)) → ms ≠ [] → isFiniteMembers ms = true → MembersReadBack indent ms
  | [], nonempty, _ => absurd rfl nonempty
  | (_, v) :: ms, _, finite =>
    have ⟨first, others⟩ := Bool.and_eq_true_iff.mp finite
    (readsBack indent v first).members fun more => membersReadBack indent ms more others

end

-- Parsing undoes rendering, with any indent, for exactly the values that fit.
theorem parse?_render {j : Json} (finite : j.isFinite = true) (indent : Option Nat) (room : Nat) :
    parse? (j.render indent) room = if j.Fits room then some j else none := by
  have read := readsBack indent j finite (2 * (j.chars indent 0).length + 2) room 0 []
    endsNumber_nil (Nat.le_add_right _ 2)
  rw [List.append_nil] at read
  rw [parse?, render, String.toList_ofList, ofChars?, read]
  split <;> rfl

end HubContract.Json
