import HubContract.Json.Reader
import HubContract.Json.Writer
import HubContract.Proofs.Number.Shortest
import Mathlib.Data.List.TakeDrop

namespace HubContract.Json

open HubContract.Number HubContract.Text

variable {ds r : List Char} {negative : Bool}

-- A text that does not go on with digits.
def EndsDigits (r : List Char) : Prop := ∀ c ∈ r.head?, isDigit c = false

-- A text that goes on with nothing that could belong to a number.
def EndsNumber (r : List Char) : Prop :=
  ∀ c ∈ r.head?, isDigit c = false ∧ c ≠ '.' ∧ c ≠ 'e' ∧ c ≠ 'E'

theorem EndsNumber.endsDigits (ends : EndsNumber r) : EndsDigits r :=
  fun c head => (ends c head).1

theorem endsDigits_cons {c : Char} (other : isDigit c = false) : EndsDigits (c :: r) := by
  intro d head
  rwa [← Option.some.inj head]

theorem spanDigits_append (row : ∀ c ∈ ds, isDigit c = true) (ends : EndsDigits r) :
    spanDigits (ds ++ r) = (ds, r) := by
  have rest : r.takeWhile isDigit = [] ∧ r.dropWhile isDigit = r := by
    cases r with
    | nil => exact ⟨rfl, rfl⟩
    | cons c r =>
      have other : ¬ isDigit c = true := by
        rw [ends c rfl]
        exact Bool.false_ne_true
      exact ⟨List.takeWhile_cons_of_neg other, List.dropWhile_cons_of_neg other⟩
  rw [spanDigits, List.span_eq_takeWhile_dropWhile, List.takeWhile_append_of_pos row,
    List.dropWhile_append_of_pos row, rest.1, rest.2, List.append_nil]

theorem digits1?_append (nonempty : ds ≠ []) (row : ∀ c ∈ ds, isDigit c = true)
    (ends : EndsDigits r) : digits1? (ds ++ r) = some (ds, r) := by
  rw [digits1?, spanDigits_append row ends]
  exact if_neg (by simpa using nonempty)

theorem readFraction?_dot (r : List Char) : readFraction? ('.' :: r) = digits1? r := rfl

theorem readFraction?_of_ends (ends : EndsNumber r) : readFraction? r = some ([], r) := by
  cases r with
  | nil => rfl
  | cons c r =>
    have other : c ≠ '.' := (ends c rfl).2.1
    rw [readFraction?.eq_def]
    split
    next h => exact absurd (List.cons.inj h).1 other
    next => rfl

theorem readExponent?_of_ends (ends : EndsNumber r) : readExponent? r = some (none, r) := by
  cases r with
  | nil => rfl
  | cons c r =>
    obtain ⟨-, -, small, capital⟩ := ends c rfl
    exact if_neg (not_or.mpr ⟨small, capital⟩)

-- What is read once the digits in front are.
def afterWhole (negative : Bool) (whole r : List Char) : Option (Json × List Char) := do
  let (fraction, r) ← readFraction? r
  let (exponent, rest) ← readExponent? r
  match fraction, exponent with
  | [], none =>
    let n := ofDigits whole
    return (.int (if negative then -(n : Int) else n), rest)
  | _, _ =>
    return (.float (.ofDecimal negative (ofDigits (whole ++ fraction))
      (exponent.getD 0 - fraction.length)), rest)

-- A row of digits that may stand in front.
structure IsWhole (whole : List Char) : Prop where
  nonempty : whole ≠ []
  row : ∀ c ∈ whole, isDigit c = true
  lead : whole.head? = some '0' → whole.length ≤ 1

theorem readUnsigned?_append (isWhole : IsWhole ds) (ends : EndsDigits r) :
    readUnsigned? negative (ds ++ r) =
      if ds.length + (if negative then 1 else 0) ≤ maxDigits then afterWhole negative ds r
      else none := by
  have front := digits1?_append isWhole.nonempty isWhole.row ends
  have lead : ¬ (ds.length > 1 ∧ ds.head? = some '0') := by
    rintro ⟨long, zero⟩
    exact Nat.not_lt.mpr (isWhole.lead zero) long
  rw [readUnsigned?, front, Option.bind_eq_bind, Option.bind_some]
  simp only [if_neg lead]
  by_cases short : ds.length + (if negative then 1 else 0) ≤ maxDigits
  · rw [if_pos short, if_neg (Nat.not_lt.mpr short)]
    rfl
  · rw [if_neg short, if_pos (Nat.lt_of_not_le short)]

variable {whole fraction : List Char} {exponent point : Int} {n : Nat}

theorem readUnsigned?_of_digits (isWhole : IsWhole ds) (ends : EndsNumber r) :
    readUnsigned? negative (ds ++ r) =
      if ds.length + (if negative then 1 else 0) ≤ maxDigits then
        some (.int (if negative then -(ofDigits ds : Int) else ofDigits ds), r)
      else none := by
  rw [readUnsigned?_append isWhole ends.endsDigits, afterWhole, readFraction?_of_ends ends]
  simp [readExponent?_of_ends ends]

theorem readUnsigned?_of_fraction (isWhole : IsWhole whole) (short : whole.length ≤ 16)
    (nonempty : fraction ≠ []) (row : ∀ c ∈ fraction, isDigit c = true) (ends : EndsNumber r) :
    readUnsigned? negative (whole ++ '.' :: (fraction ++ r)) =
      some (.float (.ofDecimal negative (ofDigits (whole ++ fraction)) (-fraction.length)), r) := by
  have front : whole.length + (if negative then 1 else 0) ≤ maxDigits := by
    rw [maxDigits]
    split <;> omega
  rw [readUnsigned?_append isWhole (endsDigits_cons (by decide)), if_pos front, afterWhole,
    readFraction?_dot, digits1?_append nonempty row ends.endsDigits]
  simp [readExponent?_of_ends ends, nonempty]

-- An exponent is read with its sign, and zeros in front of it do no harm.
theorem readExponent?_signed {ds : List Char} (read : digits1? (ds ++ r) = some (ds, r)) :
    readExponent? ('e' :: '-' :: (ds ++ r)) = some (some (-(ofDigits ds : Int)), r) ∧
      readExponent? ('e' :: '+' :: (ds ++ r)) = some (some (ofDigits ds : Int), r) := by
  constructor <;> simp [readExponent?, splitSign, read]

theorem exponentText_toList (l : Layout) (e : Int) : (l.exponentText e).toList =
    (if e < 0 then '-' else '+') :: (padded l.exponentWidth e.natAbs).toList := by
  rw [Layout.exponentText, String.toList_append]
  split <;> rfl

theorem readExponent?_exponentText (l : Layout) (e : Int) (ends : EndsDigits r) :
    readExponent? ('e' :: ((l.exponentText e).toList ++ r)) = some (some e, r) := by
  obtain ⟨minus, plus⟩ := readExponent?_signed (digits1?_append
    (padded_ne_nil l.exponentWidth e.natAbs) (fun c => isDigit_of_mem_padded) ends)
  rw [ofDigits_padded] at minus plus
  rw [exponentText_toList]
  split
  next below => exact minus.trans (by rw [Int.ofNat_natAbs_of_nonpos (Int.le_of_lt below), Int.neg_neg])
  next above => exact plus.trans (by rw [Int.natAbs_of_nonneg (Int.not_lt.mp above)])

theorem readUnsigned?_of_exponent (isWhole : IsWhole whole) (short : whole.length ≤ 16)
    (row : ∀ c ∈ fraction, isDigit c = true) (l : Layout) (e : Int) (ends : EndsDigits r) :
    readUnsigned? negative (whole ++ ((if fraction = [] then [] else '.' :: fraction) ++
        'e' :: ((l.exponentText e).toList ++ r))) =
      some (.float (.ofDecimal negative (ofDigits (whole ++ fraction)) (e - fraction.length)), r) := by
  have front : whole.length + (if negative then 1 else 0) ≤ maxDigits := by
    rw [maxDigits]
    split <;> omega
  by_cases nonempty : fraction = []
  · rw [if_pos nonempty, List.nil_append,
      readUnsigned?_append isWhole (endsDigits_cons (by decide)), if_pos front, afterWhole]
    simp [nonempty, readFraction?, readExponent?_exponentText l e ends]
  · rw [if_neg nonempty, List.cons_append,
      readUnsigned?_append isWhole (endsDigits_cons (by decide)), if_pos front, afterWhole,
      readFraction?_dot, digits1?_append nonempty row (endsDigits_cons (by decide))]
    simp [readExponent?_exponentText l e ends]

theorem eq_zero_of_head? (zero : (digits n).head? = some '0') : n = 0 := by
  by_contra positive
  exact head?_digits positive zero

theorem length_digits_zero : (digits 0).length = 1 := by rfl

theorem isWhole_digits (n : Nat) : IsWhole (digits n) where
  nonempty := digits_ne_nil n
  row _ := isDigit_of_mem_digits
  lead zero := by rw [eq_zero_of_head? zero]; exact Nat.le_of_eq length_digits_zero

-- Digits that are cut off at the end leave a number in front.
theorem isWhole_take (n : Nat) {k : Nat} (positive : k ≠ 0) (zero : n = 0 → k = 1) :
    IsWhole ((digits n).take k) where
  nonempty := by
    rw [Ne, List.take_eq_nil_iff, not_or]
    exact ⟨positive, digits_ne_nil n⟩
  row _ mem := isDigit_of_mem_digits (List.mem_of_mem_take mem)
  lead head := by
    rw [List.head?_take, if_neg positive] at head
    rw [zero (eq_zero_of_head? head)]
    exact List.length_take_le 1 _

theorem isWhole_append (n : Nat) {k : Nat} (zero : n = 0 → k = 0) :
    IsWhole (digits n ++ List.replicate k '0') where
  nonempty := List.append_ne_nil_of_left_ne_nil (digits_ne_nil n) _
  row c mem := by
    rcases List.mem_append.mp mem with mem | mem
    · exact isDigit_of_mem_digits mem
    · exact isDigit_of_mem_replicate mem
  lead head := by
    rw [List.head?_append, List.head?_eq_some_head (digits_ne_nil n), Option.some_or,
      ← List.head?_eq_some_head] at head
    have none := eq_zero_of_head? head
    rw [zero none, none, List.replicate_zero, List.append_nil]
    exact Nat.le_of_eq length_digits_zero

theorem isWhole_zero : IsWhole ['0'] := isWhole_digits 0

section Place

variable {l : Layout}

theorem place_behind (inside : l.lowest ≤ point ∧ point ≤ l.highest) (low : point ≤ 0) :
    (l.place ds point).toList = '0' :: '.' :: (List.replicate point.natAbs '0' ++ ds) := by
  rw [Layout.place, if_pos inside, if_pos low]
  simp

theorem place_before (inside : l.lowest ≤ point ∧ point ≤ l.highest) (high : ¬ point ≤ 0)
    (all : (ds.length : Int) ≤ point) :
    (l.place ds point).toList =
      ds ++ List.replicate (point.natAbs - ds.length) '0' ++ ['.', '0'] := by
  rw [Layout.place, if_pos inside, if_neg high, if_pos all, String.toList_append,
    String.toList_ofList]
  rfl

theorem place_between (inside : l.lowest ≤ point ∧ point ≤ l.highest) (high : ¬ point ≤ 0)
    (rest : ¬ (ds.length : Int) ≤ point) :
    (l.place ds point).toList = ds.take point.natAbs ++ '.' :: ds.drop point.natAbs := by
  rw [Layout.place, if_pos inside, if_neg high, if_neg rest]
  simp

theorem place_outside (outside : ¬ (l.lowest ≤ point ∧ point ≤ l.highest)) :
    (l.place ds point).toList = ds.take 1 ++ ((if ds.drop 1 = [] then [] else '.' :: ds.drop 1) ++
      'e' :: (l.exponentText (point - 1)).toList) := by
  rw [Layout.place, if_neg outside]
  by_cases single : ds.length ≤ 1
  · have nothing : ds.drop 1 = [] := List.drop_eq_nil_iff.mpr single
    rw [if_pos single, if_pos nothing]
    simp
  · have more : ds.drop 1 ≠ [] := fun h => single (List.drop_eq_nil_iff.mp h)
    rw [if_neg single, if_neg more]
    simp

theorem ofDigits_take_drop (n k : Nat) :
    ofDigits ((digits n).take k ++ (digits n).drop k) = n := by
  rw [List.take_append_drop, ofDigits_digits]

theorem isDigit_of_mem_drop {k : Nat} : ∀ c ∈ (digits n).drop k, isDigit c = true :=
  fun _ mem => isDigit_of_mem_digits (List.mem_of_mem_drop mem)

-- All places stand behind the point.
theorem readUnsigned?_behind (n : Nat) (inside : l.lowest ≤ point ∧ point ≤ l.highest)
    (low : point ≤ 0) (ends : EndsNumber r) :
    readUnsigned? negative ((l.place (digits n) point).toList ++ r) =
      some (.float (.ofDecimal negative n (point - (digits n).length)), r) := by
  have read := @readUnsigned?_of_fraction r negative _ _ isWhole_zero (by decide)
    (List.append_ne_nil_of_right_ne_nil _ (digits_ne_nil n))
    (fun c => isDigit_of_mem_filled (k := point.natAbs)) ends
  have value : ofDigits (['0'] ++ (List.replicate point.natAbs '0' ++ digits n)) = n := by
    rw [ofDigits_append, ofDigits_append, ofDigits_replicate_zero, ofDigits_digits,
      Nat.mul_zero, Nat.zero_add]
    exact Nat.zero_add n
  have places : -((List.replicate point.natAbs '0' ++ digits n).length : Int) =
      point - (digits n).length := by
    rw [List.length_append, List.length_replicate]
    omega
  rw [value, places] at read
  rw [place_behind inside low, ← read]
  rfl

-- All places stand before the point, with zeros to fill the gap.
theorem readUnsigned?_before (n : Nat) (zero : n = 0 → point = 1)
    (inside : l.lowest ≤ point ∧ point ≤ l.highest) (top : point ≤ 16) (high : ¬ point ≤ 0)
    (all : ((digits n).length : Int) ≤ point) (ends : EndsNumber r) :
    readUnsigned? negative ((l.place (digits n) point).toList ++ r) =
      some (.float (.ofDecimal negative n (point - (digits n).length)), r) := by
  obtain ⟨k, filled⟩ : ∃ k, k = point.natAbs - (digits n).length := ⟨_, rfl⟩
  have noFill : n = 0 → k = 0 := by
    intro none
    have length := length_digits_zero
    rw [filled, zero none, none]
    omega
  have short : (digits n ++ List.replicate k '0').length ≤ 16 := by
    rw [List.length_append, List.length_replicate]
    omega
  have read := @readUnsigned?_of_fraction r negative _ ['0'] (isWhole_append n noFill) short
    (List.cons_ne_nil _ _) (fun c mem => List.mem_singleton.mp mem ▸ isDigit_zero) ends
  have value : ofDigits (digits n ++ List.replicate k '0' ++ ['0']) = n * 10 ^ (k + 1) := by
    rw [List.append_assoc, ← List.replicate_succ', ofDigits_append, ofDigits_replicate_zero,
      ofDigits_digits, List.length_replicate, Nat.add_zero, Nat.mul_comm]
  have places : -((['0'] : List Char).length : Int) + (k + 1 : Nat) = point - (digits n).length := by
    rw [List.length_singleton]
    omega
  rw [value, Binary64.ofDecimal_mul_pow, places] at read
  rw [place_before inside high all, ← read, ← filled, List.append_assoc]
  rfl

-- The point stands between the places.
theorem readUnsigned?_between (n : Nat) (zero : n = 0 → point = 1)
    (inside : l.lowest ≤ point ∧ point ≤ l.highest) (top : point ≤ 16) (high : ¬ point ≤ 0)
    (rest : ¬ ((digits n).length : Int) ≤ point) (ends : EndsNumber r) :
    readUnsigned? negative ((l.place (digits n) point).toList ++ r) =
      some (.float (.ofDecimal negative n (point - (digits n).length)), r) := by
  have positive : point.natAbs ≠ 0 := by omega
  have nonempty : (digits n).drop point.natAbs ≠ [] := by
    rw [Ne, List.drop_eq_nil_iff]
    omega
  have short : ((digits n).take point.natAbs).length ≤ 16 := by
    rw [List.length_take]
    omega
  have front : IsWhole ((digits n).take point.natAbs) :=
    isWhole_take n positive fun none => by rw [zero none]; rfl
  have read := @readUnsigned?_of_fraction r negative _ _ front short nonempty isDigit_of_mem_drop ends
  have places : -(((digits n).drop point.natAbs).length : Int) = point - (digits n).length := by
    rw [List.length_drop]
    omega
  rw [ofDigits_take_drop, places] at read
  rw [place_between inside high rest, ← read, List.append_assoc]
  rfl

-- The point stands behind the first digit, and an exponent says where it belongs.
theorem readUnsigned?_outside (n : Nat) (outside : ¬ (l.lowest ≤ point ∧ point ≤ l.highest))
    (ends : EndsNumber r) :
    readUnsigned? negative ((l.place (digits n) point).toList ++ r) =
      some (.float (.ofDecimal negative n (point - (digits n).length)), r) := by
  have one := List.length_pos_iff.mpr (digits_ne_nil n)
  have short : ((digits n).take 1).length ≤ 16 :=
    Nat.le_trans (List.length_take_le 1 _) (by decide)
  have front : IsWhole ((digits n).take 1) := isWhole_take n Nat.one_ne_zero fun _ => rfl
  have read := @readUnsigned?_of_exponent r negative _ _ front short
    (isDigit_of_mem_drop (n := n) (k := 1)) l (point - 1) ends.endsDigits
  have places : point - 1 - (((digits n).drop 1).length : Int) = point - (digits n).length := by
    rw [List.length_drop]
    omega
  rw [ofDigits_take_drop, places] at read
  rw [place_outside outside, ← read, List.append_assoc, List.append_assoc]
  rfl

end Place

theorem readUnsigned?_place (n : Nat) (zero : n = 0 → point = 1) (ends : EndsNumber r) :
    readUnsigned? negative ((Layout.json.place (digits n) point).toList ++ r) =
      some (.float (.ofDecimal negative n (point - (digits n).length)), r) := by
  by_cases inside : Layout.json.lowest ≤ point ∧ point ≤ Layout.json.highest
  · have top : point ≤ 16 := inside.2
    by_cases low : point ≤ 0
    · exact readUnsigned?_behind n inside low ends
    by_cases all : ((digits n).length : Int) ≤ point
    · exact readUnsigned?_before n zero inside top low all ends
    · exact readUnsigned?_between n zero inside top low all ends
  · exact readUnsigned?_outside n inside ends

-- A number is told from the name of an infinite value by its first digit.
theorem readNumber?_of_digit {c : Char} (digit : isDigit c = true) (r : List Char) :
    readNumber? (c :: r) = readUnsigned? false (c :: r) := by
  rw [readNumber?.eq_def]
  split
  next h => rw [(List.cons.inj h).1] at digit; cases digit
  next h => rw [(List.cons.inj h).1] at digit; cases digit
  next => rfl

theorem readNumber?_minus {c : Char} (digit : isDigit c = true) (r : List Char) :
    readNumber? ('-' :: c :: r) = readUnsigned? true (c :: r) := by
  rw [readNumber?.eq_def]
  split
  next h => rw [(List.cons.inj (List.cons.inj h).2).1] at digit; cases digit
  next h => rw [(List.cons.inj h).2]
  next h => exact absurd rfl (h _)

-- A text that starts with a digit, as every number without its sign does.
def StartsWithDigit (cs : List Char) : Prop := ∃ c t, cs = c :: t ∧ isDigit c = true

theorem StartsWithDigit.append {cs : List Char} (starts : StartsWithDigit cs) (r : List Char) :
    StartsWithDigit (cs ++ r) := by
  obtain ⟨c, t, rfl, digit⟩ := starts
  exact ⟨c, t ++ r, rfl, digit⟩

theorem IsWhole.startsWithDigit (isWhole : IsWhole whole) : StartsWithDigit whole := by
  obtain ⟨c, t, rfl⟩ := List.exists_cons_of_ne_nil isWhole.nonempty
  exact ⟨c, t, rfl, isWhole.row c List.mem_cons_self⟩

theorem startsWithDigit_place {l : Layout} (n : Nat) (point : Int) :
    StartsWithDigit (l.place (digits n) point).toList := by
  by_cases inside : l.lowest ≤ point ∧ point ≤ l.highest
  · by_cases low : point ≤ 0
    · rw [place_behind inside low]
      exact ⟨_, _, rfl, isDigit_zero⟩
    by_cases all : ((digits n).length : Int) ≤ point
    · rw [place_before inside low all, List.append_assoc]
      exact (isWhole_digits n).startsWithDigit.append _
    · have starts := (isWhole_digits n).startsWithDigit
      have positive : point.natAbs ≠ 0 := by omega
      obtain ⟨c, t, written, digit⟩ := starts
      obtain ⟨k, more⟩ := Nat.exists_eq_succ_of_ne_zero positive
      rw [place_between inside low all, written, more]
      exact ⟨c, _, rfl, digit⟩
  · obtain ⟨c, t, written, digit⟩ := (isWhole_digits n).startsWithDigit
    rw [place_outside inside, written]
    exact ⟨c, _, rfl, digit⟩

-- The sign in front of a number, which only negative ones have.
def signChars (negative : Bool) : List Char := if negative then ['-'] else []

-- What a number starts with.
def StartsNumber (c : Char) : Prop := isDigit c = true ∨ c = '-'

theorem exists_signed_cons {cs : List Char} (starts : StartsWithDigit cs) (negative : Bool) :
    ∃ c t, signChars negative ++ cs = c :: t ∧ StartsNumber c := by
  obtain ⟨c, t, rfl, digit⟩ := starts
  cases negative
  · exact ⟨c, t, rfl, .inl digit⟩
  · exact ⟨'-', c :: t, rfl, .inr rfl⟩

theorem readNumber?_signed {cs : List Char} (starts : StartsWithDigit cs) (negative : Bool) :
    readNumber? (signChars negative ++ cs) = readUnsigned? negative cs := by
  obtain ⟨c, t, rfl, digit⟩ := starts
  cases negative
  · exact readNumber?_of_digit digit t
  · exact readNumber?_minus digit t

theorem floatChars_finite (negative : Bool) (m : Magnitude) :
    floatChars (.finite negative m) = signChars negative ++ (Layout.json.magnitude m).toList := by
  rw [floatChars, Layout.render, String.toList_append]
  cases negative <;> rfl

theorem exists_floatChars_cons (negative : Bool) (m : Magnitude) :
    ∃ c t, floatChars (.finite negative m) = c :: t ∧ StartsNumber c := by
  obtain ⟨n, point, shown, -⟩ := Layout.json.exists_place m
  rw [floatChars_finite, shown]
  exact exists_signed_cons (startsWithDigit_place n point) negative

-- Every finite value is written so that exactly it is read back.
theorem readNumber?_floatChars (negative : Bool) (m : Magnitude) (ends : EndsNumber r) :
    readNumber? (floatChars (.finite negative m) ++ r) = some (.float (.finite negative m), r) := by
  obtain ⟨n, point, shown, zero, value⟩ := Layout.json.exists_place m
  rw [floatChars_finite, shown, List.append_assoc,
    readNumber?_signed ((startsWithDigit_place n point).append r),
    readUnsigned?_place n zero ends, value negative]

theorem exists_integer (n : Int) : ∃ k negative,
    (integer n).toList = signChars negative ++ digits k ∧ n = if negative then -(k : Int) else k := by
  cases n with
  | ofNat k => exact ⟨k, false, by simp [integer, natural, signChars], rfl⟩
  | negSucc k => exact ⟨k + 1, true, by simp [integer, natural, signChars], rfl⟩

theorem exists_integer_cons (n : Int) : ∃ c t, (integer n).toList = c :: t ∧ StartsNumber c := by
  obtain ⟨k, negative, written, -⟩ := exists_integer n
  rw [written]
  exact exists_signed_cons (isWhole_digits k).startsWithDigit negative

theorem readNumber?_integer (n : Int) (ends : EndsNumber r) :
    readNumber? ((integer n).toList ++ r) =
      if (integer n).length ≤ maxDigits then some (.int n, r) else none := by
  obtain ⟨k, negative, written, value⟩ := exists_integer n
  have length : (integer n).length = (digits k).length + (if negative then 1 else 0) := by
    rw [← String.length_toList, written, List.length_append, Nat.add_comm]
    cases negative <;> rfl
  have isWhole := isWhole_digits k
  rw [length, written, List.append_assoc, readNumber?_signed (isWhole.startsWithDigit.append r),
    readUnsigned?_of_digits isWhole ends, ofDigits_digits, ← value]

end HubContract.Json
