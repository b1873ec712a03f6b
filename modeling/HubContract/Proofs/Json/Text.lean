import HubContract.Proofs.Json.Number
import HubContract.Proofs.Text.Quoted

namespace HubContract.Json

open HubContract.Text

variable {c : Char} {r : List Char}

theorem readEscape?_hex (c : Char) (small : c.toNat < 0x20) (r : List Char) :
    readEscape? ('u' :: (hex 4 c.toNat ++ r)) = some (c, r) := by
  have value : hex4? (hexDigit (c.toNat / 16 / 16 / 16)) (hexDigit (c.toNat / 16 / 16))
      (hexDigit (c.toNat / 16)) (hexDigit c.toNat) = some c.toNat :=
    @ofHex?_hex_of_lt 4 c.toNat (by omega)
  have valid : c.toNat.isValidChar := c.valid
  simp only [hex, List.nil_append, List.cons_append]
  rw [readEscape?, value, Option.bind_eq_bind, Option.bind_some, dif_pos valid]
  rfl

-- One character goes out and comes back as itself, whatever follows it.
theorem readStringBody_escapeChar (fuel : Nat) (c : Char) (r : List Char) :
    readStringBody (fuel + 1) (escapeChar c ++ r) =
      (readStringBody fuel r).map fun (s, rest) => (c :: s, rest) := by
  have escaped (body : List Char) (denotes : readEscape? (body ++ r) = some (c, r)) :
      readStringBody (fuel + 1) ('\\' :: body ++ r) =
        (readStringBody fuel r).map fun (s, rest) => (c :: s, rest) := by
    rw [List.cons_append, readStringBody, denotes]
    change (do let (s, rest) ← readStringBody fuel r; return (c :: s, rest)) = _
    cases readStringBody fuel r <;> rfl
  have same (code : Nat) (valid : code.isValidChar) (h : c.toNat = code) : Char.ofNat code = c := by
    rw [← h, Char.ofNat_toNat]
  rw [escapeChar]
  split
  next h => exact escaped ['"'] (by rw [h]; rfl)
  next noQuote =>
  split
  next h => exact escaped ['\\'] (by rw [h]; rfl)
  next noBackslash =>
  split
  next h => exact escaped ['n'] (by rw [h]; rfl)
  next =>
  split
  next h => exact escaped ['r'] (by rw [h]; rfl)
  next =>
  split
  next h => exact escaped ['t'] (by rw [h]; rfl)
  next =>
  split
  next h => exact escaped ['b'] (congrArg (fun c => some (c, r)) (same 8 (by decide) h))
  next =>
  split
  next h => exact escaped ['f'] (congrArg (fun c => some (c, r)) (same 12 (by decide) h))
  next =>
  split
  next small => exact escaped ('u' :: hex 4 c.toNat) (readEscape?_hex c small r)
  next large =>
    rw [List.cons_append, List.nil_append, readStringBody.eq_def]
    simp only [large, if_false]
    cases readStringBody fuel r <;> rfl

theorem readStringBody_flatMap (cs : List Char) {fuel : Nat} (enough : cs.length < fuel)
    (r : List Char) :
    readStringBody fuel (cs.flatMap escapeChar ++ '"' :: r) = some (cs, r) := by
  induction cs generalizing fuel with
  | nil =>
    obtain ⟨fuel, rfl⟩ := Nat.exists_eq_add_of_lt enough
    rfl
  | cons c cs ih =>
    obtain ⟨fuel, rfl⟩ : ∃ n, fuel = n + 1 := ⟨fuel - 1, by omega⟩
    have left : cs.length < fuel := Nat.lt_of_succ_lt_succ enough
    rw [List.flatMap_cons, List.append_assoc, readStringBody_escapeChar, ih left]
    rfl

theorem escapeChar_ne_nil (c : Char) : escapeChar c ≠ [] := by
  rw [escapeChar]
  split_ifs <;> exact List.cons_ne_nil _ _

theorem length_le_stringChars (s : String) : s.length + 2 ≤ (stringChars s).length := by
  have written := Quoted.length_le_flatMap escapeChar_ne_nil s.toList
  rw [String.length_toList] at written
  rw [stringChars, List.cons_append, List.length_cons, List.length_append, List.length_singleton]
  omega

-- A string is read up to its closing quote.
theorem readString_stringChars (s : String) {fuel : Nat} (enough : s.length < fuel)
    (r : List Char) : ∃ body, stringChars s ++ r = '"' :: body ∧
      readString fuel body = some (s, r) := by
  refine ⟨s.toList.flatMap escapeChar ++ '"' :: r, ?_, ?_⟩
  · rw [stringChars, List.append_assoc]
    rfl
  · rw [readString, readStringBody_flatMap s.toList (by rwa [String.length_toList])]
    simp

theorem skipSpace_cons (visible : isSpace c = false) (r : List Char) :
    skipSpace (c :: r) = c :: r :=
  List.dropWhile_cons_of_neg (by rw [visible]; exact Bool.false_ne_true)

theorem skipSpace_lineBreak (indent : Option Nat) (depth : Nat) (r : List Char) :
    skipSpace (lineBreak indent depth ++ r) = skipSpace r := by
  refine List.dropWhile_append_of_pos fun c mem => ?_
  cases indent with
  | none => cases mem
  | some width =>
    rcases List.mem_cons.mp mem with rfl | mem
    · rfl
    · rw [List.eq_of_mem_replicate mem]
      rfl

theorem skipSpace_space (r : List Char) : skipSpace (' ' :: r) = skipSpace r :=
  List.dropWhile_cons_of_pos rfl

end HubContract.Json
