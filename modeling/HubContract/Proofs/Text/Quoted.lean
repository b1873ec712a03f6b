import HubContract.Proofs.Text.Numeral
import HubContract.Text.Loose
import Mathlib.Tactic.SplitIfs

namespace HubContract.Text.Quoted

variable {c quote : Char} {r : List Char}

-- The two kinds of quotes.
def IsQuote (c : Char) : Prop := c = '\'' ∨ c = '"'

theorem isQuote_quoteFor (cs : List Char) : IsQuote (quoteFor cs) := by
  rw [quoteFor]
  split
  · exact .inr rfl
  · exact .inl rfl

theorem toNat_lt (c : Char) : c.toNat < 0x110000 := by
  rcases c.valid with low | ⟨-, high⟩
  · exact Nat.lt_trans low (by decide)
  · exact high

-- Each width has its own letter, and as many digits are read as were written.
theorem unescape?_numericEscape (c : Char) (r : List Char) :
    ∃ body, numericEscape c.toNat = '\\' :: body ∧ unescape? (body ++ r) = some (c, r) := by
  have bound := toNat_lt c
  rw [numericEscape]
  split
  next two =>
    refine ⟨_, rfl, ?_⟩
    have value : ofHex? (hex 2 c.toNat) = some c.toNat := ofHex?_hex_of_lt (by omega)
    simp only [hex, List.nil_append, List.cons_append] at value ⊢
    rw [unescape?, value]
    simp [Written.codePoint?_toNat]
  next =>
    split
    next four =>
      refine ⟨_, rfl, ?_⟩
      have value : ofHex? (hex 4 c.toNat) = some c.toNat := ofHex?_hex_of_lt (by omega)
      simp only [hex, List.nil_append, List.cons_append] at value ⊢
      rw [unescape?, value]
      simp [Written.codePoint?_toNat]
    next =>
      refine ⟨_, rfl, ?_⟩
      have value : ofHex? (hex 8 c.toNat) = some c.toNat := ofHex?_hex_of_lt (by omega)
      simp only [hex, List.nil_append, List.cons_append] at value ⊢
      rw [unescape?, value]
      simp [Written.codePoint?_toNat]

-- One character goes out and comes back as itself, whatever follows it.
theorem unquoteBody_escape (isQuote : IsQuote quote) (fuel : Nat) (c : Char) (r : List Char) :
    unquoteBody quote (fuel + 1) (escape quote c ++ r) =
      (unquoteBody quote fuel r).map (c :: ·) := by
  have escaped (body : List Char) (denotes : unescape? (body ++ r) = some (c, r)) :
      unquoteBody quote (fuel + 1) ('\\' :: body ++ r) = (unquoteBody quote fuel r).map (c :: ·) := by
    rw [List.cons_append, unquoteBody, denotes]
    change (do return c :: (← unquoteBody quote fuel r)) = _
    cases unquoteBody quote fuel r <;> rfl
  rw [escape]
  split
  next special =>
    apply escaped [c]
    rcases special with rfl | rfl
    · rcases isQuote with rfl | rfl <;> rfl
    · rfl
  next plain =>
  obtain ⟨other, noBackslash⟩ := not_or.mp plain
  split
  next h => exact escaped ['n'] (h ▸ rfl)
  next noLine =>
  split
  next h => exact escaped ['r'] (h ▸ rfl)
  next noReturn =>
  split
  next h => exact escaped ['t'] (h ▸ rfl)
  next =>
  split
  · rw [List.cons_append, List.nil_append, unquoteBody.eq_def]
    simp only [other, if_false]
    cases unquoteBody quote fuel r <;> rfl
  · obtain ⟨body, written, denotes⟩ := unescape?_numericEscape c r
    rw [written]
    exact escaped body denotes

theorem unquoteBody_flatMap (isQuote : IsQuote quote) (cs : List Char) {fuel : Nat}
    (enough : cs.length < fuel) :
    unquoteBody quote fuel (cs.flatMap (escape quote) ++ [quote]) = some cs := by
  induction cs generalizing fuel with
  | nil =>
    obtain ⟨fuel, rfl⟩ := Nat.exists_eq_add_of_lt enough
    rcases isQuote with rfl | rfl <;> rfl
  | cons c cs ih =>
    obtain ⟨fuel, rfl⟩ : ∃ n, fuel = n + 1 := ⟨fuel - 1, by omega⟩
    have left : cs.length < fuel := Nat.lt_of_succ_lt_succ enough
    rw [List.flatMap_cons, List.append_assoc, unquoteBody_escape isQuote, ih left]
    rfl

theorem escape_ne_nil (quote c : Char) : escape quote c ≠ [] := by
  rw [escape, numericEscape]
  split_ifs <;> exact List.cons_ne_nil _ _

theorem length_le_flatMap {f : Char → List Char} (writes : ∀ c, f c ≠ []) (cs : List Char) :
    cs.length ≤ (cs.flatMap f).length := by
  induction cs with
  | nil => exact Nat.le_refl 0
  | cons c cs ih =>
    have one : 0 < (f c).length := List.length_pos_iff.mpr (writes c)
    rw [List.flatMap_cons, List.length_append, List.length_cons]
    omega

-- Reading a literal undoes the quoting, for every text.
theorem unquote?_quoteChars (cs : List Char) : unquote? (quoteChars cs) = some cs := by
  have isQuote := isQuote_quoteFor cs
  have enough : cs.length < (cs.flatMap (escape (quoteFor cs)) ++ [quoteFor cs]).length + 1 := by
    have written := length_le_flatMap (escape_ne_nil (quoteFor cs)) cs
    rw [List.length_append, List.length_singleton]
    omega
  have body := unquoteBody_flatMap isQuote cs enough
  rw [quoteChars]
  rcases isQuote with single | double
  · rw [single] at body ⊢
    exact body
  · rw [double] at body ⊢
    exact body

theorem isVisible_digitChar : ∀ d < 16, isVisible (Nat.digitChar d) = true := by decide

theorem isVisible_of_mem_hex {width n : Nat} (mem : c ∈ hex width n) : isVisible c = true := by
  obtain ⟨d, small, rfl⟩ := exists_digitChar_of_mem_hex mem
  exact isVisible_digitChar d small

theorem isVisible_of_mem_numericEscape {n : Nat} (mem : c ∈ numericEscape n) :
    isVisible c = true := by
  have escaped (mark : Char) (width : Nat) (visible : isVisible mark = true)
      (mem : c ∈ '\\' :: mark :: hex width n) : isVisible c = true := by
    rcases List.mem_cons.mp mem with rfl | mem
    · decide
    rcases List.mem_cons.mp mem with rfl | mem
    · exact visible
    · exact isVisible_of_mem_hex mem
  rw [numericEscape] at mem
  split_ifs at mem
  · exact escaped 'x' 2 (by decide) mem
  · exact escaped 'u' 4 (by decide) mem
  · exact escaped 'U' 8 (by decide) mem

theorem IsQuote.isVisible (isQuote : IsQuote quote) : isVisible quote = true := by
  rcases isQuote with rfl | rfl <;> decide

theorem isVisible_of_mem_escape (isQuote : IsQuote quote) {d : Char} (mem : c ∈ escape quote d) :
    isVisible c = true := by
  have pair (d : Char) (visible : isVisible d = true) (mem : c ∈ ['\\', d]) :
      isVisible c = true := by
    rcases List.mem_cons.mp mem with rfl | mem
    · decide
    · rwa [List.mem_singleton.mp mem]
  rw [escape] at mem
  split_ifs at mem with special line ret tab visible
  · refine pair d ?_ mem
    rcases special with rfl | rfl
    · exact isQuote.isVisible
    · decide
  · exact pair 'n' (by decide) mem
  · exact pair 'r' (by decide) mem
  · exact pair 't' (by decide) mem
  · rwa [List.mem_singleton.mp mem]
  · exact isVisible_of_mem_numericEscape mem

-- A literal has no character without a visible form, and so no line break of any kind.
theorem isVisible_of_mem_quoteChars {cs : List Char} (mem : c ∈ quoteChars cs) :
    isVisible c = true := by
  have isQuote := isQuote_quoteFor cs
  rw [quoteChars, List.cons_append] at mem
  rcases List.mem_cons.mp mem with rfl | mem
  · exact isQuote.isVisible
  rcases List.mem_append.mp mem with mem | mem
  · obtain ⟨d, -, mem⟩ := List.mem_flatMap.mp mem
    exact isVisible_of_mem_escape isQuote mem
  · rw [List.mem_singleton.mp mem]
    exact isQuote.isVisible

end HubContract.Text.Quoted
