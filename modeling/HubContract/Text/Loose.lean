import HubContract.Text.Quoted

namespace HubContract.Text

-- A text as it was written: a string if that holds it, and its code points otherwise.
inductive Written where
  | whole (text : String)
  | loose (codes : List Nat)
  deriving DecidableEq, Repr, Inhabited

namespace Written

def ofCodes (codes : List Nat) : Written :=
  match codes.mapM Quoted.codePoint? with
  | some cs => .whole (String.ofList cs)
  | none => .loose codes

-- The text, in which halves stand as the escapes that denote them.
def text : Written → String
  | .whole s => s
  | .loose codes => String.ofList (codes.flatMap shown)
where
  shown (n : Nat) : List Char :=
    match Quoted.codePoint? n with
    | some c => [c]
    | none => Quoted.numericEscape n

theorem codePoint?_toNat (c : Char) : Quoted.codePoint? c.toNat = some c := dif_pos c.valid

theorem mapM_codePoint?_toNat (cs : List Char) :
    (cs.map Char.toNat).mapM Quoted.codePoint? = some cs := by
  induction cs with
  | nil => rfl
  | cons c r ih => simp [codePoint?_toNat, ih]

-- What a string is made of is read as that string.
theorem ofCodes_toNat (s : String) : ofCodes (s.toList.map Char.toNat) = .whole s := by
  rw [ofCodes, mapM_codePoint?_toNat]
  simp

end Written

namespace Quoted

-- The literal of a row of code points; halves of surrogate pairs are escaped.
def ofCodes (codes : List Nat) : String :=
  let q := quoteFor (codes.filterMap codePoint?)
  let piece (n : Nat) : List Char :=
    match codePoint? n with
    | some c => escape q c
    | none => numericEscape n
  String.ofList (q :: codes.flatMap piece ++ [q])

end HubContract.Text.Quoted
