import HubContract.Number.Binary64

namespace HubContract.Number

-- A decimal `coefficient * 10 ^ exponent`.
structure Decimal where
  coefficient : Nat
  exponent : Int
  deriving DecidableEq, Repr

namespace Decimal

-- Whether a decimal reads as the magnitude.
def readsAs (m : Magnitude) (d : Decimal) : Bool :=
  Binary64.ofDecimal false d.coefficient d.exponent = .finite false m

end Decimal

namespace Magnitude

-- `10 ^ e` as a quotient.
def tenPower (e : Int) : Nat × Nat :=
  if e < 0 then (1, Nat.pow 10 e.natAbs) else (Nat.pow 10 e.natAbs, 1)

-- The exponent of the leading decimal digit: the largest `k` with `10 ^ k` at most the value.
-- The estimate from the binary length is at most one off, so its neighbours are tried in turn.
def leadingExponent (units : Nat) : Int :=
  let bits : Int := units.log2 - 1074
  let guess := bits * 30103 / 100000
  let reaches (k : Int) : Bool :=
    let (num, den) := tenPower k
    num * Nat.pow 2 1074 ≤ units * den
  if reaches (guess + 1) then guess + 1
  else if reaches guess then guess
  else guess - 1

-- The two neighbours of a value among the decimals that end at `10 ^ exponent`, the nearer first
-- and of two equally near ones the even one first.
def neighbours (units : Nat) (exponent : Int) : List Decimal :=
  let (num, den) := tenPower exponent
  let n := units * den
  let d := num * Nat.pow 2 1074
  let low := n / d
  if roundedQuotient n d = low then [⟨low, exponent⟩, ⟨low + 1, exponent⟩]
  else [⟨low + 1, exponent⟩, ⟨low, exponent⟩]

-- The value written out in full, which always reads back.
def expansion (m : Magnitude) : Decimal := ⟨m.units * Nat.pow 5 1074, -1074⟩

-- The shortest decimal: for one digit, two digits and so on, the nearer neighbour that reads back.
def shortest (m : Magnitude) : Decimal :=
  if m.mantissa = 0 then ⟨0, 0⟩
  else
    let lead := leadingExponent m.units
    let found := (List.range 17).findSome? fun (extra : Nat) =>
      (neighbours m.units (lead - extra)).find? (Decimal.readsAs m)
    found.getD m.expansion

end HubContract.Number.Magnitude
