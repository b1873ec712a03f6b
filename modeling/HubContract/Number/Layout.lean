import HubContract.Number.Shortest
import HubContract.Text.Numeral

namespace HubContract.Number

open HubContract.Text

-- Which numbers are written with an exponent, and how that looks. The digits are the shortest that
-- read back.
structure Layout where
  -- The positions of the decimal point, counted from before the first digit, that are written
  -- without an exponent.
  lowest : Int
  highest : Int
  -- The least width of an exponent, which always has a sign.
  exponentWidth : Nat
  deriving Repr

namespace Layout

-- In generated source: positional from 1e-4 up to below 1e16, exponents as in 1e+22 and 1e-07.
def source : Layout := ⟨-3, 16, 2⟩

-- In JSON text: positional from 1e-5 up to below 1e16, exponents as in 1e+22 and 1e-7.
def json : Layout := ⟨-4, 16, 1⟩

def exponentText (l : Layout) (e : Int) : String :=
  (if e < 0 then "-" else "+") ++ padded l.exponentWidth e.natAbs

-- Digits with the decimal point at `point`, counted from before the first digit.
def place (l : Layout) (ds : List Char) (point : Int) : String :=
  if l.lowest ≤ point ∧ point ≤ l.highest then
    if point ≤ 0 then "0." ++ String.ofList (List.replicate point.natAbs '0' ++ ds)
    else if (ds.length : Int) ≤ point then
      String.ofList (ds ++ List.replicate (point.natAbs - ds.length) '0') ++ ".0"
    else String.ofList (ds.take point.natAbs) ++ "." ++ String.ofList (ds.drop point.natAbs)
  else
    String.ofList (ds.take 1) ++ (if ds.length ≤ 1 then "" else "." ++ String.ofList (ds.drop 1)) ++
      "e" ++ l.exponentText (point - 1)

-- A coefficient without the zeros at its end, and how many there were.
def stripZeros : Nat → Nat → Nat × Nat
  | 0, n => (n, 0)
  | fuel + 1, n =>
    if n ≠ 0 ∧ n % 10 = 0 then
      let (m, k) := stripZeros fuel (n / 10)
      (m, k + 1)
    else (n, 0)

def magnitude (l : Layout) (m : Magnitude) : String :=
  let d := m.shortest
  let (c, zeros) := stripZeros (digits d.coefficient).length d.coefficient
  let ds := digits c
  l.place ds (if c = 0 then 1 else d.exponent + zeros + ds.length)

-- The text of a number, infinite values and what is no number included.
def render (l : Layout) : Binary64 → String
  | .finite s m => (if s then "-" else "") ++ l.magnitude m
  | .infinite s => if s then "-inf" else "inf"
  | .nan => "nan"

end HubContract.Number.Layout
