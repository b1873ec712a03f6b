import HubContract.Number.Shortest
import HubContract.Text.Numeral

namespace HubContract.Number

open HubContract.Text

-- The longest row of digits in front, and the rest.
def spanDigits (cs : List Char) : List Char × List Char := cs.span isDigit

-- An optional sign.
def splitSign : List Char → Bool × List Char
  | '-' :: r => (true, r)
  | '+' :: r => (false, r)
  | r => (false, r)

-- An exponent mark with its number. What is no complete exponent is left where it stands.
def splitExponent (cs : List Char) : Int × List Char :=
  match cs with
  | e :: r =>
    if e = 'e' ∨ e = 'E' then
      let (negative, r') := splitSign r
      let (ds, rest) := spanDigits r'
      if ds.isEmpty then (0, cs)
      else (if negative then -(ofDigits ds : Int) else ofDigits ds, rest)
    else (0, cs)
  | [] => (0, cs)

-- An unsigned decimal that takes up the whole text: at least one digit before or after the point.
def Decimal.ofChars? (cs : List Char) : Option Decimal :=
  let (whole, r) := spanDigits cs
  let (fraction, r) := match r with
    | '.' :: r => spanDigits r
    | r => ([], r)
  if whole.isEmpty && fraction.isEmpty then none
  else
    let (e, rest) := splitExponent r
    if rest.isEmpty then some ⟨ofDigits (whole ++ fraction), e - fraction.length⟩ else none

-- A signed decimal as the value nearest to it.
def Binary64.ofChars? (cs : List Char) : Option Binary64 := do
  let (negative, r) := splitSign cs
  let d ← Decimal.ofChars? r
  return .ofDecimal negative d.coefficient d.exponent

-- The values that no digits denote, by their names in any case and with a sign.
def Binary64.ofWord? (cs : List Char) : Option Binary64 :=
  let (negative, r) := splitSign cs
  let word := String.ofList (r.map Char.toLower)
  if word = "inf" ∨ word = "infinity" then some (.infinite negative)
  else if word = "nan" then some .nan
  else none

end HubContract.Number
