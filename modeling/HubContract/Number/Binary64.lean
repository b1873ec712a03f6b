namespace HubContract.Number

-- `mantissa * 2 ^ shift` units of 2^-1074.
structure Magnitude where
  mantissa : Nat
  shift : Nat
  canonical : mantissa < Nat.pow 2 53 ∧ (shift = 0 ∨ Nat.pow 2 52 ≤ mantissa) ∧ shift ≤ 2045
  deriving DecidableEq, Repr

namespace Magnitude

def zero : Magnitude := ⟨0, 0, by decide⟩

instance : Inhabited Magnitude := ⟨zero⟩

-- None where the parts are not canonical, which for a rounded quotient means too large.
def ofParts? (mantissa shift : Nat) : Option Magnitude :=
  if h : mantissa < Nat.pow 2 53 ∧ (shift = 0 ∨ Nat.pow 2 52 ≤ mantissa) ∧ shift ≤ 2045 then
    some ⟨mantissa, shift, h⟩
  else none

def units (m : Magnitude) : Nat := m.mantissa * Nat.pow 2 m.shift

end Magnitude

-- Floating point of 64 bits as exact data: equal values are equal terms, the two zeros apart.
-- Rounding goes to the nearest value and a tie to the even one.
inductive Binary64 where
  | finite (negative : Bool) (magnitude : Magnitude)
  | infinite (negative : Bool)
  | nan
  deriving DecidableEq, Repr

-- The whole number nearest to a quotient.
def roundedQuotient (num den : Nat) : Nat :=
  let q := num / den
  let r := 2 * (num % den)
  if r < den then q else if den < r then q + 1 else if q % 2 = 0 then q else q + 1

-- How far a quotient of units has to be shifted to fit into 53 bits.
def shiftFor (q : Nat) : Nat := if q < Nat.pow 2 53 then 0 else q.log2 - 52

-- A mantissa that was rounded up to 54 bits moves to the next shift.
def carried (mantissa shift : Nat) : Nat × Nat :=
  if mantissa = Nat.pow 2 53 then (Nat.pow 2 52, shift + 1) else (mantissa, shift)

-- The magnitude nearest to `num / den` units; none when that is too large.
def Magnitude.ofUnits? (num den : Nat) : Option Magnitude :=
  let shift := shiftFor (num / den)
  let (m, s) := carried (roundedQuotient num (den * Nat.pow 2 shift)) shift
  Magnitude.ofParts? m s

namespace Binary64

instance : Inhabited Binary64 := ⟨.finite false .zero⟩

-- A magnitude with its sign; none stands for one that is too large.
def ofMagnitude (negative : Bool) : Option Magnitude → Binary64
  | some m => .finite negative m
  | none => .infinite negative

-- The value nearest to a quotient.
def ofRatio (negative : Bool) (num den : Nat) : Binary64 :=
  ofMagnitude negative (Magnitude.ofUnits? (num * Nat.pow 2 1074) den)

-- The value nearest to `coefficient * 10 ^ exponent`. Exponents that are out of reach are settled
-- first, so that no power of that size is computed.
def ofDecimal (negative : Bool) (coefficient : Nat) (exponent : Int) : Binary64 :=
  let places : Int := (Nat.toDigits 10 coefficient).length
  if coefficient = 0 ∨ exponent + places < -330 then .finite negative .zero
  else if exponent + places > 310 then .infinite negative
  else if exponent < 0 then ofRatio negative coefficient (Nat.pow 10 exponent.natAbs)
  else ofRatio negative (coefficient * Nat.pow 10 exponent.natAbs) 1

def ofInt (n : Int) : Binary64 := ofRatio (n < 0) n.natAbs 1

def ofNat (n : Nat) : Binary64 := ofRatio false n 1

-- Equality of numbers: the zeros are equal, and what is not a number equals nothing.
def numEq : Binary64 → Binary64 → Bool
  | .finite s a, .finite t b => a = b ∧ (s = t ∨ a = .zero)
  | .infinite s, .infinite t => s = t
  | _, _ => false

-- Strictly below zero, which holds of neither zero and of nothing that is not a number.
def isNegative : Binary64 → Bool
  | .finite s m => s && m.mantissa ≠ 0
  | .infinite s => s
  | .nan => false

-- The whole number that a value is, if it is one.
def toInt? : Binary64 → Option Int
  | .finite s m =>
    if m.units % Nat.pow 2 1074 = 0 then
      let n : Int := m.units / Nat.pow 2 1074
      some (if s then -n else n)
    else none
  | _ => none

-- A finite value in units of 2^-1074.
def toUnits? : Binary64 → Option Int
  | .finite s m => some (if s then -(m.units : Int) else m.units)
  | _ => none

-- The value nearest to a signed number of units.
def ofUnits (n : Int) (den : Nat) : Binary64 :=
  ofMagnitude (n < 0) (Magnitude.ofUnits? n.natAbs den)

def neg : Binary64 → Binary64
  | .finite s m => .finite (!s) m
  | .infinite s => .infinite (!s)
  | .nan => .nan

-- Sum, rounded once. Sums with infinite terms follow the usual rules.
def add : Binary64 → Binary64 → Binary64
  | .nan, _ => .nan
  | _, .nan => .nan
  | .infinite s, .infinite t => if s = t then .infinite s else .nan
  | .infinite s, _ => .infinite s
  | _, .infinite t => .infinite t
  | .finite s a, .finite t b =>
    let x : Int := if s then -(a.units : Int) else a.units
    let y : Int := if t then -(b.units : Int) else b.units
    if x + y = 0 then .finite (s && t) .zero else ofUnits (x + y) 1

-- Product, rounded once. Infinite times zero is no number.
def mul : Binary64 → Binary64 → Binary64
  | .nan, _ => .nan
  | _, .nan => .nan
  | .infinite s, .infinite t => .infinite (s != t)
  | .infinite s, .finite t m => if m = .zero then .nan else .infinite (s != t)
  | .finite s m, .infinite t => if m = .zero then .nan else .infinite (s != t)
  | .finite s a, .finite t b =>
    ofMagnitude (s != t) (Magnitude.ofUnits? (a.units * b.units) (Nat.pow 2 1074))

end HubContract.Number.Binary64
