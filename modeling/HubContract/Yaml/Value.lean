import HubContract.Data.Basic
import HubContract.Number.Reading
import HubContract.Text.Blank
import HubContract.Text.DecimalDigit
import HubContract.Yaml.Scalar
import HubContract.Yaml.Tag

namespace HubContract.Yaml

-- Bytes written in base 64. Characters outside the alphabet are passed over; reading ends where the
-- padding completes a group.
namespace Base64

def value? (c : Char) : Option Nat :=
  if 'A' ≤ c ∧ c ≤ 'Z' then some (c.toNat - 65)
  else if 'a' ≤ c ∧ c ≤ 'z' then some (c.toNat - 71)
  else if '0' ≤ c ∧ c ≤ '9' then some (c.toNat + 4)
  else if c = '+' then some 62
  else if c = '/' then some 63
  else none

-- The bytes from here on. `place` counts the characters of the open group, `left` is what they
-- have left over, `pads` the padding seen. None where a group stays incomplete.
def bytes? : List Char → (place left pads : Nat) → Option (List UInt8)
  | [], place, _, _ => if place = 0 then some [] else none
  | c :: r, place, left, pads =>
    if c = '=' then
      if place ≥ 2 ∧ place + (pads + 1) ≥ 4 then some []
      else bytes? r place left (pads + 1)
    else
      match value? c with
      | none => bytes? r place left pads
      | some v =>
        match place with
        | 0 => bytes? r 1 v 0
        | 1 => (bytes? r 2 (v % 16) 0).map (UInt8.ofNat (left * 4 + v / 16) :: ·)
        | 2 => (bytes? r 3 (v % 4) 0).map (UInt8.ofNat (left * 16 + v / 4) :: ·)
        | _ => (bytes? r 0 0 0).map (UInt8.ofNat (left * 64 + v) :: ·)

def decode? (cs : List Char) : Option (List UInt8) := bytes? cs 0 0 0

end Base64

open HubContract.Number HubContract.Text

def unusable (f : Fault) : Except ReadError α := .error (.unusable f)

namespace Value

def withoutUnderscores (s : String) : List Char := s.toList.filter (· ≠ '_')

-- Digits of every script as those of ASCII, and no blanks around them.
def plain (cs : List Char) : List Char := (trimWhere isUnicodeSpace cs).map asciiDigit

-- The digits after the mark that may stand in front of them in a base that is a power of two.
def dropMark (base : Nat) (cs : List Char) : List Char :=
  match cs with
  | '0' :: c :: r =>
    if (base = 2 ∧ c.toLower = 'b') ∨ (base = 8 ∧ c.toLower = 'o') ∨ (base = 16 ∧ c.toLower = 'x')
    then r else cs
  | _ => cs

-- A row of digits as the number it denotes in the given base. Blanks around it, a sign and a mark
-- for the base are allowed.
def intOfDigits (base : Nat) (cs : List Char) : Except ReadError Int :=
  let (negative, r) := splitSign (plain cs)
  let ds := dropMark base r
  if ds.isEmpty ∨ (base = 10 ∧ ds.length > maxDigits) then unusable .value
  else
    match ofBase? base ds with
    | some n => .ok (if negative then -(n : Int) else n)
    | none => unusable .value

-- The parts of a number between colons.
def colonParts (cs : List Char) : List (List Char) :=
  cs.foldr (fun c parts =>
    match parts with
    | [] => [[c]]
    | p :: ps => if c = ':' then [] :: p :: ps else (c :: p) :: ps) [[]]

def intOfText (s : String) : Except ReadError Int := do
  let cs := withoutUnderscores s
  let body := Tag.unsigned cs
  let n : Int ←
    match body with
    | [] => unusable .index
    | ['0'] => pure 0
    | '0' :: 'b' :: r => intOfDigits 2 r
    | '0' :: 'x' :: r => intOfDigits 16 r
    | '0' :: _ => intOfDigits 8 body
    | _ =>
      if body.contains ':' then do
        let parts ← (colonParts body).mapM (intOfDigits 10)
        pure (parts.foldl (fun acc d => 60 * acc + d) 0)
      else intOfDigits 10 body
  return if cs.head? = some '-' then -n else n

def floatOfDigits (cs : List Char) : Except ReadError Binary64 :=
  let cs := plain cs
  match (Binary64.ofChars? cs).or (Binary64.ofWord? cs) with
  | some x => .ok x
  | none => unusable .value

-- The sum of parts that each weigh sixty times the one before. Weights, products and sums are
-- rounded one by one; a weight that is out of range is an error, whatever it is a weight of.
def weighted : Binary64 → Nat → List Binary64 → Except ReadError Binary64
  | sum, _, [] => .ok sum
  | sum, weight, x :: xs =>
    match Binary64.ofNat weight with
    | w@(.finite ..) => weighted (sum.add (x.mul w)) (60 * weight) xs
    | _ => unusable .overflow

def floatOfText (s : String) : Except ReadError Binary64 := do
  let cs := (withoutUnderscores s).map Char.toLower
  let body := Tag.unsigned cs
  let x ←
    if cs.isEmpty then unusable .index
    else if body = ".inf".toList then pure (Binary64.infinite false)
    else if body = ".nan".toList then pure Binary64.nan
    else if body.contains ':' then do
      let parts ← (colonParts body).mapM floatOfDigits
      weighted default 1 parts.reverse
    else floatOfDigits body
  return if cs.head? = some '-' then x.neg else x

-- Whether a number is the one that the word for no number denotes everywhere.
def isNanWord (s : String) : Bool :=
  Tag.unsigned ((withoutUnderscores s).map Char.toLower) = ".nan".toList

def boolOfText (s : String) : Except ReadError Bool :=
  let word := String.ofList (s.toList.map Char.toLower)
  if ["yes", "true", "on"].contains word then .ok true
  else if ["no", "false", "off"].contains word then .ok false
  else unusable .key

def isLeap (year : Nat) : Bool := year % 4 = 0 ∧ (year % 100 ≠ 0 ∨ year % 400 = 0)

def daysIn (year month : Nat) : Nat :=
  if month = 2 then (if isLeap year then 29 else 28)
  else if month = 4 ∨ month = 6 ∨ month = 9 ∨ month = 11 then 30 else 31

def isDate (d : Date) : Bool :=
  1 ≤ d.year ∧ 1 ≤ d.month ∧ d.month ≤ 12 ∧ 1 ≤ d.day ∧ d.day ≤ daysIn d.year d.month

-- A distance from universal time must be less than a day.
def offsetSeconds (zone : Option (Option Char × List Char × List Char)) :
    Except ReadError (Option Int) :=
  match zone with
  | none => .ok none
  | some (none, _, _) => .ok (some 0)
  | some (some sign, hour, minute) =>
    let n : Int := 3600 * ofDigits hour + 60 * ofDigits minute
    if n < 86400 then .ok (some (if sign = '-' then -n else n)) else unusable .value

-- A date or a time, which may be followed by a line break.
def timeOfText (s : String) : Except ReadError Data :=
  match Tag.timeText? (Tag.withoutBreak s.toList) with
  | none => unusable .attribute
  | some t => do
    let date : Date := ⟨ofDigits t.year, ofDigits t.month, ofDigits t.day⟩
    match t.clock with
    | none => if isDate date then return .date date else unusable .value
    | some (hour, minute, second) =>
      let micro := ofDigits ((t.fraction ++ List.replicate 6 '0').take 6)
      let offset ← offsetSeconds t.zone
      let h := ofDigits hour
      let m := ofDigits minute
      let sec := ofDigits second
      if isDate date ∧ h < 24 ∧ m < 60 ∧ sec < 60 then
        return .timestamp ⟨date, h, m, sec, micro, offset⟩
      else unusable .value

def bytesOfText (s : String) : Except ReadError (List UInt8) :=
  if s.toList.any fun c => c.toNat ≥ 128 then malformed
  else
    match Base64.decode? s.toList with
    | some b => .ok b
    | none => malformed

end Value

-- The kinds of scalars that have a tag.
inductive ScalarKind where
  | string
  | null
  | bool
  | int
  | float
  | time
  | binary
  deriving DecidableEq, Repr

namespace ScalarKind

def ofTag? (tag : String) : Option ScalarKind :=
  [("str", string), ("null", null), ("bool", bool), ("int", int), ("float", float),
    ("timestamp", time), ("binary", binary)].findSome? fun (name, kind) =>
      if Tag.standard name = tag then some kind else none

-- What a text with halves of surrogate pairs comes to, which is nothing but a text.
def ofLoose (codes : List Nat) : ScalarKind → Except ReadError Data
  | .string => .ok (.loose codes)
  | .null => .ok .null
  | .bool => unusable .key
  | .int | .float => unusable .value
  | .time => unusable .attribute
  | .binary => malformed

-- The value of a text.
def value (kind : ScalarKind) : Written → Except ReadError Data
  | .loose codes => kind.ofLoose codes
  | .whole s =>
    match kind with
    | .string => .ok (.str s)
    | .null => .ok .null
    | .bool => (Value.boolOfText s).map .bool
    | .int => (Value.intOfText s).map .int
    | .float => (Value.floatOfText s).map .float
    | .time => Value.timeOfText s
    | .binary => (Value.bytesOfText s).map .bytes

end ScalarKind

end HubContract.Yaml
