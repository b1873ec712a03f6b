import HubContract.Json.Basic
import HubContract.Number.Reading

namespace HubContract.Json

open HubContract.Number HubContract.Text

def isSpace (c : Char) : Bool := c = ' ' ∨ c = '\n' ∨ c = '\r' ∨ c = '\t'

def skipSpace (cs : List Char) : List Char := cs.dropWhile isSpace

def hex4? (a b c d : Char) : Option Nat := ofHex? [a, b, c, d]

-- The character that an escape denotes; half of a surrogate pair must be followed by the other.
def readEscape? : List Char → Option (Char × List Char)
  | '"' :: r => some ('"', r)
  | '\\' :: r => some ('\\', r)
  | '/' :: r => some ('/', r)
  | 'b' :: r => some (Char.ofNat 8, r)
  | 'f' :: r => some (Char.ofNat 12, r)
  | 'n' :: r => some ('\n', r)
  | 'r' :: r => some ('\r', r)
  | 't' :: r => some ('\t', r)
  | 'u' :: a :: b :: c :: d :: r => do
    let n ← hex4? a b c d
    if h : n.isValidChar then some (Char.ofNatAux n h, r)
    else
      match r with
      | '\\' :: 'u' :: a :: b :: c :: d :: r => do
        let m ← hex4? a b c d
        if 0xd800 ≤ n ∧ n < 0xdc00 ∧ 0xdc00 ≤ m ∧ m < 0xe000 then
          some (Char.ofNat (0x10000 + (n - 0xd800) * 0x400 + (m - 0xdc00)), r)
        else none
      | _ => none
  | _ => none

-- The characters of a string up to its closing quote, and what follows it. Control characters
-- must be escaped. `fuel` bounds the number of characters.
def readStringBody : Nat → List Char → Option (List Char × List Char)
  | 0, _ => none
  | fuel + 1, cs =>
    match cs with
    | [] => none
    | '"' :: r => some ([], r)
    | '\\' :: r => do
      let (c, r) ← readEscape? r
      let (s, rest) ← readStringBody fuel r
      return (c :: s, rest)
    | c :: r =>
      if c.toNat < 0x20 then none
      else do
        let (s, rest) ← readStringBody fuel r
        return (c :: s, rest)

-- A string without its opening quote.
def readString (fuel : Nat) (cs : List Char) : Option (String × List Char) := do
  let (s, rest) ← readStringBody fuel cs
  return (String.ofList s, rest)

-- The digits after a point or in an exponent, of which there must be one.
def digits1? (cs : List Char) : Option (List Char × List Char) :=
  let (ds, rest) := spanDigits cs
  if ds.isEmpty then none else some (ds, rest)

def readFraction? : List Char → Option (List Char × List Char)
  | '.' :: r => digits1? r
  | r => some ([], r)

-- An exponent, if there is one.
def readExponent? (cs : List Char) : Option (Option Int × List Char) :=
  match cs with
  | [] => some (none, [])
  | e :: r =>
    if e = 'e' ∨ e = 'E' then do
      let (negative, r) := splitSign r
      let (ds, rest) ← digits1? r
      return (some (if negative then -(ofDigits ds : Int) else ofDigits ds), rest)
    else some (none, cs)

-- How deep collections with something in them may be nested in texts from elsewhere.
def maxNesting : Nat := 200

-- A number without its sign. It is a whole number if it has neither point nor exponent; a zero in
-- front must stand alone, and what stands before the point may not be too long.
def readUnsigned? (negative : Bool) (cs : List Char) : Option (Json × List Char) := do
  let (whole, r) ← digits1? cs
  if whole.length > 1 ∧ whole.head? = some '0' then none
  else if whole.length + (if negative then 1 else 0) > maxDigits then none
  else
    let (fraction, r) ← readFraction? r
    let (exponent, rest) ← readExponent? r
    match fraction, exponent with
    | [], none =>
      let n := ofDigits whole
      return (.int (if negative then -(n : Int) else n), rest)
    | _, _ =>
      return (.float (.ofDecimal negative (ofDigits (whole ++ fraction))
        (exponent.getD 0 - fraction.length)), rest)

def readNumber? : List Char → Option (Json × List Char)
  | '-' :: 'I' :: 'n' :: 'f' :: 'i' :: 'n' :: 'i' :: 't' :: 'y' :: r =>
    some (.float (.infinite true), r)
  | '-' :: r => readUnsigned? true r
  | r => readUnsigned? false r

mutual

-- A value and what follows it. `room` is how many collections with something in them may still be
-- opened. `fuel` bounds the steps of the descent and the length of strings. No character takes more
-- than two steps, so twice the length of the text is always enough.
def readValue : Nat → Nat → List Char → Option (Json × List Char)
  | 0, _, _ => none
  | fuel + 1, room, cs =>
    match skipSpace cs with
    | '{' :: r =>
      match skipSpace r, room with
      | '}' :: r, _ => some (.object [], r)
      | _, 0 => none
      | r, room + 1 => do
        let (ms, rest) ← readMembers fuel room r
        return (.object ms, rest)
    | '[' :: r =>
      match skipSpace r, room with
      | ']' :: r, _ => some (.array [], r)
      | _, 0 => none
      | r, room + 1 => do
        let (xs, rest) ← readItems fuel room r
        return (.array xs, rest)
    | '"' :: r => do
      let (s, rest) ← readString fuel r
      return (.str s, rest)
    | 't' :: 'r' :: 'u' :: 'e' :: r => some (.bool true, r)
    | 'f' :: 'a' :: 'l' :: 's' :: 'e' :: r => some (.bool false, r)
    | 'n' :: 'u' :: 'l' :: 'l' :: r => some (.null, r)
    | 'N' :: 'a' :: 'N' :: r => some (.float .nan, r)
    | 'I' :: 'n' :: 'f' :: 'i' :: 'n' :: 'i' :: 't' :: 'y' :: r => some (.float (.infinite false), r)
    | r => readNumber? r

-- One item or more, up to the closing bracket.
def readItems : Nat → Nat → List Char → Option (List Json × List Char)
  | 0, _, _ => none
  | fuel + 1, room, cs => do
    let (x, r) ← readValue fuel room cs
    match skipSpace r with
    | ']' :: rest => return ([x], rest)
    | ',' :: r =>
      let (xs, rest) ← readItems fuel room r
      return (x :: xs, rest)
    | _ => none

-- One member or more, up to the closing brace.
def readMembers : Nat → Nat → List Char → Option (List (String × Json) × List Char)
  | 0, _, _ => none
  | fuel + 1, room, cs =>
    match skipSpace cs with
    | '"' :: r => do
      let (k, r) ← readString fuel r
      match skipSpace r with
      | ':' :: r =>
        let (v, r) ← readValue fuel room r
        match skipSpace r with
        | '}' :: rest => return ([(k, v)], rest)
        | ',' :: r =>
          let (ms, rest) ← readMembers fuel room r
          return ((k, v) :: ms, rest)
        | _ => none
      | _ => none
    | _ => none

end

-- The value of a whole text, nested no deeper than `room`.
def ofChars? (cs : List Char) (room : Nat) : Option Json := do
  let (j, rest) ← readValue (2 * cs.length + 2) room cs
  if (skipSpace rest).isEmpty then some j else none

def parse? (s : String) (room : Nat) : Option Json := ofChars? s.toList room

end HubContract.Json
