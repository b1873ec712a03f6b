import HubContract.Text.Loose

namespace HubContract.Yaml

open HubContract.Text

namespace Tag

def standard (name : String) : String := "tag:yaml.org,2002:" ++ name

def string : String := standard "str"
def null : String := standard "null"
def sequence : String := standard "seq"
def mapping : String := standard "map"
def merge : String := standard "merge"
def value : String := standard "value"

def isBinaryDigit (c : Char) : Bool := c = '0' || c = '1' || c = '_'
def isOctalDigit (c : Char) : Bool := ('0' ≤ c ∧ c ≤ '7') || c = '_'
def isHexDigit (c : Char) : Bool := (hexValue? c).isSome || c = '_'
def isGroupedDigit (c : Char) : Bool := isDigit c || c = '_'

-- Without a leading sign.
def unsigned (cs : List Char) : List Char :=
  match cs with
  | '+' :: r | '-' :: r => r
  | r => r

-- Groups of sixty, each after a colon, at least one of them.
def isSixties : Nat → List Char → Bool
  | 0, _ => false
  | fuel + 1, cs =>
    match cs with
    | [':', a] => isDigit a
    | [':', a, b] => '0' ≤ a ∧ a ≤ '5' ∧ isDigit b
    | ':' :: a :: ':' :: r => isDigit a && isSixties fuel (':' :: r)
    | ':' :: a :: b :: ':' :: r => ('0' ≤ a ∧ a ≤ '5' ∧ isDigit b) && isSixties fuel (':' :: r)
    | _ => false

def isInt (cs : List Char) : Bool :=
  match unsigned cs with
  | '0' :: 'b' :: r => !r.isEmpty && r.all isBinaryDigit
  | '0' :: 'x' :: r => !r.isEmpty && r.all isHexDigit
  | ['0'] => true
  | '0' :: r => r.all isOctalDigit
  | c :: r =>
    isDigit c &&
      (let (_, rest) := r.span isGroupedDigit
       rest.isEmpty || isSixties (rest.length + 1) rest)
  | [] => false

-- An exponent of a number: its sign is required.
def isExponent (cs : List Char) : Bool :=
  match cs with
  | [] => true
  | e :: s :: d :: r => (e = 'e' || e = 'E') && (s = '+' || s = '-') && (d :: r).all isDigit
  | _ => false

def isFloat (cs : List Char) : Bool :=
  isPointed (unsigned cs) || isBare cs || isSixty (unsigned cs) ||
    [".inf", ".Inf", ".INF"].contains (String.ofList (unsigned cs)) ||
    [".nan", ".NaN", ".NAN"].contains (String.ofList cs)
where
  isPointed : List Char → Bool
    | c :: r =>
      isDigit c &&
        (match (r.span isGroupedDigit).2 with
         | '.' :: f => isExponent (f.span isGroupedDigit).2
         | _ => false)
    | [] => false
  isBare : List Char → Bool
    | '.' :: c :: f => isDigit c && isExponent (f.span isGroupedDigit).2
    | _ => false
  isSixty : List Char → Bool
    | c :: r =>
      isDigit c &&
        (let (whole, rest) := (r.span isGroupedDigit).2.span (· ≠ '.')
         match rest with
         | '.' :: f => isSixties (whole.length + 1) whole && f.all isGroupedDigit
         | _ => false)
    | [] => false

def isBool (s : String) : Bool :=
  ["yes", "Yes", "YES", "no", "No", "NO", "true", "True", "TRUE", "false", "False", "FALSE",
    "on", "On", "ON", "off", "Off", "OFF"].contains s

def isNull (s : String) : Bool := ["", "~", "null", "Null", "NULL"].contains s

-- Digits at the front, between `least` and `most` of them.
def takeDigits? (least most : Nat) (cs : List Char) : Option (List Char × List Char) :=
  let ds := (cs.take most).takeWhile isDigit
  if least ≤ ds.length then some (ds, cs.drop ds.length) else none

def expect? (c : Char) : List Char → Option (List Char)
  | x :: r => if x = c then some r else none
  | [] => none

-- The parts of a date or a time as written, the parts of the time and of the zone being optional.
structure TimeText where
  year : List Char
  month : List Char
  day : List Char
  clock : Option (List Char × List Char × List Char)
  fraction : List Char
  -- None where no zone is written; its sign is none for universal time.
  zone : Option (Option Char × List Char × List Char)

def zone? (cs : List Char) : Option (Option (Option Char × List Char × List Char)) :=
  match cs with
  | [] => some none
  | _ =>
    match cs.dropWhile fun c => c = ' ' ∨ c = '\t' with
    | ['Z'] => some (some (none, [], []))
    | s :: r =>
      if s = '+' ∨ s = '-' then do
        let (hour, r) ← takeDigits? 1 2 r
        match r with
        | [] => some (some (some s, hour, []))
        | ':' :: r =>
          let (minute, r) ← takeDigits? 2 2 r
          if r.isEmpty then some (some (some s, hour, minute)) else none
        | _ => none
      else none
    | [] => none

-- The parts of a text that is a date or a time, given as one line.
def timeText? (cs : List Char) : Option TimeText := do
  let (year, r) ← takeDigits? 4 4 cs
  let r ← expect? '-' r
  let (month, r) ← takeDigits? 1 2 r
  let r ← expect? '-' r
  let (day, r) ← takeDigits? 1 2 r
  match r with
  | [] => return ⟨year, month, day, none, [], none⟩
  | c :: rest =>
    let r ←
      if c = 'T' ∨ c = 't' then some rest
      else if c = ' ' ∨ c = '\t' then some (rest.dropWhile fun c => c = ' ' ∨ c = '\t')
      else none
    let (hour, r) ← takeDigits? 1 2 r
    let r ← expect? ':' r
    let (minute, r) ← takeDigits? 2 2 r
    let r ← expect? ':' r
    let (second, r) ← takeDigits? 2 2 r
    let (fraction, r) := match r with
      | '.' :: r => r.span isDigit
      | r => ([], r)
    let zone ← zone? r
    return ⟨year, month, day, some (hour, minute, second), fraction, zone⟩

-- A date alone counts as one only when month and day have two digits.
def isTimestamp (cs : List Char) : Bool :=
  match timeText? cs with
  | some t => t.clock.isSome || (t.month.length = 2 && t.day.length = 2)
  | none => false

-- Marks that no plain scalar begins with. Alone they are reserved.
def isReserved (s : String) : Bool := ["!", "&", "*"].contains s

-- The tag of one line of text.
def ofLine (cs : List Char) : String :=
  let s := String.ofList cs
  if isBool s then standard "bool"
  else if isFloat cs then standard "float"
  else if isInt cs then standard "int"
  else if s = "<<" then merge
  else if isNull s then null
  else if isTimestamp cs then standard "timestamp"
  else if s = "=" then value
  else if isReserved s then standard "yaml"
  else string

-- A text without one line break at its end.
def withoutBreak (cs : List Char) : List Char :=
  if cs.getLast? = some '\n' then cs.dropLast else cs

-- The tag of a scalar that is classified by its text. A line break at the end does not count, but
-- on its own it is a text.
def ofText : Written → String
  | .loose _ => string
  | .whole s => if s = "\n" then string else ofLine (withoutBreak s.toList)

end Tag

end HubContract.Yaml
