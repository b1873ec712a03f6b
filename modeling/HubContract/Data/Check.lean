import HubContract.Data.Basic
import HubContract.Number.Reading
import HubContract.Text.Blank

namespace HubContract

open HubContract.Number HubContract.Text

inductive Defect where
  | missing
  | notString
  | notModel
  | notList
  | notMember
  | notBool
  | unreadableBool
  | notInt
  | unreadableInt
  | fractionalInt
  | oversizedInt
  | notFinite
  | notFloat
  | unreadableFloat
  | belowMinimum
  | refused
  | malformedJson
  | malformedText
  | tooDeep
  deriving DecidableEq, Repr, Inhabited

-- The name under which a defect is reported.
def Defect.name : Defect → String
  | .missing => "missing"
  | .notString => "string_type"
  | .notModel => "model_type"
  | .notList => "tuple_type"
  | .notMember => "enum"
  | .notBool => "bool_type"
  | .unreadableBool => "bool_parsing"
  | .notInt => "int_type"
  | .unreadableInt => "int_parsing"
  | .fractionalInt => "int_from_float"
  | .oversizedInt => "int_parsing_size"
  | .notFinite => "finite_number"
  | .notFloat => "float_type"
  | .unreadableFloat => "float_parsing"
  | .belowMinimum => "greater_than_equal"
  | .refused => "value_error"
  | .malformedJson => "json_invalid"
  | .malformedText => "string_unicode"
  | .tooDeep => "recursion_depth_exceeded"

inductive Step where
  | field (name : String)
  | index (position : Nat)
  deriving DecidableEq, Repr

def Step.text : Step → String
  | .field name => name
  | .index n => natural n

structure Issue where
  path : List Step
  defect : Defect
  deriving DecidableEq, Repr

-- The path as text, the root being empty.
def Issue.place (i : Issue) : String := ".".intercalate (i.path.map Step.text)

-- A check goes through every field and collects all that is wrong.
inductive Check (α : Type) where
  | ok (value : α)
  | bad (issues : List Issue)
  deriving Repr

namespace Check

def fail (d : Defect) : Check α := .bad [⟨[], d⟩]

def map (f : α → β) : Check α → Check β
  | .ok a => .ok (f a)
  | .bad is => .bad is

-- Both parts are gone through, and what is wrong in either is kept in order.
def both (f : Check (α → β)) (x : Check α) : Check β :=
  match f, x with
  | .ok f, .ok a => .ok (f a)
  | .ok _, .bad is => .bad is
  | .bad is, .ok _ => .bad is
  | .bad is, .bad js => .bad (is ++ js)

instance : Applicative Check where
  pure := .ok
  map := map
  seq f x := both f (x ())

-- A further check on a value that was read.
def bind (x : Check α) (f : α → Check β) : Check β :=
  match x with
  | .ok a => f a
  | .bad is => .bad is

-- Put a step in front of every path.
def under (s : Step) : Check α → Check α
  | .ok a => .ok a
  | .bad is => .bad (is.map fun i => ⟨s :: i.path, i.defect⟩)

def toOption : Check α → Option α
  | .ok a => some a
  | .bad _ => none

-- Every value of a list, each under its position.
def each (f : α → Check β) : Nat → List α → Check (List β)
  | _, [] => .ok []
  | n, x :: xs => both (map List.cons ((f x).under (.index n))) (each f (n + 1) xs)

end Check

namespace Data

-- The text that a value is taken for: bytes stand for what they encode. Nothing for a value of
-- another kind, and the inner nothing for bytes that encode no text.
def written? : Data → Option (Option String)
  | .str s => some (some s)
  | .bytes b => some (String.fromUTF8? ⟨b.toArray⟩)
  | _ => none

-- Read a value that is a text, or else take the one way or the other. A text with halves of
-- surrogate pairs cannot be read.
def checkWritten (f : String → Check α) (unreadable other : Defect) (d : Data) : Check α :=
  match d with
  | .loose _ => .fail .malformedText
  | _ =>
    match d.written? with
    | some (some s) => f s
    | some none => .fail unreadable
    | none => .fail other

-- A text. Halves of surrogate pairs, which no string has, are taken as the escapes that denote them; a
-- document that keeps such a text is refused as a whole (`Document.ofRead`).
def checkString : Data → Check String
  | .loose codes => .ok (Text.Written.loose codes).text
  | d => d.checkWritten .ok .malformedText .notString

def checkOptional (f : Data → Check α) : Data → Check (Option α)
  | .null => .ok none
  | d => (f d).map some

def checkList (f : Data → Check α) (d : Data) : Check (List α) :=
  match d.opened with
  | .list xs | .tuple xs | .set xs => Check.each f 0 xs
  | _ => .fail .notList

-- One of a fixed set of words.
def checkWord (table : List (String × α)) : Data → Check α :=
  let find (s : String) : Check α :=
    match table.lookup s with
    | some a => .ok a
    | none => .fail .notMember
  checkWritten find .notMember .notMember

-- The spellings of truth values, in any case.
def boolOfText? (s : String) : Option Bool :=
  let s := String.ofList (s.toList.map Char.toLower)
  if ["0", "f", "n", "no", "off", "false"].contains s then some false
  else if ["1", "t", "y", "on", "yes", "true"].contains s then some true
  else none

def boolOfInt (n : Int) : Check Bool :=
  if n = 0 then .ok false else if n = 1 then .ok true else .fail .unreadableBool

-- Whole numbers that fit into 64 bits with a sign.
def isWord (n : Int) : Bool := -9223372036854775808 ≤ n ∧ n < 9223372036854775808

-- The same without the lowest of them, which is where a number with a fraction part stops.
def isInnerWord (n : Int) : Bool := isWord n ∧ n ≠ -9223372036854775808

def checkBool : Data → Check Bool
  | .bool b => .ok b
  | .int n => if isWord n then boolOfInt n else .fail .notBool
  | .float x =>
    match x.toInt? with
    | some n => if isInnerWord n then boolOfInt n else .fail .notBool
    | none => .fail .notBool
  | d =>
    let read (s : String) : Check Bool :=
      match boolOfText? s with
      | some b => .ok b
      | none => .fail .unreadableBool
    d.checkWritten read .unreadableBool .notBool

inductive IntText where
  | value (n : Int)
  | tooLong
  | none
  deriving DecidableEq, Repr

-- A plain whole number: a minus sign or none, and digits without a zero in front.
def plainInt (cs : List Char) : IntText :=
  let (negative, ds) := match cs with
    | '-' :: r => (true, r)
    | r => (false, r)
  let (front, rest) := spanDigits ds
  match front with
  | [] => .none
  | '0' :: _ :: _ => .none
  | _ =>
    if front.length + (if negative then 1 else 0) > maxDigits then .tooLong
    else if rest.isEmpty then
      .value (if negative then -(ofDigits front : Int) else ofDigits front)
    else .none

-- Skip the zeros and underscores in front of a number. A minus sign stops this, and so does a
-- point, which keeps the character before it.
def dropLeadingZeros : List Char → Option (List Char)
  | '0' :: rest => skip '0' rest
  | c :: r => if isDigit c then some (c :: r) else none
  | [] => none
where
  skip (before : Char) : List Char → Option (List Char)
    | [] => some [before]
    | c :: r =>
      if c = '0' ∨ c = '_' then skip c r
      else if c = '.' then some (before :: c :: r)
      else if c = '-' ∨ isDigit c then some (c :: r)
      else none

-- Cut a fraction that is made of one zero or more.
def dropZeroFraction (cs : List Char) : List Char :=
  let (whole, rest) := cs.span (· ≠ '.')
  match rest with
  | '.' :: zeros => if !zeros.isEmpty && zeros.all (· = '0') then whole else cs
  | _ => cs

-- Single underscores between other characters are left out; any others stay and spoil the number.
def dropUnderscores (cs : List Char) : List Char :=
  if cs.head? = some '_' ∨ cs.getLast? = some '_' ∨
      (cs.zip cs.tail).contains ('_', '_') then cs
  else cs.filter (· ≠ '_')

-- What is left of a whole number without the liberties that its text may take: blanks around it,
-- a sign, zeros in front, a fraction of zeros and single underscores.
def cleanInt (cs : List Char) : Option (List Char) :=
  match trimWhere isUnicodeSpace cs with
  | '+' :: '-' :: _ => none
  | '-' :: r => do return '-' :: (← bare r)
  | '+' :: r => bare r
  | r => bare r
where
  bare (r : List Char) : Option (List Char) := do
    return dropUnderscores (dropZeroFraction (← dropLeadingZeros r))

-- A whole number in text, read as it stands if that is possible and cleaned otherwise.
def checkIntText (s : String) : Check Int :=
  match plainInt s.toList with
  | .value n => .ok n
  | .tooLong => .fail .oversizedInt
  | .none =>
    match (cleanInt s.toList).map plainInt with
    | some (.value n) => .ok n
    | _ => .fail .unreadableInt

def checkInt : Data → Check Int
  | .int n => .ok n
  | .bool b => .ok (if b then 1 else 0)
  | .float x =>
    match x with
    | .finite .. =>
      match x.toInt? with
      | some n => if isInnerWord n then .ok n else .fail .oversizedInt
      | none => .fail .fractionalInt
    | _ => .fail .notFinite
  | d => d.checkWritten checkIntText .unreadableInt .notInt

-- Blanks may stand around a number, or single underscores within it, but not both.
def floatOfText? (s : String) : Option Binary64 :=
  let read (cs : List Char) := (Binary64.ofChars? cs).or (Binary64.ofWord? cs)
  (read (trimWhere isUnicodeSpace s.toList)).or (read (dropUnderscores s.toList))

def checkFloat : Data → Check Binary64
  | .float x => .ok x
  | .bool b => .ok (.ofNat (if b then 1 else 0))
  | .int n =>
    match Binary64.ofInt n with
    | x@(.finite ..) => .ok x
    | _ => .fail .notFloat
  | d =>
    let read (s : String) : Check Binary64 :=
      match floatOfText? s with
      | some x => .ok x
      | none => .fail .unreadableFloat
    d.checkWritten read .unreadableFloat .notFloat

-- The same where a whole number beyond all others counts as infinite.
def checkExtendedFloat : Data → Check Binary64
  | .int n => .ok (.ofInt n)
  | d => d.checkFloat

-- A record: something with named fields. What it holds besides them is passed over.
def checkRecord (f : Data → Check α) (d : Data) : Check α :=
  match d.opened with
  | .mapping es => f (.mapping es)
  | _ => .fail .notModel

-- A field that must be there.
def field (name : String) (f : Data → Check α) (d : Data) : Check α :=
  match d.get? name with
  | some v => (f v).under (.field name)
  | none => (Check.fail .missing).under (.field name)

-- A field that has a value of its own if it is absent.
def fieldOr (name : String) (absent : α) (f : Data → Check α) (d : Data) : Check α :=
  match d.get? name with
  | some v => (f v).under (.field name)
  | none => .ok absent

end HubContract.Data
