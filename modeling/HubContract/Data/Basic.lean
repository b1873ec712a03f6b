import HubContract.Json.Basic
import HubContract.Text.Loose

namespace HubContract

open HubContract.Number

structure Date where
  year : Nat
  month : Nat
  day : Nat
  deriving DecidableEq, Repr, Inhabited

-- A time of day on a date, with its distance to universal time in seconds if that is known.
structure Timestamp where
  date : Date
  hour : Nat
  minute : Nat
  second : Nat
  microsecond : Nat
  offset : Option Int
  deriving DecidableEq, Repr, Inhabited

-- The kinds of collections that can hold themselves.
inductive Collection where
  | list
  | tuple
  | mapping
  deriving DecidableEq, Repr, Inhabited

-- What reading a document yields before anything is known about its meaning.
inductive Data where
  | null
  | bool (value : Bool)
  | int (value : Int)
  | float (value : Binary64)
  | str (value : String)
  -- a text with halves of surrogate pairs in it
  | loose (codes : List Nat)
  | bytes (value : List UInt8)
  | date (value : Date)
  | timestamp (value : Timestamp)
  | list (items : List Data)
  | tuple (items : List Data)
  | set (items : List Data)
  | mapping (entries : List (Data × Data))
  -- a collection that holds itself, under a name for it
  | knot (name : Nat) (body : Data)
  -- the place inside of a knot where the collection stands again
  | again (name : Nat) (kind : Collection)
  deriving Repr, Inhabited

-- What goes wrong where data of the wrong kind is used as if it were of the right one.
inductive Fault where
  -- a value of a kind that the operation does not take
  | kind
  -- a value of the right kind that the operation cannot use
  | value
  -- a look-up that finds nothing
  | key
  -- a name that a value does not have
  | attribute
  -- a position outside a text or list
  | index
  -- a number that is out of range
  | overflow
  -- a descent that has no end
  | recursion
  -- a value that cannot be written out
  | unwritable
  -- more than there is room for
  | memory
  deriving DecidableEq, Repr, Inhabited

namespace Data

def ofWritten : Text.Written → Data
  | .whole s => .str s
  | .loose codes => .loose codes

mutual

-- Put `whole` where the collection of that name stands again.
def unroll (name : Nat) (whole : Data) : Data → Data
  | .again n kind => if n = name then whole else .again n kind
  | .knot n body => if n = name then .knot n body else .knot n (unroll name whole body)
  | .list xs => .list (unrollAll name whole xs)
  | .tuple xs => .tuple (unrollAll name whole xs)
  | .mapping es => .mapping (unrollEntries name whole es)
  | d => d

def unrollAll (name : Nat) (whole : Data) : List Data → List Data
  | [] => []
  | x :: xs => unroll name whole x :: unrollAll name whole xs

def unrollEntries (name : Nat) (whole : Data) : List (Data × Data) → List (Data × Data)
  | [] => []
  | (k, v) :: es => (unroll name whole k, unroll name whole v) :: unrollEntries name whole es

end

-- The value with its outermost knot undone, which is how its kind and contents are seen.
def opened : Data → Data
  | .knot name body => unroll name (.knot name body) body
  | d => d

-- Whether two keys count as the same. Numbers and truth values are compared by their value.
def sameKey : Data → Data → Bool
  | .null, .null => true
  | .str a, .str b => a = b
  | .loose a, .loose b => a = b
  | .bytes a, .bytes b => a = b
  | .date a, .date b => a = b
  | .timestamp a, .timestamp b => a = b
  | a, b =>
    match number? a, number? b with
    | some (.inl x), some (.inl y) => x = y
    | some (.inl x), some (.inr y) => y.toInt? = some x
    | some (.inr x), some (.inl y) => x.toInt? = some y
    | some (.inr x), some (.inr y) => x.numEq y
    | _, _ => false
where
  number? : Data → Option (Int ⊕ Binary64)
    | .bool b => some (.inl (if b then 1 else 0))
    | .int n => some (.inl n)
    | .float x => some (.inr x)
    | _ => none

-- Add an entry. A key that is there already keeps its place and takes the new value.
def insertEntry (entries : List (Data × Data)) (key value : Data) : List (Data × Data) :=
  match entries with
  | [] => [(key, value)]
  | (k, v) :: rest =>
    if sameKey k key then (k, value) :: rest else (k, v) :: insertEntry rest key value

def ofEntries (entries : List (Data × Data)) : Data :=
  .mapping (entries.foldl (fun acc (k, v) => insertEntry acc k v) [])

-- Add a member to a set unless it is there already.
def insertMember (members : List Data) (x : Data) : List Data :=
  if members.any (sameKey · x) then members else members ++ [x]

-- The value under a string key.
def lookup (key : String) (entries : List (Data × Data)) : Option Data :=
  (entries.find? fun (k, _) => sameKey k (.str key)).map (·.2)

def get? (key : String) (d : Data) : Option Data :=
  match d.opened with
  | .mapping entries => lookup key entries
  | _ => none

-- Whether a value can be a key or the member of a set.
def isHashable : Data → Bool
  | .list _ | .set _ | .mapping _ => false
  | .again _ kind => kind = .tuple
  | .knot _ body => isHashable body
  | .tuple items => items.attach.all fun ⟨x, _⟩ => isHashable x
  | _ => true

-- Whether a value counts as present: not null, false, zero or empty.
def isTruthy : Data → Bool
  | .null => false
  | .bool b => b
  | .int n => n ≠ 0
  | .float x => !x.numEq default
  | .str s => s ≠ ""
  | .loose codes => !codes.isEmpty
  | .bytes b => !b.isEmpty
  | .list xs | .tuple xs | .set xs => !xs.isEmpty
  | .mapping es => !es.isEmpty
  | .date _ | .timestamp _ | .again .. => true
  | .knot _ body => isTruthy body

-- A value that is used as a whole number, such as a position or a count.
def whole : Data → Except Fault Int
  | .int n => .ok n
  | .bool b => .ok (if b then 1 else 0)
  | _ => .error .kind

-- What a loop over a value runs through: the characters of a text, the keys of a mapping.
def iterate? (d : Data) : Option (List Data) :=
  match d.opened with
  | .str s => some (s.toList.map fun c => .str (String.singleton c))
  | .loose codes => some (codes.map fun n => ofWritten (.ofCodes [n]))
  | .bytes b => some (b.map fun x => .int x.toNat)
  | .list xs | .tuple xs | .set xs => some xs
  | .mapping es => some (es.map (·.1))
  | _ => none

mutual

def ofJson : Json → Data
  | .null => .null
  | .bool b => .bool b
  | .int n => .int n
  | .float x => .float x
  | .str s => .str s
  | .array xs => .list (ofJsonItems xs)
  | .object ms => ofEntries (ofJsonMembers ms)

def ofJsonItems : List Json → List Data
  | [] => []
  | x :: xs => ofJson x :: ofJsonItems xs

def ofJsonMembers : List (String × Json) → List (Data × Data)
  | [] => []
  | (k, v) :: ms => (.str k, ofJson v) :: ofJsonMembers ms

end

end HubContract.Data
