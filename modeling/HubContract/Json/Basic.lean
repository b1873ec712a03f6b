import HubContract.Number.Layout

namespace HubContract

open HubContract.Number

-- Whole numbers and floating point numbers are told apart, and the members of an object keep their
-- order.
inductive Json where
  | null
  | bool (value : Bool)
  | int (value : Int)
  | float (value : Binary64)
  | str (value : String)
  | array (items : List Json)
  | object (members : List (String × Json))
  deriving Repr, Inhabited

namespace Json

mutual

-- Equality of terms, which tells the two zeros apart.
def decEq : (a b : Json) → Decidable (a = b)
  | .null, .null => isTrue rfl
  | .bool x, .bool y => decidable_of_iff (x = y) (by simp)
  | .int x, .int y => decidable_of_iff (x = y) (by simp)
  | .float x, .float y => decidable_of_iff (x = y) (by simp)
  | .str x, .str y => decidable_of_iff (x = y) (by simp)
  | .array x, .array y =>
    match decEqItems x y with
    | isTrue h => isTrue (by rw [h])
    | isFalse h => isFalse (by simpa using h)
  | .object x, .object y =>
    match decEqMembers x y with
    | isTrue h => isTrue (by rw [h])
    | isFalse h => isFalse (by simpa using h)
  | .null, .bool _ | .null, .int _ | .null, .float _ | .null, .str _ | .null, .array _
  | .null, .object _ | .bool _, .null | .bool _, .int _ | .bool _, .float _ | .bool _, .str _
  | .bool _, .array _ | .bool _, .object _ | .int _, .null | .int _, .bool _ | .int _, .float _
  | .int _, .str _ | .int _, .array _ | .int _, .object _ | .float _, .null | .float _, .bool _
  | .float _, .int _ | .float _, .str _ | .float _, .array _ | .float _, .object _ | .str _, .null
  | .str _, .bool _ | .str _, .int _ | .str _, .float _ | .str _, .array _ | .str _, .object _
  | .array _, .null | .array _, .bool _ | .array _, .int _ | .array _, .float _ | .array _, .str _
  | .array _, .object _ | .object _, .null | .object _, .bool _ | .object _, .int _
  | .object _, .float _ | .object _, .str _ | .object _, .array _ => isFalse (by simp)

def decEqItems : (xs ys : List Json) → Decidable (xs = ys)
  | [], [] => isTrue rfl
  | [], _ :: _ => isFalse (by simp)
  | _ :: _, [] => isFalse (by simp)
  | x :: xs, y :: ys =>
    match decEq x y, decEqItems xs ys with
    | isTrue h, isTrue t => isTrue (by rw [h, t])
    | isFalse h, _ => isFalse (by simp [h])
    | _, isFalse t => isFalse (by simp [t])

def decEqMembers : (xs ys : List (String × Json)) → Decidable (xs = ys)
  | [], [] => isTrue rfl
  | [], _ :: _ => isFalse (by simp)
  | _ :: _, [] => isFalse (by simp)
  | (k, x) :: xs, (l, y) :: ys =>
    match decEq x y, decEqMembers xs ys with
    | isTrue h, isTrue t =>
      if e : k = l then isTrue (by rw [e, h, t]) else isFalse (by simp [e])
    | isFalse h, _ => isFalse (by simp [h])
    | _, isFalse t => isFalse (by simp [t])

end

instance : DecidableEq Json := decEq

-- The value of a member. Of several with one name the last counts.
def get? (key : String) : Json → Option Json
  | .object members => (members.reverse.find? (·.1 = key)).map (·.2)
  | _ => none

def ofOption (f : α → Json) : Option α → Json
  | none => .null
  | some a => f a

def ofList (f : α → Json) (xs : List α) : Json := .array (xs.map f)

-- A number. JSON has no word for infinite values and for what is no number.
def ofFloat : Binary64 → Json
  | x@(.finite ..) => .float x
  | _ => .null

def strings (xs : List String) : Json := ofList .str xs

-- The value of a member; an absent one counts as null.
def member (j : Json) (key : String) : Json := (j.get? key).getD .null

def has (j : Json) (key : String) : Bool := (j.get? key).isSome

def str? : Json → Option String
  | .str s => some s
  | _ => none

def items? : Json → Option (List Json)
  | .array xs => some xs
  | _ => none

-- The text of a value; what is no text counts as the empty one.
def text (j : Json) : String := j.str?.getD ""

-- The items of a value; what is no array has none.
def items (j : Json) : List Json := j.items?.getD []

def texts (j : Json) : List String := j.items.map text

-- The members of a value; what is no object has none.
def members : Json → List (String × Json)
  | .object ms => ms
  | _ => []

def item (j : Json) (n : Nat) : Json := (j.items[n]?).getD .null

-- A whole number; what is none counts as zero.
def toInt : Json → Int
  | .int n => n
  | _ => 0

def textAt (j : Json) (key : String) : String := (j.member key).text

def text? (j : Json) (key : String) : Option String := (j.member key).str?

def itemsAt (j : Json) (key : String) : List Json := (j.member key).items

def textsAt (j : Json) (key : String) : List String := (j.member key).texts

def membersAt (j : Json) (key : String) : List (String × Json) := (j.member key).members

end HubContract.Json
