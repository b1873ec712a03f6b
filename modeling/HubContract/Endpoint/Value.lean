import HubContract.Binding.Fake
import HubContract.Data.Literal
import HubContract.Table

namespace HubContract

inductive Value where
  | data (json : Json)
  -- values that belong together, such as the arguments of a call
  | tuple (items : List Value)
  | list (items : List Value)
  -- a token by its number
  | token (number : Nat)
  | empty (value : EmptyValue)
  -- anything that is only handed on
  | other
  deriving Repr, Inhabited

namespace Value

def null : Value := .data .null

def ofText (s : String) : Value := .data (.str s)

def ofBool (b : Bool) : Value := .data (.bool b)

def isNull : Value → Bool
  | .data .null | .empty .nothing => true
  | _ => false

-- Whether a value counts as present: not null, false, zero or empty.
def isTruthy : Value → Bool
  | .data j => (Data.ofJson j).isTruthy
  | .tuple vs | .list vs => !vs.isEmpty
  | .token _ | .other => true
  | .empty _ => false

-- What a group holds. A text is a group of its characters, and an object one of its names.
def items? : Value → Option (List Value)
  | .tuple vs | .list vs => some vs
  | .data (.array js) => some (js.map .data)
  | .data (.str s) => some (s.toList.map fun c => .ofText (String.singleton c))
  | .data (.object ms) => some ((Table.setAll [] ms).map fun (name, _) => .ofText name)
  | .empty e => if [.text, .bytes, .list, .mapping, .tuple].contains e then some [] else none
  | _ => none

-- The elements of a list that can be added to.
def list? : Value → Option (List Value)
  | .list vs => some vs
  | .data (.array js) => some (js.map .data)
  | _ => none

def text? : Value → Option String
  | .data (.str s) => some s
  | _ => none

-- How a value reads in a message.
def text : Value → String
  | .data j => (Data.ofJson j).text
  | _ => ""

-- Whether something can be looked up under a value.
def isKey : Value → Bool
  | .data (.array _) | .data (.object _) | .list _ => false
  | _ => true

-- Equality of data, numbers being compared by their value.
def same : Value → Value → Bool
  | .data a, .data b => a = b || Data.sameKey (.ofJson a) (.ofJson b)
  | _, _ => false

-- How arguments are recorded: one as itself, several together.
def ofArguments : List Value → Value
  | [v] => v
  | vs => .tuple vs

-- How a group of arguments is recorded. An object has its only value under a name.
def recorded (arguments : Value) : Except Fault Value :=
  match arguments.items? with
  | none => .error .kind
  | some vs =>
    match arguments with
    | .data (.object _) => if vs.length = 1 then .error .key else .ok (.tuple vs)
    | _ => .ok (.ofArguments vs)

end HubContract.Value
