import HubContract.Text.Blank

namespace HubContract

open HubContract.Text

inductive ReturnKind where
  | unitAsync
  | valueAsync
  | void
  | value
  deriving DecidableEq, Repr, Inhabited

namespace ReturnKind

def name : ReturnKind → String
  | .unitAsync => "unit_async"
  | .valueAsync => "value_async"
  | .void => "void"
  | .value => "value"

def all : List ReturnKind := [.unitAsync, .valueAsync, .void, .value]

def isAsync : ReturnKind → Bool
  | .unitAsync | .valueAsync => true
  | .void | .value => false

def hasPayload : ReturnKind → Bool
  | .value | .valueAsync => true
  | .unitAsync | .void => false

end ReturnKind

structure ReturnType where
  kind : ReturnKind
  typeName : Option String := none
  deriving DecidableEq, Repr, Inhabited

namespace ReturnType

def unitAsync : ReturnType := ⟨.unitAsync, none⟩

def valueAsync (typeName : String) : ReturnType := ⟨.valueAsync, some typeName⟩

def isAsync (r : ReturnType) : Bool := r.kind.isAsync

def hasPayload (r : ReturnType) : Bool := r.kind.hasPayload

-- Texts that stand for no result.
def isNone (cs : List Char) : Bool := cs.isEmpty || cs = "None".toList

-- What a wrapper holds, the bare wrapper holding nothing.
def wrapped? (wrapper cs : List Char) : Option (List Char) :=
  if cs = wrapper then some []
  else if (wrapper ++ ['[']).isPrefixOf cs && cs.getLast? = some ']' then
    some (trimChars (cs.drop (wrapper.length + 1)).dropLast)
  else none

def wrappers : List (List Char) := ["Awaitable".toList, "Task".toList]

def ofChars (text : List Char) : ReturnType :=
  let cs := trimChars text
  if isNone cs then ⟨.void, none⟩
  else
    match wrappers.findSome? (wrapped? · cs) with
    | some inner => if isNone inner then unitAsync else valueAsync (String.ofList inner)
    | none => ⟨.value, some (String.ofList cs)⟩

-- The return type that a declaration writes.
def parse (text : String) : ReturnType := ofChars text.toList

-- The type as a declaration writes it.
def text (r : ReturnType) : String :=
  match r.kind with
  | .unitAsync => "Awaitable[None]"
  | .valueAsync => "Awaitable[" ++ r.typeName.getD "None" ++ "]"
  | .void => "None"
  | .value =>
    match r.typeName with
    | none => "None"
    | some t => if t = "" then "None" else t

end HubContract.ReturnType
