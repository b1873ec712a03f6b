import HubContract.Json.Basic

namespace HubContract.Json

open HubContract.Number HubContract.Text

-- One character inside a JSON string.
def escapeChar (c : Char) : List Char :=
  if c = '"' then ['\\', '"']
  else if c = '\\' then ['\\', '\\']
  else if c = '\n' then ['\\', 'n']
  else if c = '\r' then ['\\', 'r']
  else if c = '\t' then ['\\', 't']
  else if c.toNat = 8 then ['\\', 'b']
  else if c.toNat = 12 then ['\\', 'f']
  else if c.toNat < 0x20 then '\\' :: 'u' :: hex 4 c.toNat
  else [c]

def stringChars (s : String) : List Char :=
  '"' :: s.toList.flatMap escapeChar ++ ['"']

-- Infinite values and what is no number are written as null, for JSON has no word for them.
def floatChars : Binary64 → List Char
  | x@(.finite ..) => (Layout.json.render x).toList
  | _ => "null".toList

-- The line break before an item at the given depth; nothing when everything is on one line.
def lineBreak (indent : Option Nat) (depth : Nat) : List Char :=
  match indent with
  | none => []
  | some width => '\n' :: List.replicate (width * depth) ' '

def colon (indent : Option Nat) : List Char := if indent.isSome then [':', ' '] else [':']

mutual

def chars (indent : Option Nat) (depth : Nat) : Json → List Char
  | .null => "null".toList
  | .bool true => "true".toList
  | .bool false => "false".toList
  | .int n => (integer n).toList
  | .float x => floatChars x
  | .str s => stringChars s
  | .array [] => ['[', ']']
  | .array (x :: xs) =>
    '[' :: lineBreak indent (depth + 1) ++ chars indent (depth + 1) x ++
      itemChars indent (depth + 1) xs ++ lineBreak indent depth ++ [']']
  | .object [] => ['{', '}']
  | .object ((k, v) :: ms) =>
    '{' :: lineBreak indent (depth + 1) ++ stringChars k ++ colon indent ++
      chars indent (depth + 1) v ++ memberChars indent (depth + 1) ms ++
      lineBreak indent depth ++ ['}']

-- The items after the first, each with the comma before it.
def itemChars (indent : Option Nat) (depth : Nat) : List Json → List Char
  | [] => []
  | x :: xs => ',' :: lineBreak indent depth ++ chars indent depth x ++ itemChars indent depth xs

def memberChars (indent : Option Nat) (depth : Nat) : List (String × Json) → List Char
  | [] => []
  | (k, v) :: ms =>
    ',' :: lineBreak indent depth ++ stringChars k ++ colon indent ++ chars indent depth v ++
      memberChars indent depth ms

end

-- The text of a value, on one line or with the given indent.
def render (j : Json) (indent : Option Nat) : String := String.ofList (j.chars indent 0)

end HubContract.Json
