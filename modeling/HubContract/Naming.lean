import HubContract.Text.Blank
import HubContract.Text.Identifier
import HubContract.Text.Numeral

namespace HubContract.Naming

open HubContract.Text

def isUpper (c : Char) : Bool := 'A' ≤ c ∧ c ≤ 'Z'

def isLower (c : Char) : Bool := 'a' ≤ c ∧ c ≤ 'z'

-- Characters that are kept: ASCII letters, digits and the underscore.
def isPlain (c : Char) : Bool := isAsciiLetter c || isDigit c || c = '_'

def clean (c : Char) : Char := if isPlain c then c else '_'

-- Whether a new word begins at `c`: after a small letter or digit, or with the last of several
-- capitals when a small letter follows.
def startsWord (before : Option Char) (c : Char) (after : Option Char) : Bool :=
  match before with
  | none => false
  | some b =>
    isUpper c && (isLower b || isDigit b || (isUpper b && after.any isLower))

-- Put an underscore in front of every word but the first.
def separate : Option Char → List Char → List Char
  | _, [] => []
  | before, c :: r =>
    if startsWord before c r.head? then '_' :: c :: separate (some c) r
    else c :: separate (some c) r

def snakeChars (cs : List Char) : List Char :=
  let trimmed := trimWhere (· = '_') ((separate none (cs.map clean)).map Char.toLower)
  if trimmed.isEmpty then ['_'] else trimmed

-- UserJoined becomes user_joined, GetHTTPStatus becomes get_http_status.
def snakeCase (name : String) : String := String.ofList (snakeChars name.toList)

-- Names that a wrapper uses itself.
def reserved : List String := ["self", "cancellation"]

-- A declared name as the name of a parameter: user-name becomes user_name, from becomes from_ and
-- 1st becomes _1st.
def safeIdentifier (name : String) : String :=
  let cs := name.toList.map clean
  let s := if cs.isEmpty then "_" else String.ofList cs
  if isKeyword s || reserved.contains s then s ++ "_"
  else if cs.head?.any isDigit then "_" ++ s
  else s

def suffixed (name : String) (k : Nat) : String := name ++ "_" ++ natural k

-- The least suffix from `k` on whose name is not taken. Among as many candidates as there are names
-- taken and one more, a free one is found.
def freeSuffix (taken : List String) (name : String) : Nat → Nat → Nat
  | 0, k => k
  | fuel + 1, k => if taken.contains (suffixed name k) then freeSuffix taken name fuel (k + 1) else k

-- The names given out so far, and for each name asked for the last suffix that was tried.
structure Namer where
  taken : List String := []
  counts : List (String × Nat) := []

namespace Namer

def count (n : Namer) (name : String) : Nat := (n.counts.lookup name).getD 1

-- Give out a name. What is free is taken as it is; else the suffixes tried before are passed over.
def give (n : Namer) (name : String) : String × Namer :=
  if n.taken.contains name then
    let k := freeSuffix n.taken name (n.taken.length + 1) (n.count name + 1)
    (suffixed name k, ⟨suffixed name k :: n.taken, (name, k) :: n.counts⟩)
  else (name, ⟨name :: n.taken, (name, n.count name) :: n.counts⟩)

def giveAll (n : Namer) : List String → List String
  | [] => []
  | name :: names =>
    let (given, n) := n.give name
    given :: n.giveAll names

end Namer

-- Suffix repeats until every name is distinct: a, a_2, a become a, a_2, a_3.
def uniqueNames (names : List String) : List String := ({} : Namer).giveAll names

-- Distinct bases for methods: Send, Send, Ping become send, send_2, ping.
def uniqueBases (names : List String) : List String := uniqueNames (names.map snakeCase)

def moduleName (binding : String) : String := snakeCase binding

def slotName (base : String) : String := "on_" ++ base

def thunkName (base : String) : String := "_" ++ base ++ "_handler"

def invokeName (base : String) : String := "invoke_" ++ base

def builderMethodName (binding : String) : String := "with_" ++ snakeCase binding

-- What follows a lead-in, provided that something does.
def dropLead (name lead : String) : String :=
  if lead.toList.isPrefixOf name.toList && lead.length < name.length then
    String.ofList (name.toList.drop lead.length)
  else name

end HubContract.Naming
