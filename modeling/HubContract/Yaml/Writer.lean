import HubContract.Yaml.Node

namespace HubContract.Yaml

open HubContract.Text

-- What is written: texts, lists, and mappings whose keys are plain words.
inductive Block where
  | text (value : String)
  | list (items : List Block)
  | mapping (entries : List (String × Block))
  deriving Repr, Inhabited

namespace Block

mutual

-- The plain data that is written.
def toData : Block → Data
  | .text s => .str s
  | .list xs => .list (itemsToData xs)
  | .mapping es => .mapping (entriesToData es)

def itemsToData : List Block → List Data
  | [] => []
  | x :: xs => toData x :: itemsToData xs

def entriesToData : List (String × Block) → List (Data × Data)
  | [] => []
  | (k, v) :: es => (.str k, toData v) :: entriesToData es

end

inductive Style where
  | plain
  | single
  | double
  deriving DecidableEq, Repr

-- Line breaks and blanks that matter next to an indicator.
def isGapAt (cs : List Char) : Bool :=
  match cs with
  | [] => true
  | c :: _ => isGapOrTab c

-- Whether an indicator stands where it would change the meaning of a plain text. `afterGap` tells
-- whether a blank stands in front of the rest.
def hasIndicator : Bool → Bool → List Char → Bool
  | _, _, [] => false
  | first, afterGap, c :: r =>
    let here :=
      if first then
        "#,[]\x7b\x7d&*!|>'\"%@".toList.contains c || c.toNat = 0x60 ||
          ((c = '?' || c = ':' || c = '-') && isGapAt r)
      else (c = ':' && isGapAt r) || (c = '#' && afterGap)
    here || hasIndicator false (isGapOrTab c) r

def startsLikeMark (cs : List Char) : Bool :=
  match cs with
  | '-' :: '-' :: '-' :: _ => true
  | '.' :: '.' :: '.' :: _ => true
  | _ => false

-- A character that is written as it is outside double quotes.
def isOrdinary (c : Char) : Bool := c = '\n' || (0x20 ≤ c.toNat && c.toNat ≤ 0x7e)

-- Whether the first character stands right before the second somewhere.
def hasPair (a b : Char) (cs : List Char) : Bool := (cs.zip cs.tail).contains (a, b)

-- The plainest style that keeps the text.
def styleOf (s : String) : Style :=
  let cs := s.toList
  let special := cs.any (!isOrdinary ·) || hasPair ' ' '\n' cs
  let edge (c : Option Char) := c = some ' ' || c = some '\n'
  let plain :=
    !special && !cs.contains '\n' && !edge cs.head? && !edge cs.getLast? &&
      !startsLikeMark cs && !hasIndicator true true cs && Tag.ofText (.whole s) = Tag.string
  if plain then .plain
  else if special || hasPair '\n' ' ' cs then .double
  else .single

def width : Nat := 80

def lineStart (indent : Nat) : List Char := '\n' :: List.replicate indent ' '

-- A run of characters up to the next one that satisfies `p`.
def cut (p : Char → Bool) (cs : List Char) : List Char × List Char := cs.span (!p ·)

-- A plain text from `column` on. A single space beyond the width becomes a line break.
def plainChars (indent : Nat) : Nat → Nat → List Char → List Char
  | 0, _, _ => []
  | fuel + 1, column, cs =>
    match cs with
    | [] => []
    | ' ' :: _ =>
      let (blank, rest) := cs.span (· = ' ')
      if blank.length = 1 ∧ width < column then
        lineStart indent ++ plainChars indent fuel indent rest
      else blank ++ plainChars indent fuel (column + blank.length) rest
    | _ =>
      let (word, rest) := cut (· = ' ') cs
      word ++ plainChars indent fuel (column + word.length) rest

-- The inside of single quotes. Quotes are doubled, line breaks stand on lines of their own.
def singleChars (indent : Nat) : Nat → Nat → Bool → List Char → List Char
  | 0, _, _, _ => []
  | fuel + 1, column, first, cs =>
    match cs with
    | [] => []
    | '\'' :: rest => '\'' :: '\'' :: singleChars indent fuel (column + 2) false rest
    | ' ' :: _ =>
      let (blank, rest) := cs.span (· = ' ')
      if blank.length = 1 ∧ width < column ∧ !first ∧ !rest.isEmpty then
        lineStart indent ++ singleChars indent fuel indent false rest
      else blank ++ singleChars indent fuel (column + blank.length) false rest
    | '\n' :: _ =>
      let (breaks, rest) := cs.span (· = '\n')
      breaks ++ lineStart indent ++ singleChars indent fuel indent false rest
    | _ =>
      let (word, rest) := cut (fun c => c = ' ' || c = '\n' || c = '\'') cs
      word ++ singleChars indent fuel (column + word.length) false rest

def upperHex (width n : Nat) : List Char :=
  (hex width n).map fun c => if 'a' ≤ c ∧ c ≤ 'f' then Char.ofNat (c.toNat - 32) else c

-- A character inside double quotes; none where it stands for itself.
def escape? (c : Char) : Option (List Char) :=
  let n := c.toNat
  let letter : Option Char :=
    if n = 0 then some '0' else if n = 7 then some 'a' else if n = 8 then some 'b'
    else if n = 9 then some 't' else if n = 10 then some 'n' else if n = 11 then some 'v'
    else if n = 12 then some 'f' else if n = 13 then some 'r' else if n = 0x1b then some 'e'
    else if n = 0x22 then some '"' else if n = 0x5c then some '\\' else if n = 0x85 then some 'N'
    else if n = 0xa0 then some '_' else if n = 0x2028 then some 'L'
    else if n = 0x2029 then some 'P' else none
  match letter with
  | some x => some ['\\', x]
  | none =>
    if 0x20 ≤ n ∧ n ≤ 0x7e then none
    else if n ≤ 0xff then some ('\\' :: 'x' :: upperHex 2 n)
    else if n ≤ 0xffff then some ('\\' :: 'u' :: upperHex 4 n)
    else some ('\\' :: 'U' :: upperHex 8 n)

-- The inside of double quotes. `held` are characters that are not written yet, `done` counts the
-- characters before the rest. At a space, after an escape and where nothing is held, the line is
-- broken if it has passed the width; a space that then comes first is marked.
def doubleChars (indent total : Nat) : (done column : Nat) → (held rest : List Char) → List Char
  | _, _, held, [] => held
  | done, column, held, c :: r =>
    let inner := 0 < done ∧ done + 1 < total
    match escape? c with
    | some e =>
      let column := column + held.length + e.length
      if inner ∧ width < column - 1 then
        held ++ e ++ breakBefore r ++
          doubleChars indent total (done + 1) (indent + markWidth r) [] r
      else held ++ e ++ doubleChars indent total (done + 1) column [] r
    | none =>
      if inner ∧ (c = ' ' ∨ held.isEmpty) ∧ width < column + held.length then
        held ++ breakBefore (c :: r) ++
          doubleChars indent total (done + 1) (indent + markWidth (c :: r)) [c] r
      else doubleChars indent total (done + 1) column (held ++ [c]) r
where
  breakBefore (rest : List Char) : List Char :=
    '\\' :: lineStart indent ++ (if rest.head? = some ' ' then ['\\'] else [])
  markWidth (rest : List Char) : Nat := if rest.head? = some ' ' then 1 else 0

-- A text from `column` on, continued at `indent` where it is folded.
def scalarChars (indent column : Nat) (s : String) : List Char :=
  let cs := s.toList
  match styleOf s with
  | .plain => plainChars indent (cs.length + 1) column cs
  | .single => '\'' :: singleChars indent (cs.length + 1) (column + 1) true cs ++ ['\'']
  | .double => '"' :: doubleChars indent cs.length 0 (column + 1) [] cs ++ ['"']

mutual

-- What follows a key and its colon. Lists are not indented further than their key.
def afterKey (indent column : Nat) : Block → List Char
  | .text s => ' ' :: scalarChars (indent + 2) (column + 1) s
  | .list [] => " []".toList
  | .list xs => itemLines indent xs
  | .mapping [] => [' ', '\x7b', '\x7d']
  | .mapping ((k, v) :: es) =>
    lineStart (indent + 2) ++ k.toList ++ ':' :: afterKey (indent + 2) (indent + 3 + k.length) v ++
      entryLines (indent + 2) es

-- What follows the dash of an item at `indent`.
def afterDash (indent : Nat) : Block → List Char
  | .text s => ' ' :: scalarChars (indent + 2) (indent + 2) s
  | .list [] => " []".toList
  | .list (x :: xs) => " -".toList ++ afterDash (indent + 2) x ++ itemLines (indent + 2) xs
  | .mapping [] => [' ', '\x7b', '\x7d']
  | .mapping ((k, v) :: es) =>
    ' ' :: k.toList ++ ':' :: afterKey (indent + 2) (indent + 3 + k.length) v ++
      entryLines (indent + 2) es

def itemLines (indent : Nat) : List Block → List Char
  | [] => []
  | x :: xs => lineStart indent ++ '-' :: afterDash indent x ++ itemLines indent xs

def entryLines (indent : Nat) : List (String × Block) → List Char
  | [] => []
  | (k, v) :: es =>
    lineStart indent ++ k.toList ++ ':' :: afterKey indent (indent + 1 + k.length) v ++
      entryLines indent es

end

-- A mapping as a whole document.
def write (entries : List (String × Block)) : String :=
  String.ofList ((entryLines 0 entries).drop 1 ++ ['\n'])

end HubContract.Yaml.Block
