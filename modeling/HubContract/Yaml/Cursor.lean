import HubContract.Data.Basic
import HubContract.Text.Numeral

namespace HubContract.Yaml

-- Why a text yields no data.
inductive ReadError where
  -- the text is not well-formed, or it uses what is not allowed
  | malformed
  -- a scalar says that it is a number, a date and the like, but cannot be turned into one
  | unusable (fault : Fault)
  deriving DecidableEq, Repr, Inhabited

-- The end of a text reads as the null character, which no text that is let through contains.
def endMark : Char := Char.ofNat 0

-- Line breaks.
def isBreak (c : Char) : Bool :=
  c = '\n' ∨ c = '\r' ∨ c.toNat = 0x85 ∨ c.toNat = 0x2028 ∨ c.toNat = 0x2029

def isBreakOrEnd (c : Char) : Bool := c = endMark || isBreak c

-- What ends a token: a space, a line break or the end of the text.
def isGap (c : Char) : Bool := c = ' ' || isBreakOrEnd c

def isGapOrTab (c : Char) : Bool := c = '\t' || isGap c

-- Letters, digits, hyphen and underscore: what names of anchors, handles and directives are made of.
def isWordChar (c : Char) : Bool :=
  isDigit c || ('a' ≤ c ∧ c ≤ 'z') || ('A' ≤ c ∧ c ≤ 'Z') || c = '-' || c = '_'
where
  isDigit (c : Char) : Bool := '0' ≤ c ∧ c ≤ '9'

-- Characters that may stand in a text at all.
def isAllowed (c : Char) : Bool :=
  let n := c.toNat
  n = 9 ∨ n = 10 ∨ n = 13 ∨ (0x20 ≤ n ∧ n ≤ 0x7e) ∨ n = 0x85 ∨ (0xa0 ≤ n ∧ n ≤ 0xd7ff) ∨
    (0xe000 ≤ n ∧ n ≤ 0xfffd) ∨ 0x10000 ≤ n

structure Cursor where
  rest : List Char
  index : Nat := 0
  line : Nat := 0
  column : Nat := 0
  deriving Repr, Inhabited

namespace Cursor

def peek (c : Cursor) (k : Nat) : Char := c.rest.getD k endMark

def head (c : Cursor) : Char := c.peek 0

-- One character further. A carriage return before a line feed counts with it as one break.
def next (c : Cursor) : Cursor :=
  match c.rest with
  | [] => c
  | x :: r =>
    let atBreak := isBreak x && !(x = '\r' ∧ r.head? = some '\n')
    { rest := r
      index := c.index + 1
      line := if atBreak then c.line + 1 else c.line
      column := if atBreak then 0 else if x.toNat = 0xfeff then c.column else c.column + 1 }

def skip (c : Cursor) : Nat → Cursor
  | 0 => c
  | n + 1 => c.next.skip n

-- The longest run of characters that satisfy `p`, and the place after it.
def span (c : Cursor) (p : Char → Bool) : List Char × Cursor :=
  let run := c.rest.takeWhile p
  (run, c.skip run.length)

def skipWhere (c : Cursor) (p : Char → Bool) : Cursor := (c.span p).2

-- The line break at the cursor, if there is one, and the place after it. Breaks are read as a line
-- feed, the line and paragraph separators as themselves.
def lineBreak? (c : Cursor) : Option (Char × Cursor) :=
  let x := c.head
  if x = '\r' ∧ c.peek 1 = '\n' then some ('\n', c.skip 2)
  else if x = '\n' ∨ x = '\r' ∨ x.toNat = 0x85 then some ('\n', c.next)
  else if x.toNat = 0x2028 ∨ x.toNat = 0x2029 then some (x, c.next)
  else none

def skipBreak (c : Cursor) : Cursor :=
  match c.lineBreak? with
  | some (_, c) => c
  | none => c

-- Whether three times `x` stands here as a document mark.
def isMark (c : Cursor) (x : Char) : Bool :=
  c.head = x && c.peek 1 = x && c.peek 2 = x && isGapOrTab (c.peek 3)

def isDocumentMark (c : Cursor) : Bool := c.isMark '-' || c.isMark '.'

end HubContract.Yaml.Cursor
