import HubContract.Yaml.Cursor

namespace HubContract.Yaml

open HubContract.Text

def malformed : Except ReadError α := .error .malformed

-- What the line breaks after a line come to inside a scalar: a single one becomes a space.
def folded (first : Char) (breaks : List Char) : List Char :=
  if first ≠ '\n' then first :: breaks
  else if breaks.isEmpty then [' '] else breaks

namespace Plain

-- Where a plain scalar stops within its line.
def stops (inFlow : Bool) (c : Cursor) : Bool :=
  let x := c.head
  let y := c.peek 1
  isGapOrTab x || (x = ':' && (isGapOrTab y || (inFlow && ",[]\x7b\x7d".toList.contains y))) ||
    (inFlow && ",?[]\x7b\x7d".toList.contains x)

-- The characters up to where the scalar stops.
-- The fuel of the readers bounds the rounds of a loop; the length of the text is always enough.
def run (inFlow : Bool) : Nat → Cursor → List Char × Cursor
  | 0, c => ([], c)
  | fuel + 1, c =>
    if stops inFlow c then ([], c)
    else
      let (cs, rest) := run inFlow fuel c.next
      (c.head :: cs, rest)

-- Further line breaks and indentation. None stands for a document mark, which ends the scalar.
def breaks : Nat → Cursor → Option (List Char) × Cursor
  | 0, c => (some [], c)
  | fuel + 1, c =>
    if c.head = ' ' then breaks fuel c.next
    else
      match c.lineBreak? with
      | none => (some [], c)
      | some (b, c) =>
        if c.isDocumentMark then (none, c)
        else
          let (more, c) := breaks fuel c
          (more.map (b :: ·), c)

-- Blanks inside the scalar: spaces, or a fold over line breaks. The flag tells whether a line
-- was ended.
def spaces (c : Cursor) : List Char × Bool × Cursor :=
  let (blank, c) := c.span (· = ' ')
  match c.lineBreak? with
  | none => (blank, false, c)
  | some (b, c) =>
    if c.isDocumentMark then ([], true, c)
    else
      match breaks (c.rest.length + 1) c with
      | (none, c) => ([], true, c)
      | (some more, c) => (folded b more, true, c)

-- The scalar from here on, whose text so far was followed by `blank`. The flag tells whether the
-- scalar was followed by a line break, so that a key may stand next.
def body (inFlow : Bool) (indent : Int) :
    Nat → List Char → Bool → Cursor → List Char × Bool × Cursor
  | 0, _, ended, c => ([], ended, c)
  | fuel + 1, blank, ended, c =>
    if c.head = '#' then ([], ended, c)
    else
      let (cs, after) := run inFlow (c.rest.length + 1) c
      if cs.isEmpty then ([], ended, c)
      else
        let (gap, ended, c) := spaces after
        let text := blank ++ cs
        if gap.isEmpty || c.head = '#' || (!inFlow && (c.column : Int) < indent) then
          (text, ended, c)
        else
          let (more, ended, c) := body inFlow indent fuel gap ended c
          (text ++ more, ended, c)

def read (inFlow : Bool) (indent : Int) (c : Cursor) : List Char × Bool × Cursor :=
  body inFlow indent (c.rest.length + 1) [] false c

end Plain

namespace Flow

-- Line breaks within quotes, with the blanks that follow them. A document mark may not stand here.
def breaks : Nat → Cursor → Except ReadError (List Char × Cursor)
  | 0, c => .ok ([], c)
  | fuel + 1, c =>
    if c.isDocumentMark then malformed
    else
      let c := c.skipWhere fun x => x = ' ' ∨ x = '\t'
      match c.lineBreak? with
      | none => .ok ([], c)
      | some (b, c) => do
        let (more, c) ← breaks fuel c
        return (b :: more, c)

-- Escapes of one letter within double quotes.
def letterEscape? : Char → Option Nat
  | '0' => some 0
  | 'a' => some 7
  | 'b' => some 8
  | 't' => some 9
  | '\t' => some 9
  | 'n' => some 10
  | 'v' => some 11
  | 'f' => some 12
  | 'r' => some 13
  | 'e' => some 0x1b
  | ' ' => some 0x20
  | '"' => some 0x22
  | '\\' => some 0x5c
  | '/' => some 0x2f
  | 'N' => some 0x85
  | '_' => some 0xa0
  | 'L' => some 0x2028
  | 'P' => some 0x2029
  | _ => none

-- How many hexadecimal digits follow an escape letter.
def hexWidth? : Char → Option Nat
  | 'x' => some 2
  | 'u' => some 4
  | 'U' => some 8
  | _ => none

-- The code point of a numeric escape, of which there must be one of that number.
def hexEscape (width : Nat) (c : Cursor) : Except ReadError (Nat × Cursor) :=
  let ds := c.rest.take width
  if ds.length < width then malformed
  else
    match ofHex? ds with
    | some n =>
      if n < 0x110000 then .ok (n, c.skip width)
      else if n < 0x80000000 then .error (.unusable .value)
      else .error (.unusable .overflow)
    | none => malformed

def codes (cs : List Char) : List Nat := cs.map Char.toNat

-- An escape within double quotes, after the backslash.
def escaped (c : Cursor) : Except ReadError (List Nat × Cursor) :=
  match letterEscape? c.head, hexWidth? c.head, c.lineBreak? with
  | some n, _, _ => .ok ([n], c.next)
  | none, some width, _ => do
    let (n, c) ← hexEscape width c.next
    return ([n], c)
  | none, none, some (_, c) => do
    let (cs, c) ← breaks (c.rest.length + 1) c
    return (codes cs, c)
  | none, none, none => malformed

-- Blanks within quotes.
def spaces (c : Cursor) : Except ReadError (List Nat × Cursor) := do
  let (blank, c) := c.span fun x => x = ' ' ∨ x = '\t'
  if c.head = endMark then malformed
  else
    match c.lineBreak? with
    | none => return (codes blank, c)
    | some (b, c) =>
      let (more, c) ← breaks (c.rest.length + 1) c
      return (codes (folded b more), c)

-- The code points up to the closing quote, and the place after it.
def body (quote : Char) : Nat → Cursor → Except ReadError (List Nat × Cursor)
  | 0, _ => malformed
  | fuel + 1, c => do
    let x := c.head
    if x = quote then
      if quote = '\'' ∧ c.peek 1 = '\'' then
        let (more, c) ← body quote fuel (c.skip 2)
        return (x.toNat :: more, c)
      else return ([], c.next)
    else if x = '\\' ∧ quote = '"' then
      let (ns, c) ← escaped c.next
      let (more, c) ← body quote fuel c
      return (ns ++ more, c)
    else if isGapOrTab x then
      let (ns, c) ← spaces c
      let (more, c) ← body quote fuel c
      return (ns ++ more, c)
    else
      let (more, c) ← body quote fuel c.next
      return (x.toNat :: more, c)

-- A quoted scalar, from its opening quote on.
def read (c : Cursor) : Except ReadError (Written × Cursor) := do
  let (ns, c) ← body c.head (c.rest.length + 1) c.next
  return (.ofCodes ns, c)

end Flow

namespace Block

-- What becomes of the line breaks at the end of a block scalar.
inductive Chomping where
  | clip
  | strip
  | keep
  deriving DecidableEq, Repr

def chomping? (x : Char) : Option Chomping :=
  if x = '+' then some .keep else if x = '-' then some .strip else none

-- The indicators after the opening mark: chomping and a digit for the indentation, in any order.
def indicators (c : Cursor) : Except ReadError (Chomping × Option Nat × Cursor) := do
  let digit? (c : Cursor) : Except ReadError (Option Nat × Cursor) :=
    if isDigit c.head then
      if c.head = '0' then malformed else .ok (some (digitValue c.head), c.next)
    else .ok (none, c)
  let (chomping, indent, c) ←
    match chomping? c.head with
    | some k => do
      let (n, c) ← digit? c.next
      pure (k, n, c)
    | none => do
      let (n, c) ← digit? c
      match n, chomping? c.head with
      | some _, some k => pure (k, n, c.next)
      | _, _ => pure (.clip, n, c)
  if isGap c.head then return (chomping, indent, c) else malformed

-- The rest of the opening line, which may hold a comment only.
def openingRest (c : Cursor) : Except ReadError Cursor :=
  let c := c.skipWhere (· = ' ')
  let c := if c.head = '#' then c.skipWhere (!isBreakOrEnd ·) else c
  if isBreakOrEnd c.head then .ok c.skipBreak else malformed

-- Blank lines in front of the text, and the widest indentation found there.
def leading : Nat → Nat → Cursor → List Char × Nat × Cursor
  | 0, widest, c => ([], widest, c)
  | fuel + 1, widest, c =>
    if c.head = ' ' then leading fuel (max widest c.next.column) c.next
    else
      match c.lineBreak? with
      | none => ([], widest, c)
      | some (b, c) =>
        let (more, widest, c) := leading fuel widest c
        (b :: more, widest, c)

-- Skip spaces up to the indentation.
def toIndent (indent : Nat) : Nat → Cursor → Cursor
  | 0, c => c
  | fuel + 1, c => if c.column < indent ∧ c.head = ' ' then toIndent indent fuel c.next else c

-- Blank lines between lines of text.
def breaks (indent : Nat) : Nat → Cursor → List Char × Cursor
  | 0, c => ([], c)
  | fuel + 1, c =>
    let c := toIndent indent (indent + 1) c
    match c.lineBreak? with
    | none => ([], c)
    | some (b, c) =>
      let (more, c) := breaks indent fuel c
      (b :: more, c)

def isBlankStart (c : Cursor) : Bool := c.head = ' ' || c.head = '\t'

-- The lines of the scalar, each after the blank lines in front of it.
def body (fold : Bool) (chomping : Chomping) (indent : Nat) :
    Nat → List Char → Cursor → List Char × Cursor
  | 0, _, c => ([], c)
  | fuel + 1, before, c =>
    if c.column ≠ indent ∨ c.head = endMark then
      (if chomping = .keep then before else [], c)
    else
      let plainStart := !isBlankStart c
      let (line, c) := c.span (!isBreakOrEnd ·)
      let (ending, c) :=
        match c.lineBreak? with
        | some (b, c) => ([b], c)
        | none => ([], c)
      let (blank, c) := breaks indent (c.rest.length + 1) c
      if c.column = indent ∧ c.head ≠ endMark then
        let joint :=
          if fold && ending = ['\n'] && plainStart && !isBlankStart c then
            (if blank.isEmpty then [' '] else [])
          else ending
        let (more, c) := body fold chomping indent fuel blank c
        (before ++ line ++ joint ++ more, c)
      else
        (before ++ line ++ (if chomping = .strip then [] else ending) ++
          (if chomping = .keep then blank else []), c)

-- A block scalar, from its opening mark on, in a block with the given indentation.
def read (parent : Int) (c : Cursor) : Except ReadError (List Char × Cursor) := do
  let fold := c.head = '>'
  let (chomping, explicit, c) ← indicators c.next
  let c ← openingRest c
  let least := (max 1 (parent + 1)).toNat
  let (before, indent, c) :=
    match explicit with
    | some n =>
      let indent := least + n - 1
      let (before, c) := breaks indent (c.rest.length + 1) c
      (before, indent, c)
    | none =>
      let (before, widest, c) := leading (c.rest.length + 1) 0 c
      (before, max least widest, c)
  return body fold chomping indent (c.rest.length + 1) before c

end Block

end HubContract.Yaml
