import HubContract.Yaml.Scalar

namespace HubContract.Yaml

open HubContract.Text

inductive Token where
  | versionDirective (major minor : Nat)
  | tagDirective (handle lead : String)
  | otherDirective
  | documentStart
  | documentEnd
  | blockSequenceStart
  | blockMappingStart
  | blockEnd
  | flowSequenceStart
  | flowSequenceEnd
  | flowMappingStart
  | flowMappingEnd
  | blockEntry
  | flowEntry
  | key
  | value
  | alias (name : String)
  | anchor (name : String)
  | tag (handle : Option String) (suffix : String)
  | scalar (text : Written) (plain : Bool)
  -- the text cannot be read on
  | broken (error : ReadError)
  deriving DecidableEq, Repr, Inhabited

-- A token that may turn out to be a key, with the number of tokens before it.
structure KeyCandidate where
  position : Nat
  required : Bool
  index : Nat
  line : Nat
  column : Nat
  deriving Repr

-- Whether a scalar opens a mapping is known only when the colon after it is met, so the place of
-- every scalar that may turn out to be a key is kept, and the key token is put there afterwards.
structure Scanner where
  cursor : Cursor
  -- The tokens so far, the last one first.
  tokens : List Token := []
  indent : Int := -1
  indents : List Int := []
  flowLevel : Nat := 0
  keyAllowed : Bool := true
  -- At most one candidate for each level of flow collections.
  candidates : List (Nat × KeyCandidate) := []
  deriving Repr

namespace Scanner

def inFlow (s : Scanner) : Bool := s.flowLevel ≠ 0

def push (s : Scanner) (t : Token) : Scanner := { s with tokens := t :: s.tokens }

-- Put a token after the first `position` ones.
def insertAt (s : Scanner) (position : Nat) (t : Token) : Scanner :=
  let later := s.tokens.length - position
  { s with tokens := s.tokens.take later ++ t :: s.tokens.drop later }

def skip (s : Scanner) (n : Nat) : Scanner := { s with cursor := s.cursor.skip n }

-- A candidate is dropped when its line is over or it is too long; where a key was needed, that
-- is an error.
def dropStale (s : Scanner) : Except ReadError Scanner :=
  let stale (k : KeyCandidate) : Bool :=
    k.line ≠ s.cursor.line ∨ s.cursor.index - k.index > 1024
  if s.candidates.any fun (_, k) => stale k && k.required then malformed
  else .ok { s with candidates := s.candidates.filter fun (_, k) => !stale k }

def dropCandidate (s : Scanner) : Except ReadError Scanner :=
  match s.candidates.lookup s.flowLevel with
  | some k =>
    if k.required then malformed
    else .ok { s with candidates := s.candidates.filter (·.1 ≠ s.flowLevel) }
  | none => .ok s

-- Remember that the next token may be a key.
def saveCandidate (s : Scanner) : Except ReadError Scanner := do
  if s.keyAllowed then
    let s ← s.dropCandidate
    let c := s.cursor
    let k : KeyCandidate :=
      ⟨s.tokens.length, !s.inFlow && s.indent = c.column, c.index, c.line, c.column⟩
    return { s with candidates := (s.flowLevel, k) :: s.candidates }
  else return s

-- Close the blocks that are indented further than `column`.
def closeBlocks (s : Scanner) (column : Int) : Scanner :=
  if s.inFlow then s
  else
    let close (s : Scanner) (outer : Int) : Scanner :=
      if s.indent > column then { s.push .blockEnd with indent := outer, indents := s.indents.drop 1 }
      else s
    s.indents.foldl close s

-- Open a block at `column` if it is indented further than the current one.
def openBlock? (s : Scanner) (column : Nat) : Option Scanner :=
  if s.indent < column then
    some { s with indents := s.indent :: s.indents, indent := column }
  else none

-- Skip spaces, comments and line breaks up to the next token.
def skipBlank : Nat → Scanner → Scanner
  | 0, s => s
  | fuel + 1, s =>
    let c := s.cursor.skipWhere (· = ' ')
    let c := if c.head = '#' then c.skipWhere (!isBreakOrEnd ·) else c
    match c.lineBreak? with
    | some (_, c) =>
      skipBlank fuel { s with cursor := c, keyAllowed := s.keyAllowed || !s.inFlow }
    | none => { s with cursor := c }

-- The characters of a tag or of the text that a handle stands for.
def isUriChar (c : Char) : Bool :=
  isWordChar c || "-;/?:@&=+$,_.!~*'()[]%".toList.contains c

-- Escaped bytes of a URI, which must spell out UTF-8.
def uriBytes : Nat → Cursor → Except ReadError (List UInt8 × Cursor)
  | 0, c => .ok ([], c)
  | fuel + 1, c =>
    if c.head = '%' then
      match ofHex? [c.peek 1, c.peek 2] with
      | some n => do
        let (more, c) ← uriBytes fuel (c.skip 3)
        return (UInt8.ofNat n :: more, c)
      | none => malformed
    else .ok ([], c)

def uriChars : Nat → Cursor → Except ReadError (List Char × Cursor)
  | 0, c => .ok ([], c)
  | fuel + 1, c => do
    if c.head = '%' then
      let (bytes, c) ← uriBytes (c.rest.length + 1) c
      match String.fromUTF8? ⟨bytes.toArray⟩ with
      | some s =>
        let (more, c) ← uriChars fuel c
        return (s.toList ++ more, c)
      | none => malformed
    else if isUriChar c.head then
      let (more, c') ← uriChars fuel c.next
      return (c.head :: more, c')
    else return ([], c)

def uri (c : Cursor) : Except ReadError (String × Cursor) := do
  let (cs, c) ← uriChars (c.rest.length + 1) c
  if cs.isEmpty then malformed else return (String.ofList cs, c)

-- A tag handle: an exclamation mark, or a word between two.
def handle (c : Cursor) : Except ReadError (String × Cursor) :=
  if c.head ≠ '!' then malformed
  else if c.peek 1 = ' ' then .ok ("!", c.next)
  else
    let (word, c) := c.next.span isWordChar
    if c.head = '!' then .ok (String.ofList ('!' :: word ++ ['!']), c.next) else malformed

def decimal (c : Cursor) : Except ReadError (Nat × Cursor) :=
  let (ds, c) := c.span isDigit
  if ds.isEmpty then malformed
  else if ds.length > maxDigits then .error (.unusable .value)
  else .ok (ofDigits ds, c)

def skipSpaces (c : Cursor) : Cursor := c.skipWhere (· = ' ')

-- A directive line, from its percent sign on.
def directive (c : Cursor) : Except ReadError (Token × Cursor) := do
  let (name, c) := c.next.span isWordChar
  if name.isEmpty ∨ !isGap c.head then malformed
  else
    let (t, c) ←
      if String.ofList name = "YAML" then do
        let (major, c) ← decimal (skipSpaces c)
        if c.head ≠ '.' then malformed
        else
          let (minor, c) ← decimal c.next
          if isGap c.head then pure (Token.versionDirective major minor, c) else malformed
      else if String.ofList name = "TAG" then do
        let (h, c) ← handle (skipSpaces c)
        if c.head ≠ ' ' then malformed
        else
          let (lead, c) ← uri (skipSpaces c)
          if isGap c.head then pure (Token.tagDirective h lead, c) else malformed
      else pure (Token.otherDirective, c.skipWhere (!isBreakOrEnd ·))
    let c ← Block.openingRest c
    return (t, c)

-- The name of an anchor or alias, after its mark.
def anchorName (c : Cursor) : Except ReadError (String × Cursor) :=
  let (name, c) := c.span isWordChar
  if name.isEmpty then malformed
  else if isGapOrTab c.head || "?:,]\x7d%@".toList.contains c.head || c.head.toNat = 0x60 then
    .ok (String.ofList name, c)
  else malformed

-- A tag, from its exclamation mark on.
def tagToken (c : Cursor) : Except ReadError (Token × Cursor) := do
  let x := c.peek 1
  let (t, c) ←
    if x = '<' then do
      let (suffix, c) ← uri (c.skip 2)
      if c.head = '>' then pure (Token.tag none suffix, c.next) else malformed
    else if isGapOrTab x then pure (Token.tag none "!", c.next)
    else do
      let (word, _) := c.next.span (!isGap ·)
      let (h, c) ← if word.contains '!' then handle c else pure ("!", c.next)
      let (suffix, c) ← uri c
      pure (Token.tag (some h) suffix, c)
  if isGap c.head then return (t, c) else malformed

-- Whether a plain scalar can begin here.
def startsPlain (s : Scanner) : Bool :=
  let x := s.cursor.head
  let bounded := !isGapOrTab (s.cursor.peek 1)
  (!isGapOrTab x && x.toNat ≠ 0x60 && !"-?:,[]\x7b\x7d#&*!|>'\"%@".toList.contains x) ||
    (bounded && (x = '-' || (!s.inFlow && (x = '?' || x = ':'))))

-- A token that ends all blocks: a directive or a document mark.
def topLevel (s : Scanner) : Except ReadError Scanner := do
  let s ← (s.closeBlocks (-1)).dropCandidate
  return { s with keyAllowed := false }

def openFlow (s : Scanner) (t : Token) : Except ReadError Scanner := do
  let s ← s.saveCandidate
  return ({ s with flowLevel := s.flowLevel + 1, keyAllowed := true }.push t).skip 1

def closeFlow (s : Scanner) (t : Token) : Except ReadError Scanner := do
  if s.inFlow then
    let s ← s.dropCandidate
    return ({ s with flowLevel := s.flowLevel - 1, keyAllowed := false }.push t).skip 1
  else malformed

-- Open a block for an entry or key that stands at the cursor, where one may stand.
def openHere (s : Scanner) (t : Token) : Except ReadError Scanner :=
  if s.inFlow then .ok s
  else if !s.keyAllowed then malformed
  else
    match s.openBlock? s.cursor.column with
    | some s => .ok (s.push t)
    | none => .ok s

def blockEntry (s : Scanner) : Except ReadError Scanner := do
  let s ← s.openHere .blockSequenceStart
  let s ← { s with keyAllowed := true }.dropCandidate
  return (s.push .blockEntry).skip 1

def keyMark (s : Scanner) : Except ReadError Scanner := do
  let s ← s.openHere .blockMappingStart
  let s ← { s with keyAllowed := !s.inFlow }.dropCandidate
  return (s.push .key).skip 1

-- A colon. If a candidate is open on this level, that was a key.
def valueMark (s : Scanner) : Except ReadError Scanner := do
  match s.candidates.lookup s.flowLevel with
  | some k =>
    let s := { s with candidates := s.candidates.filter (·.1 ≠ s.flowLevel), keyAllowed := false }
    let s := s.insertAt k.position .key
    let s :=
      if s.inFlow then s
      else
        match s.openBlock? k.column with
        | some s => s.insertAt k.position .blockMappingStart
        | none => s
    return (s.push .value).skip 1
  | none =>
    let s ← s.openHere .blockMappingStart
    let s ← { s with keyAllowed := !s.inFlow }.dropCandidate
    return (s.push .value).skip 1

-- A token that may be a key, read by `read`.
def contentToken (s : Scanner) (read : Cursor → Except ReadError (Token × Cursor)) :
    Except ReadError Scanner := do
  let s ← s.saveCandidate
  let (t, c) ← read s.cursor
  return { s.push t with cursor := c, keyAllowed := false }

def blockScalar (s : Scanner) : Except ReadError Scanner := do
  let s ← { s with keyAllowed := true }.dropCandidate
  let (cs, c) ← Block.read s.indent s.cursor
  return { s.push (.scalar (.whole (String.ofList cs)) false) with cursor := c }

def plainScalar (s : Scanner) : Except ReadError Scanner := do
  let s ← s.saveCandidate
  let (cs, ended, c) := Plain.read s.inFlow (s.indent + 1) s.cursor
  let t := Token.scalar (.whole (String.ofList cs)) true
  return { s.push t with cursor := c, keyAllowed := ended }

def quotedToken (c : Cursor) : Except ReadError (Token × Cursor) := do
  let (text, c) ← Flow.read c
  return (.scalar text false, c)

-- One token, after the blanks before it.
def step (s : Scanner) : Except ReadError Scanner := do
  let c := s.cursor
  let x := c.head
  let bounded := isGapOrTab (c.peek 1)
  if x = '%' ∧ c.column = 0 then
    let s ← s.topLevel
    let (t, c) ← directive s.cursor
    return { s.push t with cursor := c }
  else if c.column = 0 ∧ c.isMark '-' then return ((← s.topLevel).push .documentStart).skip 3
  else if c.column = 0 ∧ c.isMark '.' then return ((← s.topLevel).push .documentEnd).skip 3
  else if x = '[' then s.openFlow .flowSequenceStart
  else if x = '\x7b' then s.openFlow .flowMappingStart
  else if x = ']' then s.closeFlow .flowSequenceEnd
  else if x = '\x7d' then s.closeFlow .flowMappingEnd
  else if x = ',' then
    let s ← { s with keyAllowed := true }.dropCandidate
    return (s.push .flowEntry).skip 1
  else if x = '-' ∧ bounded then s.blockEntry
  else if x = '?' ∧ (s.inFlow ∨ bounded) then s.keyMark
  else if x = ':' ∧ (s.inFlow ∨ bounded) then s.valueMark
  else if x = '*' then
    s.contentToken fun c => do
      let (name, c) ← anchorName c.next
      return (.alias name, c)
  else if x = '&' then
    s.contentToken fun c => do
      let (name, c) ← anchorName c.next
      return (.anchor name, c)
  else if x = '!' then s.contentToken tagToken
  else if (x = '|' ∨ x = '>') ∧ !s.inFlow then s.blockScalar
  else if x = '\'' ∨ x = '"' then s.contentToken quotedToken
  else if s.startsPlain then s.plainScalar
  else malformed

-- One round: the blocks that end here are closed, and the next token is read. The flag tells whether
-- the text is at its end.
def round (s : Scanner) : Except ReadError (Scanner × Bool) := do
  let s ← (skipBlank (s.cursor.rest.length + 1) s).dropStale
  let s := s.closeBlocks s.cursor.column
  if s.cursor.head = endMark then return (← s.topLevel, true)
  else return (← s.step, false)

-- How many tokens are settled: no key can be put before them any more.
def settled (s : Scanner) : Nat :=
  s.candidates.foldl (fun n (_, k) => min n k.position) s.tokens.length

-- The first `taken` tokens, and why there are no more.
def stopped (s : Scanner) (taken : Nat) (e : ReadError) : List Token :=
  s.tokens.reverse.take taken ++ [.broken e]

-- Token after token up to the end of the text. The first `taken` tokens are settled.
def run : Nat → Nat → Scanner → List Token
  | 0, taken, s => s.stopped taken .malformed
  | fuel + 1, taken, s =>
    match s.round with
    | .error e => s.stopped taken e
    | .ok (s, true) => s.tokens.reverse
    | .ok (s, false) =>
      if taken < s.tokens.length then
        match s.dropStale with
        | .error e => s.stopped taken e
        | .ok s => run fuel s.settled s
      else run fuel taken s

end Scanner

namespace Token

-- The tokens of a text whose characters may all stand in one. A byte order mark in front is passed
-- over.
def ofChars (cs : List Char) : List Token :=
  let c : Cursor := { rest := cs }
  let c := if c.head.toNat = 0xfeff then c.next else c
  Scanner.run (cs.length + 1) 0 { cursor := c }

end Token

end HubContract.Yaml
