import HubContract.Text.HiddenRange
import HubContract.Text.Identifier
import HubContract.Text.Numeral

namespace HubContract.Text.Quoted

-- Whether a character has a visible form. The space counts, other blanks do not.
def isVisible (c : Char) : Bool :=
  if c.toNat < 128 then 0x20 ≤ c.toNat ∧ c.toNat < 0x7f else !inRanges hiddenRanges c

-- The shortest of the three numeric escapes that holds the code point.
def numericEscape (n : Nat) : List Char :=
  if n < 0x100 then '\\' :: 'x' :: hex 2 n
  else if n < 0x10000 then '\\' :: 'u' :: hex 4 n
  else '\\' :: 'U' :: hex 8 n

-- One character inside quotes of the given kind.
def escape (quote : Char) (c : Char) : List Char :=
  if c = quote ∨ c = '\\' then ['\\', c]
  else if c = '\n' then ['\\', 'n']
  else if c = '\r' then ['\\', 'r']
  else if c = '\t' then ['\\', 't']
  else if isVisible c then [c]
  else numericEscape c.toNat

-- Double quotes only where they save escaping.
def quoteFor (cs : List Char) : Char :=
  if cs.contains '\'' && !cs.contains '"' then '"' else '\''

def quoteChars (cs : List Char) : List Char :=
  let q := quoteFor cs
  q :: cs.flatMap (escape q) ++ [q]

end Quoted

-- The literal that denotes a text.
def quoted (s : String) : String := String.ofList (Quoted.quoteChars s.toList)

namespace Quoted

-- A code point given by its number, unless it is half of a surrogate pair or too large.
def codePoint? (n : Nat) : Option Char :=
  if h : n.isValidChar then some (Char.ofNatAux n h) else none

-- What follows a backslash: the character meant and the rest of the line. An escape that the
-- rules do not know is refused.
def unescape? : List Char → Option (Char × List Char)
  | 'n' :: r => some ('\n', r)
  | 'r' :: r => some ('\r', r)
  | 't' :: r => some ('\t', r)
  | '\\' :: r => some ('\\', r)
  | '\'' :: r => some ('\'', r)
  | '"' :: r => some ('"', r)
  | 'x' :: a :: b :: r => do return (← codePoint? (← ofHex? [a, b]), r)
  | 'u' :: a :: b :: c :: d :: r => do return (← codePoint? (← ofHex? [a, b, c, d]), r)
  | 'U' :: a :: b :: c :: d :: e :: f :: g :: h :: r => do
    return (← codePoint? (← ofHex? [a, b, c, d, e, f, g, h]), r)
  | _ => none

-- The characters up to the closing quote, which must end the input. A line break cannot stand in
-- the literal. `fuel` bounds the characters that are read.
def unquoteBody (quote : Char) : Nat → List Char → Option (List Char)
  | 0, _ => none
  | fuel + 1, cs =>
    match cs with
    | [] => none
    | '\n' :: _ => none
    | '\r' :: _ => none
    | '\\' :: r => do
      let (c, rest) ← unescape? r
      return c :: (← unquoteBody quote fuel rest)
    | c :: r =>
      if c = quote then (if r.isEmpty then some [] else none)
      else do return c :: (← unquoteBody quote fuel r)

-- The text that a literal denotes.
def unquote? : List Char → Option (List Char)
  | '\'' :: r => unquoteBody '\'' (r.length + 1) r
  | '"' :: r => unquoteBody '"' (r.length + 1) r
  | _ => none

end HubContract.Text.Quoted
