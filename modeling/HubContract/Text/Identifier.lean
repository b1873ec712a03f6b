import HubContract.Text.IdentifierRange

namespace HubContract.Text

def inRanges (ranges : List (Nat × Nat)) (c : Char) : Bool :=
  ranges.any fun (first, last) => first ≤ c.toNat ∧ c.toNat ≤ last

def isAsciiLetter (c : Char) : Bool := ('a' ≤ c ∧ c ≤ 'z') ∨ ('A' ≤ c ∧ c ≤ 'Z')

def isIdentifierStart (c : Char) : Bool :=
  if c.toNat < 128 then isAsciiLetter c ∨ c = '_' else inRanges IdentifierRange.start c

def isIdentifierPart (c : Char) : Bool :=
  if c.toNat < 128 then isAsciiLetter c ∨ c = '_' ∨ ('0' ≤ c ∧ c ≤ '9')
  else inRanges IdentifierRange.start c || inRanges IdentifierRange.extend c

-- The words that the generated language keeps for itself.
def keywords : List String := [
  "False", "None", "True", "and", "as", "assert", "async", "await", "break", "class", "continue",
  "def", "del", "elif", "else", "except", "finally", "for", "from", "global", "if", "import", "in",
  "is", "lambda", "nonlocal", "not", "or", "pass", "raise", "return", "try", "while", "with",
  "yield"]

def isKeyword (s : String) : Bool := keywords.contains s

-- Shaped like a name, keywords included.
def isName (cs : List Char) : Bool :=
  match cs with
  | [] => false
  | c :: rest => isIdentifierStart c && rest.all isIdentifierPart

-- Usable as the name of a class or a function.
def isIdentifier (s : String) : Bool := isName s.toList && !isKeyword s

end HubContract.Text
