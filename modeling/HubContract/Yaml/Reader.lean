import HubContract.Yaml.Construction

namespace HubContract.Yaml

-- The nodes of a text; none where the text is empty.
def graph? (cs : List Char) : Except ReadError (Option Graph) := Graph.ofTokens? (Token.ofChars cs)

-- The data of a text whose characters may all stand in one; an empty text is null.
def data (cs : List Char) : Except ReadError Data := do
  match ← graph? cs with
  | none => return .null
  | some g => g.data

-- The data of a text.
def read (text : String) : Except ReadError Data :=
  let cs := text.toList
  if cs.all isAllowed then data cs else malformed

-- Line ends as a text file is read: each of the three forms counts as a line feed.
def normalizeBreaks : List Char → List Char
  | '\r' :: '\n' :: r => '\n' :: normalizeBreaks r
  | '\r' :: r => '\n' :: normalizeBreaks r
  | c :: r => c :: normalizeBreaks r
  | [] => []

-- A file is read piece by piece: so many characters first, and so many at a time from then on.
def firstPiece : Nat := 8192

def piece : Nat := 4096

-- Where the piece begins that holds the character at `index`.
def pieceStart (index : Nat) : Nat :=
  if index < firstPiece then 0 else firstPiece + (index - firstPiece) / piece * piece

-- The data of a text file. A character that may not stand in a text is met only when its piece is
-- read, so that another fault may be met before.
def readFile (text : String) : Except ReadError Data :=
  let cs := normalizeBreaks text.toList
  match cs.findIdx? (!isAllowed ·) with
  | none => data cs
  | some index =>
    match graph? (cs.take (pieceStart index)) with
    | .error e => .error e
    | .ok _ => malformed

end HubContract.Yaml
