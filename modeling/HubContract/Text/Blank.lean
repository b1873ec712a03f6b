namespace HubContract.Text

-- Blanks of every script, the ASCII separators 1c to 1f and the next-line control included.
def isBlank (c : Char) : Bool :=
  let n := c.toNat
  (0x09 ≤ n ∧ n ≤ 0x0d) ∨ (0x1c ≤ n ∧ n ≤ 0x20) ∨ n = 0x85 ∨ n = 0xa0 ∨ n = 0x1680 ∨
    (0x2000 ≤ n ∧ n ≤ 0x200a) ∨ n = 0x2028 ∨ n = 0x2029 ∨ n = 0x202f ∨ n = 0x205f ∨ n = 0x3000

-- The white space of Unicode, which leaves out the four ASCII separators.
def isUnicodeSpace (c : Char) : Bool :=
  isBlank c ∧ ¬ (0x1c ≤ c.toNat ∧ c.toNat ≤ 0x1f)

-- Cut what satisfies `p` from both ends.
def trimWhere (p : Char → Bool) (cs : List Char) : List Char :=
  ((cs.dropWhile p).reverse.dropWhile p).reverse

def trimChars (cs : List Char) : List Char := trimWhere isBlank cs

def trim (s : String) : String := String.ofList (trimChars s.toList)

-- Whether nothing but blanks stands in a text.
def isBlankText (s : String) : Bool := s.toList.all isBlank

-- The maximal runs of characters that are not blank, in order.
def wordsFrom : List Char → List Char → List (List Char)
  | [], word => if word.isEmpty then [] else [word.reverse]
  | c :: rest, word =>
    if isBlank c then
      if word.isEmpty then wordsFrom rest [] else word.reverse :: wordsFrom rest []
    else wordsFrom rest (c :: word)

def words (cs : List Char) : List (List Char) := wordsFrom cs []

-- Every run of blanks becomes one space, and none is left at either end.
def collapse (cs : List Char) : List Char := [' '].intercalate (words cs)

end HubContract.Text
