namespace HubContract.Text

def insertSorted (s : String) : List String → List String
  | [] => [s]
  | t :: ts => if s ≤ t then s :: t :: ts else t :: insertSorted s ts

-- Texts in increasing order of their code points.
def sorted (xs : List String) : List String := xs.foldr insertSorted []

-- Each text once, at its first place.
def distinct (xs : List String) : List String :=
  xs.foldl (fun acc x => if acc.contains x then acc else acc ++ [x]) []

-- The texts that occur more than once, in order.
def repeated (xs : List String) : List String :=
  sorted ((distinct xs).filter fun x => 1 < xs.count x)

end HubContract.Text
