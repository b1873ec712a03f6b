import HubContract.Yaml.Node
import HubContract.Yaml.Value

namespace HubContract.Yaml

open HubContract.Number HubContract.Text

inductive CollectionKind where
  | sequence
  | mapping
  | set
  | pairs
  deriving DecidableEq, Repr, Inhabited

def CollectionKind.ofTag? (tag : String) : Option CollectionKind :=
  [("seq", sequence), ("map", mapping), ("set", set), ("omap", pairs), ("pairs", pairs)].findSome?
    fun (name, kind) => if Tag.standard name = tag then some kind else none

-- What was made from a node. Collections hold the numbers of nodes.
inductive Made where
  | scalar (value : Data)
  | list (items : List Nat)
  | set (members : List Nat)
  | pairs (items : List (Nat × Nat))
  | mapping (entries : List (Nat × Nat))
  deriving Repr, Inhabited

-- From nodes to plain data. Scalars are made as soon as a collection around them is filled. The
-- collections themselves are filled one after the other in the order in which they were met, so
-- that of two faults the one nearer to the root is the one that is found.
structure Construction where
  -- The nodes, which merging changes.
  nodes : Array Node
  made : Array (Option Made)
  -- The collections that are still to be filled.
  open_ : List (Nat × CollectionKind) := []

namespace Construction

abbrev Builder := StateT Construction (Except ReadError)

def fail (e : ReadError) : Builder α := fun _ => .error e

def node (n : Nat) : Builder Node := return (← get).nodes[n]?.getD default

def setNode (n : Nat) (x : Node) : Builder Unit :=
  modify fun s => { s with nodes := s.nodes.setIfInBounds n x }

def made? (n : Nat) : Builder (Option Made) := return (← get).made[n]?.join

def setMade (n : Nat) (x : Made) : Builder Unit :=
  modify fun s => { s with made := s.made.setIfInBounds n (some x) }

def entriesOf (n : Nat) : Builder (List (Nat × Nat)) := do
  match (← node n).content with
  | .mapping es => return es
  | _ => return []

def setEntries (n : Nat) (es : List (Nat × Nat)) : Builder Unit := do
  setNode n { (← node n) with content := .mapping es }

def tagIs (tag : String) (n : Nat) : Builder Bool := return (← node n).tag = tag

-- The text of a scalar. A mapping stands for its value entry, if it has one; one that stands for
-- itself has no text.
def scalarText : Nat → Nat → Builder Written
  | 0, _ => fail (.unusable .recursion)
  | fuel + 1, n => do
    match (← node n).content with
    | .scalar text => return text
    | .sequence _ => fail .malformed
    | .mapping es =>
      match ← es.findM? fun (k, _) => tagIs Tag.value k with
      | some (_, v) => scalarText fuel v
      | none => fail .malformed

-- The value of a scalar. A time has to be written as one and not as a mapping with a value entry.
def scalarValue (kind : ScalarKind) (n : Nat) : Builder Data := do
  let text ← scalarText ((← get).nodes.size + 1) n
  match kind, (← node n).content with
  | .time, .mapping _ => fail (.unusable .kind)
  | _, _ => fun s => (kind.value text).map (·, s)

-- Make what a node stands for, a collection without its contents.
def visit (n : Nat) : Builder Unit := do
  match ← made? n with
  | some _ => return ()
  | none =>
    let tag := (← node n).tag
    match ScalarKind.ofTag? tag, CollectionKind.ofTag? tag with
    | some kind, _ => setMade n (.scalar (← scalarValue kind n))
    | none, some kind =>
      setMade n (.list [])
      modify fun s => { s with open_ := s.open_ ++ [(n, kind)] }
    | none, none => fail .malformed

-- Put the entries of the mappings that a mapping is merged with in front of its own. Of several such
-- mappings the first one has the last word. A value key becomes a text. Every merge key is taken out
-- before its mapping is looked into, so `fuel` is enough if it is more than their number.
def flatten : Nat → Nat → Builder Unit
  | 0, _ => fail .malformed
  | fuel + 1, n => do
    let inner (v : Nat) : Builder (List (Nat × Nat)) := do
      match (← node v).content with
      | .mapping _ =>
        flatten fuel v
        entriesOf v
      | _ => fail .malformed
    let mergedWith (v : Nat) : Builder (List (Nat × Nat)) := do
      match (← node v).content with
      | .sequence items => return (← items.mapM inner).reverse.flatten
      | _ => inner v
    let look (at_ : Nat × List (Nat × Nat)) : Builder (Nat × List (Nat × Nat)) := do
      let (index, merged) := at_
      let es ← entriesOf n
      match es[index]? with
      | none => return (index, merged)
      | some (k, v) =>
        if ← tagIs Tag.merge k then
          setEntries n (es.eraseIdx index)
          return (index, merged ++ (← mergedWith v))
        else
          if ← tagIs Tag.value k then setNode k { (← node k) with tag := Tag.string }
          return (index + 1, merged)
    let (_, merged) ← (← entriesOf n).foldlM (fun at_ _ => look at_) (0, [])
    setEntries n (merged ++ (← entriesOf n))

def mergeKeys : Builder Nat := do
  let s ← get
  let isMerge (e : Nat × Nat) : Bool := (s.nodes[e.1]?.getD default).tag = Tag.merge
  return s.nodes.foldl (fun n x =>
    match x.content with
    | .mapping es => n + es.countP isMerge
    | _ => n) 0

-- The text of a scalar node, as far as it is a string.
def stringOf (n : Nat) : Builder String := do
  match (← node n).content with
  | .scalar (.whole s) => return s
  | _ => return ""

-- Whether two keys are the same. What is no number is the same only as itself; all nodes with the
-- word for it stand for one such value.
def sameKey (k l : Nat) : Builder Bool := do
  match ← made? k, ← made? l with
  | some (.scalar (.float .nan)), some (.scalar (.float .nan)) =>
    return k = l || (Value.isNanWord (← stringOf k) && Value.isNanWord (← stringOf l))
  | some (.scalar a), some (.scalar b) => return Data.sameKey a b
  | _, _ => return false

-- Add an entry. A key that is there already keeps its place and takes the new value.
def insert (key value : Nat) : List (Nat × Nat) → Builder (List (Nat × Nat))
  | [] => return [(key, value)]
  | (k, v) :: rest => do
    if ← sameKey k key then return (k, value) :: rest
    else return (k, v) :: (← insert key value rest)

-- The entries of a mapping, whose keys have to be scalars.
def mappingEntries (n : Nat) : Builder (List (Nat × Nat)) := do
  match (← node n).content with
  | .mapping _ =>
    flatten ((← mergeKeys) + 1) n
    (← entriesOf n).foldlM (fun acc (k, v) => do
      visit k
      match ← made? k with
      | some (.scalar _) =>
        visit v
        insert k v acc
      | _ => fail .malformed) []
  | _ => fail .malformed

-- The key and the value of a mapping with one entry.
def pairOf (n : Nat) : Builder (Nat × Nat) := do
  match (← node n).content with
  | .mapping [(k, v)] =>
    visit k
    visit v
    return (k, v)
  | _ => fail .malformed

def fill (n : Nat) (kind : CollectionKind) : Builder Unit := do
  match kind, (← node n).content with
  | .sequence, .sequence items =>
    items.forM visit
    setMade n (.list items)
  | .mapping, _ => setMade n (.mapping (← mappingEntries n))
  | .set, _ => setMade n (.set ((← mappingEntries n).map (·.1)))
  | .pairs, .sequence items => setMade n (.pairs (← items.mapM pairOf))
  | _, _ => fail .malformed

-- Fill the open collections in turn. None is opened twice, so their number bounds the rounds.
def fillAll : Nat → Builder Unit
  | 0 => return ()
  | fuel + 1 => do
    match (← get).open_ with
    | [] => return ()
    | (n, kind) :: rest =>
      modify fun s => { s with open_ := rest }
      fill n kind
      fillAll fuel

-- What is made from every node of a graph that the root reaches.
def ofGraph (g : Graph) : Except ReadError (Array (Option Made)) := do
  let build : Builder Unit := do
    visit g.root
    fillAll (g.nodes.size + 1)
  let (_, s) ← build.run ⟨g.nodes, Array.replicate g.nodes.size none, []⟩
  return s.made

end Construction

namespace Unfolding

-- A value as far as it was unfolded: the names of collections around it that stand in it again, and
-- whether it holds no collection that holds itself.
structure Part where
  data : Data
  free : List Nat
  simple : Bool
  deriving Inhabited

-- The parts that were unfolded already.
abbrev Unfolder := StateM (Array (Option Part))

def union (parts : List Part) : List Nat := (parts.flatMap (·.free)).eraseDups

-- A collection under a name. It gets a knot if something in it leads back to it or further out.
def tie (name : Nat) (parts : List Part) (body : List Data → Data) : Part :=
  let free := union parts
  let whole := body (parts.map (·.data))
  { data := if free.isEmpty then whole else .knot name whole
    free := free.filter (· ≠ name)
    simple := free.isEmpty && parts.all (·.simple) }

-- The entries whose keys and values stand in turn in a list.
def entries : List Data → List (Data × Data)
  | k :: v :: r => (k, v) :: entries r
  | _ => []

def collectionOf : Made → Collection
  | .mapping _ => .mapping
  | _ => .list

-- The value of a node inside of the collections of the given names. `fuel` bounds their number.
def part (made : Array (Option Made)) : Nat → List Nat → Nat → Unfolder Part
  | 0, _, _ => return default
  | fuel + 1, names, n => do
    match made[n]?.join with
    | none => return default
    | some m =>
      if names.contains n then return ⟨.again n (collectionOf m), [n], false⟩
      else
        match (← get)[n]?.join with
        | some p => return p
        | none =>
          let inside (k : Nat) : Unfolder Part := part made fuel (n :: names) k
          let both (e : Nat × Nat) : Unfolder (List Part) := do
            return [← inside e.1, ← inside e.2]
          let p ← match m with
            | .scalar d => pure ⟨d, [], true⟩
            | .list items => do pure (tie n (← items.mapM inside) .list)
            | .set members => do pure (tie n (← members.mapM inside) .set)
            | .mapping es => do
              pure (tie n (← es.mapM both).flatten fun xs => .mapping (entries xs))
            | .pairs es => do
              let pairs ← es.mapM both
              let tuples := pairs.mapIdx fun i p => tie (made.size * (i + 1) + n) p .tuple
              pure (tie n tuples .list)
          if p.simple then modify fun parts => parts.setIfInBounds n (some p)
          return p

end Unfolding

-- The data of a graph.
def Graph.data (g : Graph) : Except ReadError Data := do
  let made ← Construction.ofGraph g
  let (p, _) := (Unfolding.part made (made.size + 1) [] g.root).run
    (Array.replicate made.size none)
  return p.data

end HubContract.Yaml
