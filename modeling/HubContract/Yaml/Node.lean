import HubContract.Yaml.Tag
import HubContract.Yaml.Token

namespace HubContract.Yaml

open HubContract.Text

-- What a node holds.
inductive Content where
  | scalar (text : Written)
  | sequence (items : List Nat)
  | mapping (entries : List (Nat × Nat))
  deriving DecidableEq, Repr, Inhabited

structure Node where
  tag : String
  content : Content
  deriving DecidableEq, Repr, Inhabited

-- The nodes of a document by their numbers, and the number of its root.
-- An alias stands for a node that was met before, which may be a collection around it.
structure Graph where
  nodes : Array Node
  root : Nat
  deriving DecidableEq, Repr, Inhabited

namespace Graph

-- What a tag handle stands for, the anchors that were seen, and the nodes so far. A collection that
-- is still open is empty.
structure Scope where
  handles : List (String × String)
  anchors : List (String × Nat) := []
  nodes : Array Node := #[]
  -- How many collections may still be opened inside of each other.
  room : Nat := 488

abbrev Reader := StateT Scope (Except ReadError)

-- The tokens do not fit the grammar, or there are no more of them.
def refuse (ts : List Token) : Reader α := fun _ =>
  match ts with
  | .broken e :: _ => .error e
  | _ => .error .malformed

-- There has to be a next token, or the end of the text.
def demand (ts : List Token) : Reader Unit := fun s =>
  match ts with
  | .broken e :: _ => .error e
  | _ => .ok ((), s)

def add (node : Node) : Reader Nat := fun s =>
  .ok (s.nodes.size, { s with nodes := s.nodes.push node })

def emptyNode : Reader Nat := add ⟨Tag.null, .scalar (.whole "")⟩

def tagOf (handle : Option String) (suffix : String) : Reader String := do
  match handle with
  | none => return suffix
  | some h =>
    match (← get).handles.lookup h with
    | some lead => return lead ++ suffix
    | none => refuse []

-- Anchor and tag in front of a node, in either order.
def properties (ts : List Token) : Reader (Option String × Option String × List Token) := do
  demand ts
  match ts with
  | .anchor a :: r =>
    demand r
    match r with
    | .tag h s :: r => return (some a, some (← tagOf h s), r)
    | _ => return (some a, none, r)
  | .tag h s :: r =>
    demand r
    match r with
    | .anchor a :: r => return (some a, some (← tagOf h s), r)
    | _ => return (none, some (← tagOf h s), r)
  | _ => return (none, none, ts)

-- An anchor may be given once only.
def setAnchor (anchor : Option String) (node : Nat) : Reader Unit := do
  match anchor with
  | none => return ()
  | some a => modify fun s => { s with anchors := (a, node) :: s.anchors }

def checkAnchor (anchor : Option String) : Reader Unit := do
  match anchor with
  | none => return ()
  | some a => if ((← get).anchors.lookup a).isSome then refuse [] else return ()

-- The node that an alias stands for.
def resolveAlias (name : String) : Reader Nat := do
  match (← get).anchors.lookup name with
  | some node => return node
  | none => refuse []

-- The tag of a collection or scalar, given what was written and what it is by default.
def chosenTag (written : Option String) (byDefault : String) : String :=
  match written with
  | none => byDefault
  | some t => if t = "!" then byDefault else t

def scalarTag (written : Option String) (text : Written) (plain : Bool) : String :=
  match written with
  | none => if plain then Tag.ofText text else Tag.string
  | some t => if t = "!" then Tag.ofText text else t

def scalar (anchor written : Option String) (text : Written) (plain : Bool) : Reader Nat := do
  let node ← add ⟨scalarTag written text plain, .scalar text⟩
  setAnchor anchor node
  return node

-- A collection whose contents are read by `read`. Its anchor holds inside of it already.
def collection (anchor : Option String) (tag : String) (read : Reader (Content × List Token)) :
    Reader (Nat × List Token) := do
  match (← get).room with
  | 0 => fun _ => .error (.unusable .recursion)
  | room + 1 =>
    checkAnchor anchor
    let node ← add ⟨tag, .sequence []⟩
    setAnchor anchor node
    modify fun s => { s with room := room }
    let (content, ts) ← read
    modify fun s =>
      { s with room := room + 1, nodes := s.nodes.setIfInBounds node ⟨tag, content⟩ }
    return (node, ts)

def sequence (anchor written : Option String) (read : Reader (List Nat × List Token)) :
    Reader (Nat × List Token) :=
  collection anchor (chosenTag written Tag.sequence) do
    let (items, ts) ← read
    return (.sequence items, ts)

def mapping (anchor written : Option String) (read : Reader (List (Nat × Nat) × List Token)) :
    Reader (Nat × List Token) :=
  collection anchor (chosenTag written Tag.mapping) do
    let (entries, ts) ← read
    return (.mapping entries, ts)

-- Where a node may stand decides which blocks can begin there.
inductive Place where
  -- inside a flow collection
  | flow
  -- a document or an entry of a block sequence
  | block
  -- a key or value of a block mapping, whose sequence need not be indented
  | mapping
  deriving DecidableEq

-- A node with a tag or an anchor may be left empty.
def emptyOrRefuse (anchor written : Option String) (ts : List Token) :
    Reader (Nat × List Token) := do
  if anchor.isSome ∨ written.isSome then
    demand ts
    checkAnchor anchor
    return (← scalar anchor written (.whole "") true, ts)
  else refuse ts

mutual

-- A node and the tokens after it.
def node (place : Place) : Nat → List Token → Reader (Nat × List Token)
  | 0, ts => refuse ts
  | fuel + 1, ts => do
    match ts with
    | .alias name :: r => return (← resolveAlias name, r)
    | _ =>
      let (anchor, written, ts) ← properties ts
      match ts with
      | .scalar text plain :: r =>
        checkAnchor anchor
        return (← scalar anchor written text plain, r)
      | .blockEntry :: _ =>
        if place = .mapping then
          sequence anchor written <| looseEntries fuel ts
        else emptyOrRefuse anchor written ts
      | .flowSequenceStart :: r =>
        sequence anchor written <| flowItems fuel true r
      | .flowMappingStart :: r =>
        mapping anchor written <| flowEntries fuel true r
      | .blockSequenceStart :: r =>
        if place = .flow then emptyOrRefuse anchor written ts
        else sequence anchor written <| blockEntries fuel r
      | .blockMappingStart :: r =>
        if place = .flow then emptyOrRefuse anchor written ts
        else mapping anchor written <| blockPairs fuel r
      | _ => emptyOrRefuse anchor written ts

-- The entries of an indented block sequence.
def blockEntries : Nat → List Token → Reader (List Nat × List Token)
  | 0, ts => refuse ts
  | fuel + 1, ts => do
    match ts with
    | .blockEntry :: r =>
      let (x, r) ←
        match r with
        | .blockEntry :: _ | .blockEnd :: _ => do pure (← emptyNode, r)
        | _ => node .block fuel r
      let (xs, r) ← blockEntries fuel r
      return (x :: xs, r)
    | .blockEnd :: r => return ([], r)
    | _ => refuse ts

-- The entries of a block sequence that is not indented; what ends it is left in place.
def looseEntries : Nat → List Token → Reader (List Nat × List Token)
  | 0, ts => refuse ts
  | fuel + 1, ts => do
    match ts with
    | .blockEntry :: r =>
      let (x, r) ←
        match r with
        | .blockEntry :: _ | .key :: _ | .value :: _ | .blockEnd :: _ => do pure (← emptyNode, r)
        | _ => node .block fuel r
      let (xs, r) ← looseEntries fuel r
      return (x :: xs, r)
    | _ => return ([], ts)

-- A key or a value of a block mapping, after its mark.
def blockPart (fuel : Nat) (ts : List Token) : Reader (Nat × List Token) := do
  match fuel, ts with
  | _, .key :: _ | _, .value :: _ | _, .blockEnd :: _ => return (← emptyNode, ts)
  | 0, ts => refuse ts
  | fuel + 1, ts => node .mapping fuel ts

def blockPairs : Nat → List Token → Reader (List (Nat × Nat) × List Token)
  | 0, ts => refuse ts
  | fuel + 1, ts => do
    match ts with
    | .blockEnd :: r => return ([], r)
    | .key :: r =>
      let (k, r) ← blockPart fuel r
      let (v, r) ←
        match r with
        | .value :: r => blockPart fuel r
        | r => do pure (← emptyNode, r)
      let (es, r) ← blockPairs fuel r
      return ((k, v) :: es, r)
    | _ => refuse ts

-- The value of a pair within flow brackets, up to what may follow it.
def flowValue (fuel : Nat) (closing : Token) (ts : List Token) :
    Reader (Nat × List Token) := do
  match fuel with
  | 0 => refuse ts
  | fuel + 1 =>
    match ts with
    | .value :: r =>
      match r with
      | t :: _ =>
        if t = .flowEntry ∨ t = closing then return (← emptyNode, r) else node .flow fuel r
      | [] => refuse r
    | _ => return (← emptyNode, ts)

-- The key of a pair within flow brackets, after its mark.
def flowKey (fuel : Nat) (closing : Token) (ts : List Token) : Reader (Nat × List Token) := do
  match fuel with
  | 0 => refuse ts
  | fuel + 1 =>
    match ts with
    | t :: _ =>
      if t = .value ∨ t = .flowEntry ∨ t = closing then return (← emptyNode, ts)
      else node .flow fuel ts
    | [] => refuse ts

def flowItems : Nat → Bool → List Token → Reader (List Nat × List Token)
  | 0, _, ts => refuse ts
  | fuel + 1, first, ts => do
    match ts with
    | .flowSequenceEnd :: r => return ([], r)
    | _ =>
      let ts ←
        if first then pure ts
        else
          match ts with
          | .flowEntry :: r => pure r
          | _ => refuse ts
      match ts with
      | .flowSequenceEnd :: r => return ([], r)
      | .key :: r =>
        let (x, r) ← mapping none none do
          let (k, r) ← flowKey fuel .flowSequenceEnd r
          let (v, r) ← flowValue fuel .flowSequenceEnd r
          return ([(k, v)], r)
        let (xs, r) ← flowItems fuel false r
        return (x :: xs, r)
      | _ =>
        let (x, r) ← node .flow fuel ts
        let (xs, r) ← flowItems fuel false r
        return (x :: xs, r)

def flowEntries : Nat → Bool → List Token → Reader (List (Nat × Nat) × List Token)
  | 0, _, ts => refuse ts
  | fuel + 1, first, ts => do
    match ts with
    | .flowMappingEnd :: r => return ([], r)
    | _ =>
      let ts ←
        if first then pure ts
        else
          match ts with
          | .flowEntry :: r => pure r
          | _ => refuse ts
      match ts with
      | .flowMappingEnd :: r => return ([], r)
      | .key :: r =>
        let (k, r) ← flowKey fuel .flowMappingEnd r
        let (v, r) ← flowValue fuel .flowMappingEnd r
        let (es, r) ← flowEntries fuel false r
        return ((k, v) :: es, r)
      | _ =>
        let (k, r) ← node .flow fuel ts
        let v ← emptyNode
        let (es, r) ← flowEntries fuel false r
        return ((k, v) :: es, r)

end

-- Directives in front of a document. The version must be 1 and given once, a handle once.
def directives : List Token → Bool → List (String × String) →
    Except ReadError (List (String × String) × List Token)
  | .versionDirective major _ :: r, seen, handles =>
    if seen ∨ major ≠ 1 then malformed else directives r true handles
  | .tagDirective h lead :: r, seen, handles =>
    if (handles.lookup h).isSome then malformed else directives r seen ((h, lead) :: handles)
  | .otherDirective :: r, seen, handles => directives r seen handles
  | r, _, handles => .ok (handles, r)

def standardHandles : List (String × String) := [("!", "!"), ("!!", Tag.standard "")]

-- The handles that hold in a document: the standard ones unless they were redefined.
def allHandles (own : List (String × String)) : List (String × String) := own ++ standardHandles

def isDirective : Token → Bool
  | .versionDirective .. | .tagDirective .. | .otherDirective => true
  | _ => false

-- The directives and the start mark of a document: the handles that hold in it and what follows.
def opening (ts : List Token) : Except ReadError (List (String × String) × List Token) := do
  let (own, r) ← directives ts false []
  match r with
  | .documentStart :: r => return (allHandles own, r)
  | .broken e :: _ => .error e
  | _ => malformed

-- What a document after its start mark holds, which may be nothing.
def content (fuel : Nat) (ts : List Token) : Reader (Nat × List Token) := do
  match ts with
  | [] => return (← emptyNode, [])
  | t :: _ =>
    if isDirective t ∨ t = .documentStart ∨ t = .documentEnd then return (← emptyNode, ts)
    else node .block fuel ts

-- What follows the one document of a text: nothing but end marks. A second document is refused.
def finish (ts : List Token) : Except ReadError Unit :=
  match ts.dropWhile (· = .documentEnd) with
  | [] => .ok ()
  | r => do
    let _ ← opening r
    malformed

-- The one document of a text; none if the text holds none.
def ofTokens? (ts : List Token) : Except ReadError (Option Graph) := do
  match ts with
  | [] => return none
  | t :: _ =>
    let fuel := 4 * ts.length + 8
    let ((root, r), scope) ←
      if isDirective t ∨ t = .documentStart then do
        let (handles, r) ← opening ts
        (content fuel r).run { handles }
      else (node .block fuel ts).run { handles := standardHandles }
    finish r
    return some ⟨scope.nodes, root⟩

end Graph

end HubContract.Yaml
