import HubContract.Table

namespace HubContract

-- What a path starts at. Two slashes, and not more, are a root of their own.
inductive Root where
  | here
  | root
  | doubleRoot
  deriving DecidableEq, Repr, Inhabited

def Root.text : Root → String
  | .here => ""
  | .root => "/"
  | .doubleRoot => "//"

-- Paths are kept without empty and dot components. Steps back to the directory above stay in a path
-- and are taken when it is followed.
structure Path where
  root : Root := .here
  components : List String := []
  deriving DecidableEq, Repr, Inhabited

namespace Path

def ofText (s : String) : Path where
  root := match (s.toList.takeWhile (· = '/')).length with
    | 0 => .here
    | 2 => .doubleRoot
    | _ => .root
  components := (s.splitOn "/").filter fun c => c ≠ "" && c ≠ "."

def text (p : Path) : String :=
  if p.root = .here ∧ p.components.isEmpty then "."
  else p.root.text ++ "/".intercalate p.components

-- A file inside of a directory.
def child (p : Path) (name : String) : Path := { p with components := p.components ++ [name] }

def parent (p : Path) : Path := { p with components := p.components.dropLast }

-- The directory above. Nothing is above a root.
def above (p : Path) : Path :=
  match p.components.getLast? with
  | none | some ".." => if p.root = .here then p.child ".." else p
  | some _ => p.parent

-- The directories on the way to a path and the path itself, from the top down.
def ancestry (p : Path) : List Path :=
  (List.range (p.components.length + 1)).map fun n =>
    { p with components := p.components.take n }

end Path

-- Why files cannot be read or written.
inductive FileError where
  | missing
  | isDirectory
  | notDirectory
  | exists
  -- a name with more bytes than a directory can hold
  | nameTooLong
  -- a path that no file can have
  | invalidPath
  deriving DecidableEq, Repr, Inhabited

structure Files where
  texts : Table String := []
  -- Directories besides those that hold files.
  directories : List Path := []
  deriving DecidableEq, Repr, Inhabited

namespace Files

-- The greatest number of bytes in a name, and in a whole path.
def maxNameBytes : Nat := 255

def maxPathBytes : Nat := 4095

-- The text of a path without steps back.
def read? (fs : Files) (p : Path) : Option String := fs.texts.get? p.text

def isFile (fs : Files) (p : Path) : Bool := (fs.read? p).isSome

def isDirectory (fs : Files) (p : Path) : Bool :=
  p.components.all (· = "..") || fs.directories.contains p ||
    fs.texts.any fun (name, _) => (Path.ofText name).parent.ancestry.contains p

-- Follow components from a place without steps back. What is gone through must be directories.
def follow (fs : Files) (place : Path) : List String → Except FileError Path
  | [] => .ok place
  | c :: rest =>
    if fs.isFile place then .error .notDirectory
    else if !fs.isDirectory place then .error .missing
    else if c.utf8ByteSize > maxNameBytes then .error .nameTooLong
    else fs.follow (if c = ".." then place.above else place.child c) rest

-- The place that a path leads to. There need not be anything at that place.
def resolve (fs : Files) (p : Path) : Except FileError Path :=
  if p.text.toList.contains '\x00' then .error .invalidPath
  else if p.text.utf8ByteSize > maxPathBytes then .error .nameTooLong
  else fs.follow { p with components := [] } p.components

-- The text of a file; nothing if there is no file or directory of that name.
def find? (fs : Files) (p : Path) : Except FileError (Option String) :=
  match fs.resolve p with
  | .error .nameTooLong => .error .nameTooLong
  | .error _ => .ok none
  | .ok place =>
    match fs.read? place with
    | some text => .ok (some text)
    | none => if fs.isDirectory place then .error .isDirectory else .ok none

-- Make one directory. One that is there already is as good.
def makeOne (fs : Files) (p : Path) : Except FileError Files := do
  let place ← fs.resolve p
  if fs.isFile place then .error .exists
  else if fs.isDirectory place then .ok fs
  else .ok { fs with directories := fs.directories ++ [place] }

-- Make the first of some directories. If the way to it is missing, the next ones are made before.
def makeFirst (fs : Files) : List Path → Files × Option FileError
  | [] => (fs, some .missing)
  | p :: outer =>
    match fs.makeOne p with
    | .ok fs => (fs, none)
    | .error .missing =>
      match fs.makeFirst outer with
      | (fs, some e) => (fs, some e)
      | (fs, none) =>
        match fs.makeOne p with
        | .ok fs => (fs, none)
        | .error e => (fs, some e)
    | .error e => (fs, some e)

-- Make a directory with all directories on the way to it.
def makeDirectory (fs : Files) (p : Path) : Files × Option FileError :=
  fs.makeFirst p.ancestry.reverse

def write (fs : Files) (p : Path) (text : String) : Except FileError Files := do
  let place ← fs.resolve p
  if fs.isDirectory place then .error .isDirectory
  else .ok { fs with texts := fs.texts.set place.text text }

-- The files that `after` has and `before` had not, or not with that text.
def changed (before after : Files) : Table String :=
  after.texts.filter fun (name, text) => before.texts.get? name ≠ some text

end HubContract.Files
