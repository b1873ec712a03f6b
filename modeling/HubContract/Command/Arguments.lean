import HubContract.Text.DecimalDigit
import HubContract.Text.Numeral

namespace HubContract.Arguments

open HubContract.Text

inductive Kind where
  | help
  | version
  | switch
  -- takes a value, which may be restricted to some words
  | value (words : Option (List String))
  deriving DecidableEq, Repr

structure Flag where
  -- The name under which what was given is found.
  key : String
  -- All spellings, dashes included.
  spellings : List String
  kind : Kind
  required : Bool := false
  deriving DecidableEq, Repr

def Flag.takesValue (f : Flag) : Bool :=
  match f.kind with
  | .value _ => true
  | _ => false

-- What ends the reading of arguments before its end.
inductive Stop where
  | help
  | version
  -- the arguments are not understood
  | misuse
  deriving DecidableEq, Repr

-- What one argument is by itself.
inductive Word where
  | plain (text : String)
  -- two dashes
  | separator
  -- an option with the value behind its equals sign
  | long (flag : Flag) (value : Option String)
  -- an option of one letter with what is written together with it
  | short (flag : Flag) (rest : List Char)
  -- something with a dash that no option is meant by
  | unknown
  deriving DecidableEq, Repr

def spelled (flags : List Flag) : List (String × Flag) :=
  flags.flatMap fun f => f.spellings.map fun s => (s, f)

-- The two sides of the first equals sign.
def splitAtEquals (s : String) : String × Option String :=
  match s.toList.span (· ≠ '=') with
  | (lead, _ :: value) => (String.ofList lead, some (String.ofList value))
  | (_, []) => (s, none)

-- Numbers below zero are plain. Their digits may be of any script, and a line may end after them.
def isNegativeNumber (s : String) : Bool :=
  let isDecimal (c : Char) : Bool := (decimalValue? c).isSome
  let line := if s.toList.getLast? = some '\n' then s.toList.dropLast else s.toList
  match line with
  | '-' :: rest =>
    match rest.span isDecimal with
    | (whole, []) => !whole.isEmpty
    | (_, '.' :: ds) => !ds.isEmpty && ds.all isDecimal
    | _ => false
  | _ => false

-- What an argument with a dash is that means no option.
def stray (s : String) : Word :=
  if isNegativeNumber s ∨ s.toList.contains ' ' then .plain s else .unknown

-- An argument that may be short for several options is not understood.
def longWord (flags : List Flag) (s : String) : Except Stop Word :=
  let (lead, value) := splitAtEquals s
  match (spelled flags).lookup lead with
  | some f => .ok (.long f value)
  | none =>
    match (spelled flags).filter fun (spelling, _) => lead.toList.isPrefixOf spelling.toList with
    | [] => .ok (stray s)
    | [(_, f)] => .ok (.long f value)
    | _ => .error .misuse

def shortWord (flags : List Flag) (s : String) : Word :=
  let (lead, rest) := s.toList.splitAt 2
  match (spelled flags).lookup (String.ofList lead) with
  | some f => .short f rest
  | none => stray s

def wordOf (flags : List Flag) (s : String) : Except Stop Word :=
  match s.toList with
  | '-' :: '-' :: _ => longWord flags s
  | '-' :: _ :: _ => .ok (shortWord flags s)
  | _ => .ok (.plain s)

def words (flags : List Flag) : List String → Except Stop (List Word)
  | [] => .ok []
  | s :: rest =>
    if s = "--" then .ok (.separator :: rest.map Word.plain)
    else do return (← wordOf flags s) :: (← words flags rest)

-- What was given: a plain argument, the options by their keys in order, and whether anything has no
-- place.
structure Given where
  plain : Option String := none
  options : List (String × String) := []
  leftOver : Bool := false
  deriving DecidableEq, Repr

namespace Given

-- What was given last counts.
def last? (g : Given) (key : String) : Option String := g.options.reverse.lookup key

def all (g : Given) (key : String) : List String := (g.options.filter (·.1 = key)).map (·.2)

def has (g : Given) (key : String) : Bool := (g.last? key).isSome

def add (g : Given) (f : Flag) (value : String) : Given :=
  { g with options := g.options ++ [(f.key, value)] }

def addPlain (g : Given) (s : String) : Given :=
  match g.plain with
  | some _ => { g with leftOver := true }
  | none => { g with plain := some s }

-- Take an option.
def act (g : Given) (f : Flag) (value : String) : Except Stop Given :=
  match f.kind with
  | .help => .error .help
  | .version => .error .version
  | .switch => .ok (g.add f "")
  | .value choices => if choices.all (·.contains value) then .ok (g.add f value) else .error .misuse

end Given

-- The options of one argument: those before the last, and the last with its value. What no option is
-- meant by may follow them.
structure Group where
  lead : List Flag := []
  last : Flag
  value : Option String := none
  unknown : Bool := false

namespace Group

-- Whether the value of the last option stands in an argument of its own.
def isOpen (o : Group) : Bool := o.last.takesValue && o.value.isNone

-- Take the options, the last one with the given value.
def act (o : Group) (g : Given) (value : String) : Except Stop Given := do
  let g ← o.lead.foldlM (fun g f => g.act f "") g
  let g ← g.act o.last value
  return { g with leftOver := g.leftOver || o.unknown }

def ofLong (f : Flag) (value : Option String) : Except Stop Group :=
  if value.isSome && !f.takesValue then .error .misuse else .ok { last := f, value }

def ofShort (flags : List Flag) (f : Flag) : List Char → Except Stop Group
  | [] => .ok { last := f }
  | '=' :: cs =>
    if f.takesValue then .ok { last := f, value := some (String.ofList cs) } else .error .misuse
  | c :: cs =>
    if f.takesValue then .ok { last := f, value := some (String.ofList (c :: cs)) }
    else if c = '-' then .error .misuse
    else
      match (spelled flags).lookup (String.ofList ['-', c]) with
      | none => .ok { last := f, unknown := true }
      | some next => do
        let o ← ofShort flags next cs
        return { o with lead := f :: o.lead }

def ofWord (flags : List Flag) : Word → Except Stop Group
  | .long f value => ofLong f value
  | .short f cs => ofShort flags f cs
  | _ => .error .misuse

end Group

-- Take arguments one after the other. A separator belongs to the plain argument before or after it.
def take (flags : List Flag) : Given → List Word → Except Stop Given
  | g, [] => .ok g
  | g, .plain s :: .separator :: rest => take flags (g.addPlain s) rest
  | g, .plain s :: rest => take flags (g.addPlain s) rest
  | g, .separator :: .plain s :: rest => take flags (g.addPlain s) rest
  | g, .separator :: rest => take flags { g with leftOver := true } rest
  | g, .unknown :: rest => take flags { g with leftOver := true } rest
  | g, w :: rest => do
    let o ← Group.ofWord flags w
    match o.isOpen, rest with
    | true, .plain s :: rest => take flags (← o.act g s) rest
    | true, _ => .error .misuse
    | false, rest => take flags (← o.act g (o.value.getD "")) rest

-- Read arguments. One plain argument has to be there, and all options that are required.
def read (flags : List Flag) (arguments : List String) : Except Stop Given := do
  let g ← take flags {} (← words flags arguments)
  if g.leftOver ∨ g.plain.isNone ∨ flags.any (fun f => f.required && !g.has f.key) then
    .error .misuse
  else return g

-- Where the command is, which is the first plain argument. Only options may stand before it; whether
-- one of them is unknown comes last.
def findCommand (flags : List Flag) (g : Given) : List Word → Except Stop (Option Nat × Given)
  | [] => .ok (none, g)
  | .plain _ :: _ => .ok (some 0, g)
  | .separator :: _ => .error .misuse
  | .unknown :: rest => do
    let (n, g) ← findCommand flags { g with leftOver := true } rest
    return (n.map (· + 1), g)
  | w :: rest => do
    let o ← Group.ofWord flags w
    let (n, g) ← findCommand flags (← o.act g "") rest
    return (n.map (· + 1), g)

-- The command with what follows it, and whether there is anything unknown before it.
def command (flags : List Flag) (arguments : List String) :
    Except Stop (Option (String × List String) × Bool) := do
  let (n, g) ← findCommand flags {} (← words flags arguments)
  let found := match n.map arguments.drop with
    | some (name :: rest) => some (name, rest)
    | _ => none
  return (found, g.leftOver)

end HubContract.Arguments
