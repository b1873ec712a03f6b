import HubContract.Cancellation
import HubContract.Table

namespace HubContract

structure TokenChain (κ : Type) where
  tokens : List (Token κ) := [{}]
  -- Which token a registration belongs to, and what was registered.
  registrations : Table (Nat × κ) := []

namespace TokenChain

variable {κ : Type}

def last (c : TokenChain κ) : Token κ := c.tokens.getLast?.getD {}

def add (c : TokenChain κ) (t : Token κ) : TokenChain κ := { c with tokens := c.tokens ++ [t] }

-- Change a token, with the callbacks that this runs.
def change (c : TokenChain κ) (n : Nat) (f : Token κ → Token κ × List κ) : TokenChain κ × List κ :=
  match c.tokens[n]? with
  | none => (c, [])
  | some t => ({ c with tokens := c.tokens.set n (f t).1 }, (f t).2)

def changeLast (c : TokenChain κ) (f : Token κ → Token κ × List κ) : TokenChain κ × List κ :=
  c.change (c.tokens.length - 1) f

def register (c : TokenChain κ) (id : String) (callback : κ) : TokenChain κ × List κ :=
  { c with registrations := c.registrations.set id (c.tokens.length - 1, callback) }.changeLast
    (·.register callback)

-- Take back a registration, of which there must be one.
def unregister [BEq κ] (c : TokenChain κ) (id : String) : Except Fault (TokenChain κ) :=
  match c.registrations.get? id with
  | none => .error .key
  | some (n, callback) => .ok (c.change n fun t => (t.unregister callback, [])).1

def cancelAfter (c : TokenChain κ) (delay : Except Fault Number.Binary64) :
    TokenChain κ × Option Fault :=
  let (t, fault) := c.last.cancelAfter delay
  ((c.changeLast fun _ => (t, [])).1, fault)

-- Fire all tokens whose timers have run out, the oldest first.
def elapse (c : TokenChain κ) : TokenChain κ × List κ :=
  (List.range c.tokens.length).foldl (fun (c, called) n =>
    let (c, more) := c.change n Token.elapse
    (c, called ++ more)) (c, [])

end HubContract.TokenChain
