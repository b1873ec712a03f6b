import HubContract.Cancellation
import HubContract.Channel.Basic
import HubContract.Table

namespace HubContract

open HubContract.Number

-- A wait on a channel.
structure WaitId where
  channel : Nat
  number : Nat
  deriving DecidableEq, Repr, Inhabited

-- What has become possible. Of a task the loop knows nothing but its place in the order.
inductive Turn where
  | begin (wait : WaitId)
  | resume (wait : WaitId)
  | dismiss (wait : WaitId)
  | elapse (token : Nat)
  | task (number : Nat)
  deriving DecidableEq, Repr, Inhabited

-- What lets waits go on. The turns that are ready are kept in order, and nothing is done between
-- them but what is asked for from outside.
structure Loop (α : Type) where
  -- Channels by number; one that was never used is empty.
  channel : Nat → Channel α := fun _ => {}
  -- Tokens by number. Their callbacks ask for waits to be dismissed.
  tokens : List (Token WaitId) := []
  ready : List Turn := []

namespace Loop

variable {α : Type}

instance : Inhabited (Loop α) := ⟨{}⟩

def token? (l : Loop α) (t : Nat) : Option (Token WaitId) := l.tokens[t]?

def hasFired (l : Loop α) (t : Nat) : Bool := (l.token? t).any (·.fired)

-- Change a channel; the waits that this wakes will resume.
def onChannel (l : Loop α) (number : Nat) (f : Channel α → Channel α) : Loop α :=
  let before := l.channel number
  let after := f before
  { l with
    channel := fun n => if n = number then after else l.channel n
    ready := l.ready ++ (before.newlyWoken after).map fun w => .resume ⟨number, w⟩ }

-- Change a token; the waits that its callbacks name will be dismissed.
def onToken (l : Loop α) (t : Nat) (f : Token WaitId → Token WaitId × List WaitId) : Loop α :=
  match l.token? t with
  | none => l
  | some token =>
    let (token, called) := f token
    { l with tokens := l.tokens.set t token, ready := l.ready ++ called.map Turn.dismiss }

def addToken (l : Loop α) (token : Token WaitId) : Nat × Loop α :=
  (l.tokens.length, { l with tokens := l.tokens ++ [token] })

-- A token by its name, for which it is made when the name is first used. One name stands for a
-- fresh token that has fired.
def tokenNamed (l : Loop α) (names : Table Nat) (name : String) : Nat × Loop α × Table Nat :=
  if name = "canceled" then
    let (t, l) := l.addToken .canceled
    (t, l, names)
  else
    match names.get? name with
    | some t => (t, l, names)
    | none =>
      let (t, l) := l.addToken {}
      (t, l, names.set name t)

def publish (l : Loop α) (channel : Nat) (value : α) : Loop α :=
  l.onChannel channel (·.publish value)

def reset (l : Loop α) (channel : Nat) : Loop α := l.onChannel channel Channel.reset

-- Start a wait. It begins in a later turn.
def start (l : Loop α) (channel : Nat) (token : Option Nat) : WaitId × Loop α :=
  let wait : WaitId := ⟨channel, (l.channel channel).waits.length⟩
  let l := l.onChannel channel (·.start token)
  (wait, { l with ready := l.ready ++ [.begin wait] })

def abandon (l : Loop α) (w : WaitId) : Loop α := l.onChannel w.channel (·.abandon w.number)

def cancel (l : Loop α) (t : Nat) : Loop α := l.onToken t Token.cancel

def cancelAfter (l : Loop α) (t : Nat) (delay : Except Fault Binary64) : Option Fault × Loop α :=
  ((l.token? t).bind fun token => (token.cancelAfter delay).2,
    l.onToken t fun token => ((token.cancelAfter delay).1, []))

def tokenOf (l : Loop α) (w : WaitId) : Option Nat :=
  ((l.channel w.channel).wait? w.number).bind (·.token)

-- A wait begins. If it stands in line then, its token is to dismiss it.
def beginWait (l : Loop α) (w : WaitId) : Loop α :=
  let token := l.tokenOf w
  let l := l.onChannel w.channel (·.begin w.number (token.any l.hasFired))
  match token with
  | some t =>
    if (l.channel w.channel).isInLine w.number then l.onToken t (·.register w) else l
  | none => l

-- Start a wait that begins at once.
def waitNow (l : Loop α) (channel : Nat) (token : Option Nat) : WaitId × Loop α :=
  let wait : WaitId := ⟨channel, (l.channel channel).waits.length⟩
  (wait, (l.onChannel channel (·.start token)).beginWait wait)

-- A wait resumes, and its token forgets about it.
def resumeWait (l : Loop α) (w : WaitId) : Loop α :=
  let l := l.onChannel w.channel (·.resume w.number)
  match l.tokenOf w with
  | some t => l.onToken t fun token => (token.unregister w, [])
  | none => l

def run (l : Loop α) : Turn → Loop α
  | .begin w => l.beginWait w
  | .resume w => l.resumeWait w
  | .dismiss w => l.onChannel w.channel (·.dismiss w.number)
  | .elapse t => l.onToken t Token.elapse
  | .task _ => l

-- Do what is first in order.
def turn (l : Loop α) : Loop α :=
  match l.ready with
  | [] => l
  | t :: rest => { l with ready := rest }.run t

def turns : Nat → Loop α → Loop α
  | 0, l => l
  | n + 1, l => if l.ready.isEmpty then l else turns n l.turn

-- Every callback that a token holds may ask for one dismissal, and every wait resumes once.
def bound (l : Loop α) : Nat :=
  3 * (l.ready.length + l.tokens.foldr (fun t n => t.callbacks.length + 1 + n) 0)

-- Timers that have run out come after what is ready.
def ripen (l : Loop α) : Loop α :=
  let due := (List.range l.tokens.length).filter fun t => (l.token? t).any Token.isDue
  { l with ready := l.ready ++ due.map Turn.elapse }

-- Take turns until there is nothing left to do.
def settle (l : Loop α) : Loop α := turns l.ripen.bound l.ripen

-- How a wait ended, if it has.
def ending? (l : Loop α) (w : WaitId) : Option (Ending α) :=
  (l.channel w.channel).ending? w.number

end HubContract.Loop
