import HubContract.Data.Basic

namespace HubContract

open HubContract.Number

-- A signal that fires once. Callbacks that are registered before it fires run when it fires, in the
-- order of their registration; later ones run at once.
structure Token (κ : Type) where
  fired : Bool := false
  callbacks : List κ := []
  -- The delay after which the token fires by itself.
  timer : Option Binary64 := none
  deriving DecidableEq, Repr, Inhabited

namespace Token

-- A token that has fired already.
def canceled : Token κ := { fired := true }

-- Fire a token, with the callbacks to run. Only the first time has an effect.
def cancel (t : Token κ) : Token κ × List κ :=
  if t.fired then (t, []) else ({ fired := true }, t.callbacks)

-- The seconds that a value stands for.
def delayOf : Data → Except Fault Binary64
  | .bool b => .ok (.ofNat (if b then 1 else 0))
  | .float x => .ok x
  | .int n =>
    match Binary64.ofInt n with
    | x@(.finite ..) => .ok x
    | _ => .error .overflow
  | _ => .error .kind

-- Set the timer, which takes the place of one set before. What is no delay leaves none.
def cancelAfter (t : Token κ) (delay : Except Fault Binary64) : Token κ × Option Fault :=
  if t.fired then (t, none)
  else
    match delay with
    | .ok d => ({ t with timer := some d }, none)
    | .error f => ({ t with timer := none }, some f)

-- Register a callback, with the callbacks to run.
def register (t : Token κ) (callback : κ) : Token κ × List κ :=
  if t.fired then (t, [callback]) else ({ t with callbacks := t.callbacks ++ [callback] }, [])

-- Remove the first registration of a callback.
def unregister [BEq κ] (t : Token κ) (callback : κ) : Token κ :=
  { t with callbacks := t.callbacks.erase callback }

-- Delays that have passed as soon as they begin.
def isOver (delay : Binary64) : Bool := delay.isNegative || delay.numEq default || delay = .nan

def isDue (t : Token κ) : Bool := t.timer.any isOver

-- Fire a token whose timer has run out.
def elapse (t : Token κ) : Token κ × List κ := if t.isDue then t.cancel else (t, [])

def text (t : Token κ) : String :=
  "CancellationToken(cancelled=" ++ (if t.fired then "True" else "False") ++ ")"

end HubContract.Token
