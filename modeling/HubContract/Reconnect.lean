import HubContract.Data.Check

namespace HubContract

open HubContract.Number

structure BackoffTier where
  attempts : Nat
  -- In seconds. Never below zero, but possibly infinite.
  delay : Binary64
  deriving DecidableEq, Repr

namespace BackoffTier

def toJson (t : BackoffTier) : Json :=
  .object [("attempts", .int t.attempts), ("delay_seconds", .ofFloat t.delay)]

def checkAttempts (d : Data) : Check Nat :=
  d.checkInt.bind fun n => if 0 ≤ n then .ok n.toNat else .fail .belowMinimum

-- Zero or more; what is no number is not.
def checkDelay (number : Data → Check Binary64) (d : Data) : Check Binary64 :=
  (number d).bind fun x => if x = .nan ∨ x.isNegative then .fail .belowMinimum else .ok x

-- A tier whose delay is read by `number`.
def checkWith (number : Data → Check Binary64) : Data → Check BackoffTier :=
  Data.checkRecord fun d =>
    mk <$> d.field "attempts" checkAttempts <*> d.field "delay_seconds" (checkDelay number)

end BackoffTier

structure ReconnectPolicy where
  tiers : List BackoffTier
  deriving DecidableEq, Repr

namespace ReconnectPolicy

-- Ten quick attempts, five slower ones, and two after a long wait.
def standard : ReconnectPolicy :=
  ⟨[⟨10, .ofNat 1⟩, ⟨5, .ofNat 3⟩, ⟨2, .ofNat 10⟩]⟩

instance : Inhabited ReconnectPolicy := ⟨standard⟩

-- The greatest number of entries that a list can count.
def maxCount : Nat := 9223372036854775807

-- The delay of a tier once for each of its attempts, behind the delays of the tiers in front. There is room
-- for `room` entries.
def extend (room : Nat) (delays : List Binary64) (t : BackoffTier) : Except Fault (List Binary64) :=
  if t.attempts > maxCount then .error .overflow
  else if delays.length + t.attempts > room then .error .memory
  else .ok (delays ++ List.replicate t.attempts t.delay)

-- One delay for each attempt.
def delays (room : Nat) (p : ReconnectPolicy) : Except Fault (List Binary64) :=
  p.tiers.foldlM (extend room) []

def totalAttempts (p : ReconnectPolicy) : Nat :=
  p.tiers.foldr (fun t n => t.attempts + n) 0

-- The delay in front of an attempt, which are counted from zero; none is the signal to give up. The
-- attempt is given as a value: a fraction may be beyond all attempts but is none of them.
def nextDelay (room : Nat) (p : ReconnectPolicy) (attempt : Data) :
    Except Fault (Option Binary64) := do
  let delays ← p.delays room
  match attempt with
  | .float x =>
    match x.toUnits? with
    | some n =>
      if 0 ≤ n ∧ n < (delays.length : Int) * (Nat.pow 2 1074 : Nat) then .error .kind else .ok none
    | none => .ok none
  | attempt =>
    let n ← attempt.whole
    return if 0 ≤ n then delays[n.toNat]? else none

-- Equality of the numbers in two policies.
def same (p q : ReconnectPolicy) : Bool :=
  p.tiers.length = q.tiers.length &&
    (p.tiers.zip q.tiers).all fun (s, t) => s.attempts = t.attempts && s.delay.numEq t.delay

def toJson (p : ReconnectPolicy) : Json := .object [("tiers", .ofList BackoffTier.toJson p.tiers)]

-- A policy whose delays are read by `number`.
def checkWith (number : Data → Check Binary64) : Data → Check ReconnectPolicy :=
  Data.checkRecord fun d =>
    mk <$> d.fieldOr "tiers" standard.tiers (Data.checkList (BackoffTier.checkWith number))

def check : Data → Check ReconnectPolicy := checkWith Data.checkFloat

end HubContract.ReconnectPolicy
