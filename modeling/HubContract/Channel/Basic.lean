namespace HubContract

-- Why a wait ends without a value.
inductive WaitFailure where
  -- its token had fired before it began
  | firedBefore
  -- its token fired while it stood in line
  | canceled
  -- the channel was reset while it stood in line
  | closed
  deriving DecidableEq, Repr, Inhabited

def WaitFailure.message : WaitFailure → String
  | .firedBefore => "The operation was canceled"
  | .canceled => "The wait was canceled"
  | .closed => "The channel was reset"

inductive Ending (α : Type) where
  | value (value : α)
  | failed (failure : WaitFailure)
  -- its task was cancelled
  | abandoned
  deriving DecidableEq, Repr

inductive Phase (α : Type) where
  -- started, and has not looked at anything yet
  | fresh
  | inLine
  -- given a value, of which it has not learned yet
  | handed (value : α)
  -- refused, of which it has not learned yet
  | refused (failure : WaitFailure)
  -- its task was cancelled in line, of which it has not learned yet
  | dropped
  | ended (ending : Ending α)
  deriving DecidableEq, Repr

instance : Inhabited (Phase α) := ⟨.fresh⟩

-- A wait begins by looking at its token and the buffer. If there is nothing to take it stands in
-- line until something is decided about it, and learns of that when it resumes.
structure Wait (α : Type) where
  token : Option Nat := none
  phase : Phase α := .fresh
  -- The number of resets before it stood in line.
  generation : Nat := 0
  -- Whether its task is to be cancelled when it goes on.
  doomed : Bool := false
  deriving DecidableEq, Repr, Inhabited

-- An unbounded buffer of values and a line of waits. A value is handed to the oldest wait in line,
-- or kept in the buffer. A reset empties the buffer and refuses all who stand in line.
structure Channel (α : Type) where
  items : List α := []
  -- The waits in line, the oldest first. Those that were dropped leave it when they resume.
  line : List Nat := []
  -- The number of resets so far.
  generation : Nat := 0
  -- All waits that were ever started, by their number.
  waits : List (Wait α) := []
  deriving DecidableEq, Repr, Inhabited

namespace Channel

variable {α : Type}

def wait? (c : Channel α) (w : Nat) : Option (Wait α) := c.waits[w]?

def phase? (c : Channel α) (w : Nat) : Option (Phase α) := (c.wait? w).map (·.phase)

def update (c : Channel α) (w : Nat) (f : Wait α → Wait α) : Channel α :=
  { c with waits := c.waits.modify w f }

def setPhase (c : Channel α) (w : Nat) (p : Phase α) : Channel α :=
  c.update w fun x => { x with phase := p }

def isInLine (c : Channel α) (w : Nat) : Bool :=
  match c.phase? w with
  | some .inLine => true
  | _ => false

-- Start a wait, which gets the next number.
def start (c : Channel α) (token : Option Nat) : Channel α :=
  { c with waits := c.waits ++ [{ token }] }

-- Hand a value to the oldest wait that still stands in line, or keep it.
def publish (c : Channel α) (value : α) : Channel α :=
  match c.line.dropWhile (!c.isInLine ·) with
  | [] => { c with line := [], items := c.items ++ [value] }
  | w :: rest => { c with line := rest }.setPhase w (.handed value)

-- A wait begins: unless it must end at once it takes the first value, or stands in line.
def begin (c : Channel α) (w : Nat) (fired : Bool) : Channel α :=
  match c.wait? w with
  | some { phase := .fresh, doomed, .. } =>
    if doomed then c.setPhase w (.ended .abandoned)
    else if fired then c.setPhase w (.ended (.failed .firedBefore))
    else
      match c.items with
      | value :: rest => { c with items := rest }.setPhase w (.ended (.value value))
      | [] => { c with line := c.line ++ [w] }.update w fun x =>
          { x with phase := .inLine, generation := c.generation }
  | _ => c

-- A wait learns what was decided about it. One whose task was cancelled in the meantime puts its
-- value back, unless the channel was reset since.
def resume (c : Channel α) (w : Nat) : Channel α :=
  let c := match c.wait? w with
    | some { phase := .handed value, doomed := false, .. } => c.setPhase w (.ended (.value value))
    | some { phase := .handed value, doomed := true, generation, .. } =>
      { c with items := if generation = c.generation then value :: c.items else c.items }.setPhase w
        (.ended .abandoned)
    | some { phase := .refused failure, doomed := false, .. } =>
      c.setPhase w (.ended (.failed failure))
    | some { phase := .refused _, doomed := true, .. } => c.setPhase w (.ended .abandoned)
    | some { phase := .dropped, .. } => c.setPhase w (.ended .abandoned)
    | _ => c
  { c with line := c.line.erase w }

-- Take a wait out of the line because its token fired.
def dismiss (c : Channel α) (w : Nat) : Channel α :=
  if c.isInLine w then { c with line := c.line.erase w }.setPhase w (.refused .canceled) else c

-- Cancel the task of a wait.
def abandon (c : Channel α) (w : Nat) : Channel α :=
  match c.phase? w with
  | some .inLine => c.setPhase w .dropped
  | some (.ended _) | none => c
  | some _ => c.update w fun x => { x with doomed := true }

def close (c : Channel α) : Channel α :=
  c.line.foldl (fun c w => if c.isInLine w then c.setPhase w (.refused .closed) else c) c

-- Empty the buffer and refuse everyone in line.
def reset (c : Channel α) : Channel α :=
  { c.close with items := [], line := [], generation := c.generation + 1 }

-- How a wait ended, if it has.
def ending? (c : Channel α) (w : Nat) : Option (Ending α) :=
  match c.phase? w with
  | some (.ended e) => some e
  | _ => none

-- Whether something was decided about a wait that it has not learned yet.
def isWoken (c : Channel α) (w : Nat) : Bool :=
  match c.phase? w with
  | some (.handed _) | some (.refused _) | some .dropped => true
  | _ => false

-- The waits that `after` has woken and `before` had not.
def newlyWoken (before after : Channel α) : List Nat :=
  (List.range after.waits.length).filter fun w => after.isWoken w && !before.isWoken w

end HubContract.Channel
