import HubContract.Endpoint.Await

namespace HubContract

namespace Endpoint

-- Run a step. What it did stays done, whatever its outcome.
def perform {α : Type} (e : Endpoint) (x : Act α) : Except Halt α × Endpoint := x.run e

-- Start a task for a pending call. It begins in a later turn.
def startTask (e : Endpoint) (p : Pending) : Nat × Endpoint :=
  let n := e.tasks.length
  (n, { e with
    tasks := e.tasks ++ [.fresh p false]
    loop := { e.loop with ready := e.loop.ready ++ [.task n] } })

def setTask (e : Endpoint) (n : Nat) (t : Task) : Endpoint := { e with tasks := e.tasks.set n t }

def beginTask (e : Endpoint) (n : Nat) : Endpoint :=
  match e.tasks[n]? with
  | some (.fresh _ true) => e.setTask n .dropped
  | some (.fresh p false) =>
    match e.perform (Act.await (.pending p)) with
    | (.ok v, e) => e.setTask n (.ended (.ok v))
    | (.error (.error c), e) => e.setTask n (.ended (.error c))
    | (.error (.waiting w keeps), e) => e.setTask n (.waiting w keeps)
  | _ => e

-- Cancel a task.
def cancelTask (e : Endpoint) (n : Nat) : Endpoint :=
  match e.tasks[n]? with
  | some (.fresh p _) => e.setTask n (.fresh p true)
  | some (.waiting w _) => { e with loop := e.loop.abandon w }
  | _ => e

-- How a task ended.
inductive TaskEnd where
  | result (result : Except CallError Value)
  | dropped

def taskEnd? (e : Endpoint) (n : Nat) : Option TaskEnd :=
  match e.tasks[n]? with
  | some (.ended r) => some (.result r)
  | some .dropped => some .dropped
  | some (.waiting w keeps) => (e.loop.ending? w).map fun
    | .value v => .result (.ok (if keeps then v else .null))
    | .failed f => .result (.error (.wait f))
    | .abandoned => .dropped
  | some (.fresh ..) | none => none

-- Do what is first in order.
def turn (e : Endpoint) : Endpoint :=
  match e.loop.ready with
  | .task n :: rest => { e with loop := { e.loop with ready := rest } }.beginTask n
  | _ => { e with loop := e.loop.turn }

def turns : Nat → Endpoint → Endpoint
  | 0, e => e
  | n + 1, e => if e.loop.ready.isEmpty then e else turns n e.turn

-- Each task begins once, and each wait is dismissed once and resumes once.
def bound (e : Endpoint) : Nat :=
  let waits := (List.range e.channelCount).foldr (fun n k => (e.loop.channel n).waits.length + k) 0
  e.loop.bound + 3 * (e.tasks.length + waits)

-- Take turns until there is nothing left to do.
def settle (e : Endpoint) : Endpoint :=
  let e := { e with loop := e.loop.ripen }
  turns e.bound e

end Endpoint

end HubContract
