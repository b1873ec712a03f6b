import HubContract.Document.Fixing
import HubContract.Engine

namespace HubContract

structure RepairRound where
  before : Document
  compilation : Compilation
  -- The chosen fixes and the document that they leave.
  outcome : Except FixError (List Fix × Document)

namespace RepairRound

-- One round with the fixes that have the given keys, or else the first fix of every diagnostic.
def run (o : Options) (keys : Option (List String)) (before : Document) : RepairRound where
  before
  compilation := before.compile o
  outcome := do
    let fixes ← Fix.select (before.compile o).diagnostics keys
    return (fixes, ← before.applyAll fixes)

end RepairRound

-- A number of rounds, of which one that cannot be finished is the last. Keys choose fixes in the
-- first round only.
def Document.repair (o : Options) (keys : Option (List String)) : Nat → Document → List RepairRound
  | 0, _ => []
  | n + 1, d =>
    let round := RepairRound.run o keys d
    round :: match round.outcome with
      | .error _ => []
      | .ok (_, after) => after.repair o none n

end HubContract
