import HubContract.Proofs.Document.Moving
import HubContract.Proofs.Document.Suggestion
import HubContract.Proofs.Engine.Report

namespace HubContract.Engine

open HubContract.Document Relation

variable {d : Document} {o : Options} {g : Diagnostic} {f : Fix}

-- A report about a method on the bridge comes from a contract that was resolved, and suggests moves.
theorem exists_suggests_of_reported (reported : g ∈ (d.compile o).diagnostics)
    (code : g.code = .methodOnBridge) (inside : f ∈ g.fixes) :
    ∃ name k, (name, .ok k) ∈ d.discover.clients ∧ k.Suggests f ∧ f.kind.isMove := by
  have settled (refusal : g.IsRefusal CompiledFake.refusals) : False := by
    have named := refusal.code
    rw [code] at named
    exact absurd named (by decide)
  obtain ⟨c, compiled, reported⟩ := (exists_contract_of_reported reported).resolve_right settled
  obtain ⟨k, found, error⟩ := exists_error_of_reported compiled reported (by rw [code]; decide)
  obtain ⟨suggests, moves⟩ := Contract.suggests_of_mem_errors error inside
  exact ⟨_, k, found, suggests, moves.mpr code⟩

-- A suggested move goes from a declaration that a bridge leads to, to a side of that bridge. It takes the
-- first method with its signature there and changes nothing else, exactly if the side is not that
-- declaration itself; else the method is there once more afterwards.
theorem move_conserves_iff {x : Data} (read : ofData x = .ok d) (o : Options)
    (reported : g ∈ (d.compile o).diagnostics) (code : g.code = .methodOnBridge) (inside : f ∈ g.fixes) :
    f.kind.isMove ∧
    (∃ bridge marker, d.get? bridge.name = some bridge ∧ bridge.hubClient = some marker ∧
      f.target ∈ marker.sides ∧ ReflTransGen d.Extends bridge.name f.declaration) ∧
    ∃ decl target before m after d', d.Finds f decl before m after ∧ d.get? f.target = some target ∧
      d.applyFix f = .ok d' ∧
      (d.Moves decl target before m after d' ↔ f.declaration ≠ f.target) ∧
      (f.declaration = f.target → d.Repeats decl m d') := by
  have canonical := isCanonical_of_ofData read
  obtain ⟨name, k, found, suggests, moves⟩ := exists_suggests_of_reported reported code inside
  obtain ⟨bridge, marker, declared, rfl, client, contract⟩ := exists_client canonical.distinct found
  have readable := canonical.of_get? declared
  obtain ⟨side, target, found'⟩ := target_of_suggests_move contract suggests moves
  obtain ⟨decl, there, met⟩ := exists_method_of_suggests contract declared readable suggests
  obtain ⟨before, m, after, finds⟩ := exists_finds there met
  have name : decl.name = f.declaration := get?_name there
  have name' : target.name = f.target := get?_name found'
  refine ⟨moves, ⟨bridge, marker, declared, client, side,
    extends_of_suggests_move contract declared readable suggests moves⟩,
    decl, target, before, m, after, _, finds, found', finds.applyFix moves found', ?_, fun same => ?_⟩
  · rw [← name, ← name']
    exact moves_withMoved_iff canonical.distinct (name ▸ there) (name' ▸ found') finds.methods
  · obtain rfl : decl = target := Option.some.inj (there.symm.trans (same ▸ found'))
    exact repeats_withMoved canonical.distinct (name ▸ there)

def loungeMove : Fix :=
  Rule.moveFix ⟨{ name := "Ping", owner := "ILounge" }, .push, "ILounge"⟩ .moveToPush "ILoungeEvents"

theorem move_conserves_iff_lounge :
    ofData lounge.toData = .ok lounge ∧
      ∃ g ∈ (lounge.compile {}).diagnostics, g.code = .methodOnBridge ∧ loungeMove ∈ g.fixes ∧
        ∃ decl target before m after d', lounge.Finds loungeMove decl before m after ∧
          lounge.applyFix loungeMove = .ok d' ∧ lounge.Moves decl target before m after d' := by
  have suggested : loungeMove ∈ loungeContract.fixes := by decide +kernel
  obtain ⟨g, reported, inside, moves⟩ := exists_reported_of_mem_fixes {} lounge_clients suggested
  have code := moves.mp rfl
  obtain ⟨-, -, decl, target, before, m, after, d', finds, -, applied, moved, -⟩ :=
    move_conserves_iff ofData_lounge {} reported code inside
  exact ⟨ofData_lounge, g, reported, code, inside, decl, target, before, m, after, d', finds, applied,
    moved.mpr (by decide)⟩

-- A bridge that extends its own push side.
def chatMarker : HubMarker := { uri := "chat", push := some "IEvents" }

def chatBridge : Declaration := { name := "IChat", parents := ["IEvents"], hubClient := some chatMarker }

def chatEvents (methods : List Method) : Declaration := { name := "IEvents", methods }

def chatOnEvents (methods : List Method) : Document := ⟨[chatEvents methods, chatBridge], []⟩

def chatOnEventsContract (methods : List Method) : Contract where
  name := "IChat"
  uri := "chat"
  pushSet := some { name := "IEvents", methods }
  ancestors := [{ name := "IEvents", methods }]

def eventsPing : Method := { name := "Ping", owner := "IEvents" }

def eventsMove : Fix := Rule.moveFix ⟨eventsPing, .push, "IEvents"⟩ .moveToPush "IEvents"

theorem chatOnEvents_clients (methods : List Method) :
    ("IChat", .ok (chatOnEventsContract methods)) ∈ (chatOnEvents methods).discover.clients := by
  have events : (chatOnEvents methods).Unfolds "IEvents" ⟨"IEvents", methods, []⟩ :=
    .of_forall₂ (e := chatEvents methods) rfl .nil
  have contract : (chatOnEvents methods).IsContract chatBridge chatMarker (chatOnEventsContract methods) :=
    ⟨rfl, rfl, rfl, rfl, .some events, .none, .cons events .nil⟩
  have distinct : (chatOnEvents methods).Distinct := (by decide : ["IEvents", "IChat"].Nodup)
  exact mem_clients_of_isContract distinct rfl rfl ⟨_, rfl⟩ contract

-- The only method is moved to where it stands, and there are two.
theorem move_conserves_iff_ownSide :
    let d := chatOnEvents [eventsPing]
    ofData d.toData = .ok d ∧
      (∃ g ∈ (d.compile {}).diagnostics, g.code = .methodOnBridge ∧ eventsMove ∈ g.fixes) ∧
      ∃ d', d.applyFix eventsMove = .ok d' ∧ d.methods.length = 1 ∧ d'.methods.length = 2 := by
  intro d
  have suggested : eventsMove ∈ (chatOnEventsContract [eventsPing]).fixes := by decide +kernel
  obtain ⟨g, reported, inside, moves⟩ :=
    exists_reported_of_mem_fixes {} (chatOnEvents_clients [eventsPing]) suggested
  have applied : d.applyFix eventsMove = .ok (chatOnEvents [eventsPing, eventsPing]) := rfl
  exact ⟨by rfl, ⟨g, reported, moves.mp rfl, inside⟩, _, applied, rfl, rfl⟩

end HubContract.Engine
