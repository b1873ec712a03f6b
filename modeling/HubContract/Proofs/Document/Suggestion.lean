import HubContract.Proofs.Contract.Suggestion
import HubContract.Proofs.Document.Fixing
import HubContract.Proofs.Document.Provenance
import HubContract.Proofs.Document.RoundTrip

namespace HubContract.Document

open Relation

variable {d : Document} {decl : Declaration} {marker : HubMarker} {k : Contract} {f : Fix}

-- A fix is for a method that is declared.
theorem exists_method_of_suggests (contract : d.IsContract decl marker k)
    (found : d.get? decl.name = some decl) (canonical : decl.IsCanonical) (h : k.Suggests f) :
    ∃ e, d.get? f.declaration = some e ∧ ∃ m ∈ e.methods, m.signatureKey = f.method := by
  cases h with
  | @move w kind s separated walked moves side =>
    obtain ⟨e, declared, inside, -⟩ :=
      exists_declaration_of_mem_walk (unfolds_ownSet contract found canonical) walked
    exact ⟨e, declared, w.method, inside, rfl⟩
  | @retype role w played refused =>
    obtain ⟨e, declared, -, first⟩ := exists_declaration_of_mem_methodsOf contract found canonical played
    rw [Rule.declaration_shapeFix, Rule.method_shapeFix]
    exact ⟨e, declared, w.method, List.mem_of_find?_eq_some first, rfl⟩

-- A method is moved from what the bridge leads to.
theorem extends_of_suggests_move (contract : d.IsContract decl marker k)
    (found : d.get? decl.name = some decl) (canonical : decl.IsCanonical) (h : k.Suggests f)
    (moves : f.kind.isMove) : ReflTransGen d.Extends decl.name f.declaration := by
  obtain ⟨w, walked, s, -, fix⟩ := h.exists_of_move moves
  obtain ⟨-, -, -, path⟩ :=
    exists_declaration_of_mem_walk (unfolds_ownSet contract found canonical) walked
  exact fix ▸ path

-- It is moved to a side that is declared.
theorem target_of_suggests_move (contract : d.IsContract decl marker k) (h : k.Suggests f)
    (moves : f.kind.isMove) : f.target ∈ marker.sides ∧ ∃ e, d.get? f.target = some e := by
  obtain ⟨s, side, named⟩ := Option.map_eq_some_iff.mp (h.target_eq_of_move moves)
  have unfolds : ∃ n ∈ marker.sides, d.Unfolds n s := by
    cases kind : f.kind with
    | moveToPush =>
      rw [kind] at side
      obtain ⟨n, there, unfolds⟩ := exists_unfolds_of_rel contract.push side
      exact ⟨n, List.mem_append_left _ (Option.mem_toList.mpr there), unfolds⟩
    | moveToInvoke =>
      rw [kind] at side
      obtain ⟨n, there, unfolds⟩ := exists_unfolds_of_rel contract.invoke side
      exact ⟨n, List.mem_append_right _ (Option.mem_toList.mpr there), unfolds⟩
    | dropPayload | wrapUnitAsync | wrapValueAsync =>
      rw [kind] at side
      cases side
  obtain ⟨n, there, unfolds⟩ := unfolds
  obtain ⟨e, declared, -⟩ := unfolds.found
  rw [← named, unfolds.name_eq]
  exact ⟨there, e, declared⟩

theorem admits_of_suggests (contract : d.IsContract decl marker k)
    (found : d.get? decl.name = some decl) (canonical : decl.IsCanonical) (h : k.Suggests f) :
    d.Admits f := by
  obtain ⟨e, declared, -⟩ := exists_method_of_suggests contract found canonical h
  refine ⟨by simp [declared], fun moves => ?_⟩
  obtain ⟨-, target, declared'⟩ := target_of_suggests_move contract h moves
  simp [declared']

-- A bridge between two sides, with a method that can be moved to either of them.
def loungeMarker : HubMarker where
  uri := "lounge"
  push := some "ILoungeEvents"
  invoke := some "ILoungeCalls"

def loungeBridge : Declaration where
  name := "ILounge"
  methods := [{ name := "Ping", owner := "ILounge" }]
  hubClient := some loungeMarker

def loungeEvents : Declaration := { name := "ILoungeEvents" }

def loungeCalls : Declaration := { name := "ILoungeCalls" }

def lounge : Document := ⟨[loungeBridge, loungeEvents, loungeCalls], []⟩

def loungeContract : Contract where
  name := "ILounge"
  uri := "lounge"
  pushSet := some { name := "ILoungeEvents" }
  invokeSet := some { name := "ILoungeCalls" }
  methods := [{ name := "Ping", owner := "ILounge" }]

theorem ofData_lounge : ofData lounge.toData = .ok lounge := by rfl

theorem lounge_clients : ("ILounge", .ok loungeContract) ∈ lounge.discover.clients := by
  have events : lounge.Unfolds "ILoungeEvents" ⟨"ILoungeEvents", [], []⟩ :=
    .of_forall₂ (e := loungeEvents) rfl .nil
  have calls : lounge.Unfolds "ILoungeCalls" ⟨"ILoungeCalls", [], []⟩ :=
    .of_forall₂ (e := loungeCalls) rfl .nil
  have contract : lounge.IsContract loungeBridge loungeMarker loungeContract :=
    ⟨rfl, rfl, rfl, rfl, .some events, .some calls, .nil⟩
  exact mem_clients_of_isContract (distinct_of_ofData ofData_lounge) rfl rfl ⟨_, rfl⟩ contract

end HubContract.Document
