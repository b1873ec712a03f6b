import HubContract.Proofs.Document.Suggestion
import HubContract.Proofs.Engine.Report

namespace HubContract

-- Fixes that make the same change, whatever their titles.
structure Fix.Agrees (f f' : Fix) : Prop where
  kind : f.kind = f'.kind
  declaration : f.declaration = f'.declaration
  method : f.method = f'.method
  target : f.target = f'.target

namespace Contract

variable {k k' : Contract} {f f' : Fix}

-- The side to which a fix of a kind moves methods, by name.
def targetOf (k : Contract) (kind : FixKind) : Option String := (k.sideFor kind).map (·.name)

-- Moves of one method agree if they go to one side.
theorem Suggests.target_eq_iff (h : k.Suggests f) (h' : k'.Suggests f') (kinds : f.kind = f'.kind)
    (moves : f.kind.isMove) : f.target = f'.target ↔ k.targetOf f.kind = k'.targetOf f.kind := by
  have target : k.targetOf f.kind = some f.target := h.target_eq_of_move moves
  have target' : k'.targetOf f.kind = some f'.target := kinds ▸ h'.target_eq_of_move (kinds ▸ moves)
  rw [target, target', Option.some.injEq]

end Contract

namespace Document

variable {d : Document} {decl decl' : Declaration} {marker marker' : HubMarker} {k k' : Contract}
  {f f' : Fix}

-- Two contracts that both have sides, or both have none, see the same method behind a signature.
theorem target_eq_of_suggests_retype (canonical : d.IsCanonical)
    (found : d.get? decl.name = some decl) (found' : d.get? decl'.name = some decl')
    (contract : d.IsContract decl marker k) (contract' : d.IsContract decl' marker' k')
    (sides : k.isSeparated = k'.isSeparated) (h : k.Suggests f) (h' : k'.Suggests f')
    (retypes : f.kind.isMove = false) (kinds : f.kind = f'.kind)
    (declarations : f.declaration = f'.declaration) (methods : f.method = f'.method) :
    f.target = f'.target := by
  obtain ⟨role, w, played, rfl⟩ := h.exists_of_not_move retypes
  obtain ⟨role', w', played', rfl⟩ := h'.exists_of_not_move (kinds ▸ retypes)
  rw [Rule.declaration_shapeFix, Rule.declaration_shapeFix] at declarations
  rw [Rule.method_shapeFix, Rule.method_shapeFix] at methods
  refine Rule.target_shapeFix_congr kinds fun invoke invoke' => ?_
  subst invoke invoke'
  obtain ⟨e, declared, -, first⟩ :=
    exists_declaration_of_mem_methodsOf contract found (canonical.of_get? found) played
  obtain ⟨e', declared', -, first'⟩ :=
    exists_declaration_of_mem_methodsOf contract' found' (canonical.of_get? found') played'
  obtain rfl : e = e' := Option.some.inj (declared.symm.trans (declarations ▸ declared'))
  rw [Contract.plays_congr sides, methods, first'] at first
  rw [Option.some.inj first]

end Document

namespace Engine

open HubContract.Document

variable {d : Document} {k k' : Contract} {f f' : Fix}

-- Two bridges that extend one set. The push side of the second may be that of the first, or another.
def alphaMarker : HubMarker := { uri := "alpha", push := some "IAlphaEvents" }

def betaMarker (side : String) : HubMarker := { uri := "beta", push := some side }

def alpha : Declaration := { name := "IAlpha", parents := ["IBase"], hubClient := some alphaMarker }

def beta (side : String) : Declaration :=
  { name := "IBeta", parents := ["IBase"], hubClient := some (betaMarker side) }

def basePing : Method := { name := "Ping", owner := "IBase" }

def base : Declaration := { name := "IBase", methods := [basePing] }

def sharing (told : List Method) (side : String) : Document :=
  ⟨[base, { name := "IAlphaEvents", methods := told }, { name := "IBetaEvents" }, alpha, beta side], []⟩

def alphaContract (told : List Method) : Contract where
  name := "IAlpha"
  uri := "alpha"
  pushSet := some { name := "IAlphaEvents", methods := told }
  ancestors := [{ name := "IBase", methods := [basePing] }]

def betaContract (told : List Method) (side : String) : Contract where
  name := "IBeta"
  uri := "beta"
  pushSet := some { name := side, methods := told }
  ancestors := [{ name := "IBase", methods := [basePing] }]

theorem sharing_clients {told told' : List Method} {side : String} (named : side ≠ "")
    (declared : (sharing told side).get? side = some { name := side, methods := told' }) :
    (sharing told side).discover.clients =
      [("IAlpha", .ok (alphaContract told)), ("IBeta", .ok (betaContract told' side))] := by
  have shared : (sharing told side).Unfolds "IBase" ⟨"IBase", [basePing], []⟩ :=
    .of_forall₂ (e := base) rfl .nil
  have ownSide {n : String} {ms : List Method}
      (declared : (sharing told side).get? n = some { name := n, methods := ms }) :
      (sharing told side).Unfolds n ⟨n, ms, []⟩ :=
    .of_forall₂ (e := { name := n, methods := ms }) declared .nil
  have push : HubMarker.named (some side) = some side := by simp [HubMarker.named, named]
  have contract : (sharing told side).IsContract alpha alphaMarker (alphaContract told) :=
    ⟨rfl, rfl, rfl, rfl, .some (ownSide rfl), .none, .cons shared .nil⟩
  have contract' : (sharing told side).IsContract (beta side) (betaMarker side) (betaContract told' side) :=
    ⟨rfl, rfl, rfl, rfl, push ▸ .some (ownSide declared), .none, .cons shared .nil⟩
  have clients : (sharing told side).discover.clients =
      [("IAlpha", (sharing told side).resolveClient alpha alphaMarker),
        ("IBeta", (sharing told side).resolveClient (beta side) (betaMarker side))] := by
    have first : claimModule [] "IAlpha" none = .ok [("alpha_client", "IAlpha")] := rfl
    have second : claimModule [("alpha_client", "IAlpha")] "IBeta" none =
        .ok [("beta_client", "IBeta"), ("alpha_client", "IAlpha")] := rfl
    simp only [discover, sharing, outcomes, base, alpha, alphaMarker, beta, betaMarker, first, second]
  rw [clients, resolveClient_eq_ok_iff.mpr ((resolveContract_eq_ok_iff rfl).mpr contract),
    resolveClient_eq_ok_iff.mpr ((resolveContract_eq_ok_iff rfl).mpr contract')]

def baseMove (side : String) : Fix := Rule.moveFix ⟨basePing, .push, "IBase"⟩ .moveToPush side

def alphaTold : Method := { name := "Told", returns := ⟨.value, some "int"⟩, owner := "IAlphaEvents" }

def toldFix : Fix := Rule.pushFix ⟨alphaTold, .push, "IAlphaEvents"⟩

-- Selecting by keys gives the last fix that is shown under each, and fixes have one key if they are of one
-- kind and for one place. Where names of declarations have no dots, such fixes of one contract agree. Of
-- two contracts, moves agree exactly if both have the same side, and new return types agree if both have
-- sides or both have none.
theorem selection_by_key (d : Document) (o : Options) :
    let ds := (d.compile o).diagnostics
    let shown := ds.flatMap (·.fixes)
    (∀ keys fs, Fix.select ds (some keys) = .ok fs ↔
      List.Forall₂ (Fix.IsLastWithKey shown) (Fix.distinctKeys keys) fs) ∧
    (∀ f, f ∈ shown ↔ ∃ name k, (name, .ok k) ∈ d.discover.clients ∧ f ∈ k.fixes) ∧
    ∀ name k name' k', (name, .ok k) ∈ d.discover.clients → (name', .ok k') ∈ d.discover.clients →
      ∀ f ∈ k.fixes, ∀ f' ∈ k'.fixes,
        (f.key = f'.key ↔ f.kind = f'.kind ∧ f.place = f'.place) ∧
        (f.key = f'.key → '.' ∉ f.declaration.toList → '.' ∉ f'.declaration.toList →
          (k = k' → f.Agrees f') ∧
          (f.kind.isMove → (f.Agrees f' ↔ k.targetOf f.kind = k'.targetOf f.kind)) ∧
          (f.kind.isMove = false → d.IsCanonical → k.isSeparated = k'.isSeparated → f.Agrees f')) := by
  intro ds shown
  refine ⟨fun keys fs => ?_, fun f => ?_, ?_⟩
  · simp only [Fix.select_eq_ok_iff, Fix.shownUnder?_eq_some_iff]
    rfl
  · rw [← mem_suggestions_iff, ← flatMap_fixes_compile d o]
  · intro name k name' k' found found' f inside f' inside'
    have suggests := Contract.suggests_of_mem_fixes inside
    have suggests' := Contract.suggests_of_mem_fixes inside'
    have keys := suggests.isKeyed.key_eq_iff suggests'.isKeyed
    refine ⟨keys, fun same plain plain' => ?_⟩
    obtain ⟨kinds, places⟩ := keys.mp same
    obtain ⟨declarations, methods⟩ := Fix.eq_of_place_eq plain plain' places
    refine ⟨?_, fun moves => ?_, fun retypes canonical sides => ?_⟩
    · rintro rfl
      exact ⟨kinds, declarations, methods, suggests.target_eq suggests' kinds methods⟩
    · rw [← suggests.target_eq_iff suggests' kinds moves]
      exact ⟨(·.target), fun targets => ⟨kinds, declarations, methods, targets⟩⟩
    · obtain ⟨decl, marker, declared, rfl, -, contract⟩ := exists_client canonical.distinct found
      obtain ⟨decl', marker', declared', rfl, -, contract'⟩ := exists_client canonical.distinct found'
      exact ⟨kinds, declarations, methods, target_eq_of_suggests_retype canonical declared declared'
        contract contract' sides suggests suggests' retypes kinds declarations methods⟩

theorem selection_by_key_oneSide :
    let d := sharing [alphaTold] "IAlphaEvents"
    let k := alphaContract [alphaTold]
    let k' := betaContract [alphaTold] "IAlphaEvents"
    ofData d.toData = .ok d ∧ d.discover.clients = [("IAlpha", .ok k), ("IBeta", .ok k')] ∧
      (∃ f ∈ k.fixes, ∃ f' ∈ k'.fixes, f.kind = .moveToPush ∧ f.Agrees f') ∧
      ∃ f ∈ k.fixes, ∃ f' ∈ k'.fixes, f.kind = .wrapUnitAsync ∧ f.Agrees f' := by
  intro d k k'
  have read : ofData d.toData = .ok d := by rfl
  have clients : d.discover.clients = [("IAlpha", .ok k), ("IBeta", .ok k')] :=
    sharing_clients (by decide) rfl
  have found : ("IAlpha", .ok k) ∈ d.discover.clients := by simp [clients]
  have found' : ("IBeta", .ok k') ∈ d.discover.clients := by simp [clients]
  obtain ⟨-, -, pairs⟩ := selection_by_key d {}
  have agree := pairs "IAlpha" k "IBeta" k' found found'
  have moves : baseMove "IAlphaEvents" ∈ k.fixes ∧ baseMove "IAlphaEvents" ∈ k'.fixes := by
    decide +kernel
  have retypes : toldFix ∈ k.fixes ∧ toldFix ∈ k'.fixes := by decide +kernel
  obtain ⟨-, moved, -⟩ := (agree _ moves.1 _ moves.2).2 rfl (by decide) (by decide)
  obtain ⟨-, -, retyped⟩ := (agree _ retypes.1 _ retypes.2).2 rfl (by decide) (by decide)
  exact ⟨read, clients, ⟨_, moves.1, _, moves.2, rfl, (moved rfl).mpr rfl⟩,
    _, retypes.1, _, retypes.2, rfl, retyped rfl (isCanonical_of_ofData read) rfl⟩

-- Two moves of one method are shown under one key. Asked for the first of them, selection gives the other
-- one.
theorem selection_by_key_otherSide :
    let d := sharing [] "IBetaEvents"
    let ds := (d.compile {}).diagnostics
    ofData d.toData = .ok d ∧
      ds.flatMap (·.fixes) = [baseMove "IAlphaEvents", baseMove "IBetaEvents"] ∧
      (baseMove "IAlphaEvents").key = (baseMove "IBetaEvents").key ∧
      (baseMove "IAlphaEvents").target ≠ (baseMove "IBetaEvents").target ∧
      Fix.select ds (some [(baseMove "IAlphaEvents").key]) = .ok [baseMove "IBetaEvents"] := by
  intro d ds
  have shown : ds.flatMap (·.fixes) = [baseMove "IAlphaEvents", baseMove "IBetaEvents"] := by
    rw [flatMap_fixes_compile, suggestions, sharing_clients (by decide) rfl]
    decide +kernel
  have last : Fix.shownUnder? ds (baseMove "IAlphaEvents").key = some (baseMove "IBetaEvents") := by
    rw [Fix.shownUnder?, shown]
    decide +kernel
  exact ⟨by rfl, shown, rfl, by decide, Fix.select_eq_ok_iff.mpr (.cons last .nil)⟩

end Engine

end HubContract
