import HubContract.Proofs.Document.Module
import HubContract.Proofs.Document.Refusal

namespace HubContract

-- A hub client with what was found for it.
structure Found where
  declaration : Declaration
  marker : HubMarker
  outcome : Except (List Diagnostic) Contract

namespace Found

def binding (c : Found) : String := Contract.bindingNameOf c.declaration.name c.marker.name

def moduleName (c : Found) : String := Naming.moduleName c.binding

def IsRejected (code : Code) (c : Found) : Prop := ∃ ds, c.outcome = .error ds ∧ ∃ δ ∈ ds, δ.code = code

-- Not rejected for its name, whatever else may be wrong with it.
def IsAccepted (c : Found) : Prop :=
  ¬c.IsRejected .invalidBindingName ∧ ¬c.IsRejected .duplicateBindingName

-- The modules that clients take.
def Takes (cs : List Found) (m : String) : Prop := ∃ c ∈ cs, c.IsAccepted ∧ c.moduleName = m

end Found

namespace Document

open HubContract.Text

def clientsOf (es : List Declaration) : List (Declaration × HubMarker) :=
  es.filterMap fun e => e.hubClient.map (e, ·)

-- A name of a binding that classes can have and whose module is not kept for the package.
def IsUsable (c : Found) : Prop := isIdentifier c.binding ∧ c.moduleName ∉ reservedModules

-- What becomes of a hub client, by the modules that are taken: its binding has to be usable, and then its
-- module free. A client that is rejected for one of these is rejected for nothing else, and all others are
-- resolved.
structure IsJudged (d : Document) (taken : String → Prop) (c : Found) : Prop where
  unusable : c.IsRejected .invalidBindingName ↔ ¬IsUsable c
  clash : c.IsRejected .duplicateBindingName ↔ IsUsable c ∧ taken c.moduleName
  single : ¬c.IsAccepted → ∃ δ, c.outcome = .error [δ]
  resolved : c.IsAccepted → c.outcome = d.resolveClient c.declaration c.marker

variable {d : Document} {e : Declaration} {marker : HubMarker} {claims claims' : Claims} {c : Found}

theorem isUsableBinding_iff : isUsableBinding c.binding ↔ IsUsable c := by
  simp [isUsableBinding, IsUsable, Found.moduleName]

-- Why a module cannot be claimed.
theorem of_claimModule_error {name : String} {friendly : Option String} {δ : Diagnostic}
    (refused : claimModule claims name friendly = .error δ) :
    let binding := Contract.bindingNameOf name friendly
    ¬isUsableBinding binding ∧ δ.code = .invalidBindingName ∨
      isUsableBinding binding ∧ claims.lookup (Naming.moduleName binding) ≠ none ∧
        δ.code = .duplicateBindingName := by
  unfold claimModule at refused
  dsimp only at refused ⊢
  split at refused
  case isTrue usable =>
    split at refused
    case h_1 => cases refused
    case h_2 owner taken =>
      obtain rfl := Except.error.inj refused
      exact .inr ⟨usable, by simp [taken], rfl⟩
  case isFalse unusable =>
    obtain rfl := Except.error.inj refused
    exact .inl ⟨unusable, rfl⟩

theorem isRejected_iff_of_single {code : Code} {δ : Diagnostic} (single : c.outcome = .error [δ]) :
    c.IsRejected code ↔ δ.code = code := by
  constructor
  · rintro ⟨ds, failed, δ', inside, rfl⟩
    obtain rfl := Except.error.inj (single.symm.trans failed)
    rw [List.mem_singleton.mp inside]
  · exact fun same => ⟨_, single, δ, List.mem_singleton_self δ, same⟩

-- Names that cannot be resolved are reported under other codes.
theorem isAccepted_of_resolveClient
    (resolved : c.outcome = d.resolveClient c.declaration c.marker) : c.IsAccepted := by
  have codes {code : Code} (rejected : c.IsRejected code) :
      code = .unresolvedReference ∨ code = .inheritanceCycle := by
    obtain ⟨ds, failed, δ, inside, rfl⟩ := rejected
    obtain ⟨ps, -, rfl⟩ := resolveClient_eq_error_iff.mp (resolved.symm.trans failed)
    obtain ⟨p, -, reports⟩ := exists_of_mem_diagnosticsFrom inside
    rw [reports.1]
    cases p with
    | undeclared => exact .inl rfl
    | cycle => exact .inr rfl
  exact ⟨fun rejected => by simpa using codes rejected, fun rejected => by simpa using codes rejected⟩

section

variable {δ : Diagnostic}

-- A hub client is judged by the modules that are claimed.

theorem isJudged_of_refused (refused : claimModule claims e.name marker.name = .error δ) :
    IsJudged d (claims.lookup · ≠ none) ⟨e, marker, .error [δ]⟩ := by
  have usable := isUsableBinding_iff (c := ⟨e, marker, .error [δ]⟩)
  have rejected (code : Code) : Found.IsRejected code ⟨e, marker, .error [δ]⟩ ↔ δ.code = code :=
    isRejected_iff_of_single rfl
  obtain ⟨unusable, code⟩ | ⟨used, taken, code⟩ := of_claimModule_error refused
  · have invalid := (rejected .invalidBindingName).mpr code
    exact ⟨iff_of_true invalid (mt usable.mpr unusable),
      iff_of_false (by simp [rejected, code]) fun both => unusable (usable.mpr both.1), fun _ => ⟨δ, rfl⟩,
      fun accepted => absurd invalid accepted.1⟩
  · have duplicate := (rejected .duplicateBindingName).mpr code
    exact ⟨iff_of_false (by simp [rejected, code]) (not_not_intro (usable.mp used)),
      iff_of_true duplicate ⟨usable.mp used, taken⟩, fun _ => ⟨δ, rfl⟩,
      fun accepted => absurd duplicate accepted.2⟩

theorem isJudged_of_claimed (claimed : claimModule claims e.name marker.name = .ok claims') :
    IsJudged d (claims.lookup · ≠ none) ⟨e, marker, d.resolveClient e marker⟩ := by
  obtain ⟨usable, free, -⟩ := of_claimModule claimed
  have usable := (isUsableBinding_iff (c := ⟨e, marker, d.resolveClient e marker⟩)).mp usable
  have accepted : Found.IsAccepted ⟨e, marker, d.resolveClient e marker⟩ := isAccepted_of_resolveClient rfl
  exact ⟨iff_of_false accepted.1 (not_not_intro usable), iff_of_false accepted.2 fun both => both.2 free,
    fun refused => absurd accepted refused, fun _ => rfl⟩

theorem not_isAccepted_of_refused (refused : claimModule claims e.name marker.name = .error δ) :
    ¬Found.IsAccepted ⟨e, marker, .error [δ]⟩ := by
  intro accepted
  obtain ⟨-, code⟩ | ⟨-, -, code⟩ := of_claimModule_error refused
  · exact accepted.1 ((isRejected_iff_of_single rfl).mpr code)
  · exact accepted.2 ((isRejected_iff_of_single rfl).mpr code)

-- What is taken by now was taken before, or by the client that was looked at.

theorem takes_cons {cs : List Found} {m : String} :
    Found.Takes (c :: cs) m ↔ c.IsAccepted ∧ c.moduleName = m ∨ Found.Takes cs m := by
  simp [Found.Takes]

theorem takes_of_refused (refused : claimModule claims e.name marker.name = .error δ) (cs : List Found)
    (m : String) : claims.lookup m ≠ none ∨ Found.Takes cs m ↔
      claims.lookup m ≠ none ∨ Found.Takes (⟨e, marker, .error [δ]⟩ :: cs) m := by
  have others : Found.Takes (⟨e, marker, .error [δ]⟩ :: cs) m ↔ Found.Takes cs m :=
    takes_cons.trans (or_iff_right fun both => not_isAccepted_of_refused refused both.1)
  rw [others]

theorem takes_of_claimed (claimed : claimModule claims e.name marker.name = .ok claims') (cs : List Found)
    (m : String) : claims'.lookup m ≠ none ∨ Found.Takes cs m ↔
      claims.lookup m ≠ none ∨ Found.Takes (⟨e, marker, d.resolveClient e marker⟩ :: cs) m := by
  obtain ⟨-, -, rfl⟩ := of_claimModule claimed
  have accepted : Found.IsAccepted ⟨e, marker, d.resolveClient e marker⟩ := isAccepted_of_resolveClient rfl
  let own := Naming.moduleName (Contract.bindingNameOf e.name marker.name)
  have added : List.lookup m ((own, e.name) :: claims) ≠ none ↔ own = m ∨ claims.lookup m ≠ none := by
    rw [List.lookup_cons]
    split
    case h_1 same => simp [eq_of_beq same]
    case h_2 other => simp [(ne_of_beq_false other).symm]
  rw [takes_cons, and_iff_right accepted, added, or_comm (a := _ = m), or_assoc]
  rfl

end

-- The hub clients among some declarations with what is found for them, each judged by what is claimed already
-- and by those in front of it.
structure Settles (d : Document) (claims : Claims) (es : List Declaration) (found : List Found) : Prop where
  hubs : found.map (fun c => (c.declaration, c.marker)) = clientsOf es
  clients : found.map (fun c => (c.declaration.name, c.outcome)) = d.outcomes claims es
  judged : ∀ front c back, found = front ++ c :: back →
    IsJudged d (fun m => claims.lookup m ≠ none ∨ Found.Takes front m) c

-- One more hub client in front of the others, which are judged by what is claimed after it.
theorem Settles.cons {es : List Declaration} {found : List Found}
    {outcome : Except (List Diagnostic) Contract} (client : e.hubClient = some marker)
    (comes : d.outcomes claims (e :: es) = (e.name, outcome) :: d.outcomes claims' es)
    (first : IsJudged d (claims.lookup · ≠ none) ⟨e, marker, outcome⟩)
    (later : ∀ cs m, claims'.lookup m ≠ none ∨ Found.Takes cs m ↔
      claims.lookup m ≠ none ∨ Found.Takes (⟨e, marker, outcome⟩ :: cs) m)
    (rest : d.Settles claims' es found) : d.Settles claims (e :: es) (⟨e, marker, outcome⟩ :: found) where
  hubs := by
    rw [List.map_cons, rest.hubs, clientsOf, clientsOf, List.filterMap_cons, client]
    rfl
  clients := by rw [comes, List.map_cons, rest.clients]
  judged front c back split := by
    cases front with
    | nil =>
      obtain ⟨rfl, -⟩ := List.cons.inj split
      simpa [Found.Takes] using first
    | cons _ front =>
      obtain ⟨rfl, behind⟩ := List.cons.inj split
      have judged := rest.judged front c back behind
      rwa [funext fun m => propext (later front m)] at judged

theorem exists_settles (d : Document) (claims : Claims) (es : List Declaration) :
    ∃ found, d.Settles claims es found := by
  induction es generalizing claims with
  | nil => exact ⟨[], rfl, rfl, by simp⟩
  | cons e es ih =>
    cases client : e.hubClient with
    | none =>
      obtain ⟨found, rest⟩ := ih claims
      exact ⟨found, by simpa [clientsOf, client] using rest.hubs,
        by simpa [outcomes, client] using rest.clients, rest.judged⟩
    | some marker =>
      cases claimed : claimModule claims e.name marker.name with
      | error δ =>
        obtain ⟨found, rest⟩ := ih claims
        exact ⟨_, rest.cons client (by simp [outcomes, client, claimed]) (isJudged_of_refused claimed)
          (takes_of_refused claimed)⟩
      | ok claims' =>
        obtain ⟨found, rest⟩ := ih claims'
        exact ⟨_, rest.cons client (by simp [outcomes, client, claimed]) (isJudged_of_claimed claimed)
          (takes_of_claimed claimed)⟩

-- Every hub client is judged by those in front of it.
theorem exists_judged (d : Document) :
    ∃ found : List Found, found.map (fun c => (c.declaration, c.marker)) = clientsOf d.declarations ∧
      found.map (fun c => (c.declaration.name, c.outcome)) = d.discover.clients ∧
      ∀ front c back, found = front ++ c :: back → IsJudged d (Found.Takes front) c := by
  obtain ⟨found, settles⟩ := exists_settles d [] d.declarations
  refine ⟨found, settles.hubs, settles.clients, fun front c back split => ?_⟩
  have judged := settles.judged front c back split
  simpa using judged

end Document

end HubContract
