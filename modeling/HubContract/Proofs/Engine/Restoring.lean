import HubContract.Proofs.Document.Provenance
import HubContract.Proofs.Document.RoundTrip
import HubContract.Proofs.Engine.Report
import HubContract.Proofs.Pipeline.RoundTrip

namespace HubContract

open HubContract.Text

namespace Document

variable {d : Document} {decl : Declaration} {marker : HubMarker} {k : Contract} {n : String}

mutual

-- A set that a name of a read document unfolds to owns all methods in it.
theorem isClaimed_of_unfolds (canonical : d.IsCanonical) :
    (s : MethodSet) → {n : String} → d.Unfolds n s → s.IsClaimed
  | ⟨name, methods, ancestors⟩, n, unfolds => by
    obtain ⟨e, found, named, declared, each⟩ := unfolds.found
    obtain rfl : name = e.name := named
    obtain rfl : methods = e.methods := declared
    exact ⟨fun m mem => claimedBy_eq_self ((canonical.of_get? found).owned m mem),
      allClaimed_of_unfold canonical ancestors each⟩

theorem allClaimed_of_unfold (canonical : d.IsCanonical) :
    (sets : List MethodSet) → {names : List String} → List.Forall₂ d.Unfolds names sets →
      MethodSet.AllClaimed sets
  | [], _, _ => trivial
  | s :: rest, _, .cons first others =>
    ⟨isClaimed_of_unfolds canonical s first, allClaimed_of_unfold canonical rest others⟩

end

theorem isClaimed_of_isContract (canonical : d.IsCanonical) (found : d.get? decl.name = some decl)
    (contract : d.IsContract decl marker k) : k.IsClaimed where
  own m mem := by
    rw [contract.methods] at mem
    rw [contract.name]
    exact claimedBy_eq_self ((canonical.of_get? found).owned m mem)
  sets s mem := by
    have side {names : Option String} {o : Option MethodSet} (rel : Option.Rel d.Unfolds names o)
        (there : s ∈ o.toList) : s.IsClaimed := by
      obtain ⟨n, -, unfolds⟩ := exists_unfolds_of_rel rel (Option.mem_toList.mp there)
      exact isClaimed_of_unfolds canonical s unfolds
    rcases List.mem_append.mp mem with mem | mem
    · rcases List.mem_append.mp mem with mem | mem
      · exact side contract.push mem
      · exact side contract.invoke mem
    · obtain ⟨n, -, unfolds⟩ := exists_of_forall₂_left contract.ancestors.flip mem
      exact isClaimed_of_unfolds canonical s unfolds

-- So do the contracts of hub clients.
theorem isClaimed_of_mem_clients (canonical : d.IsCanonical) {name : String}
    (found : (name, .ok k) ∈ d.discover.clients) : k.IsClaimed := by
  obtain ⟨e, marker, declared, rfl, -, contract⟩ := exists_client canonical.distinct found
  exact isClaimed_of_isContract canonical declared contract

end Document

namespace Pipeline

variable {rules : RuleSet} {k : Contract} {o : Options}

-- What is validated is the contract itself.
theorem validated_of_compile {v : Validated}
    (made : v ∈ (compile Pass.standard rules k o).validated) : v = k.validated := by
  obtain ⟨-, -, ⟨-, -, validated, -⟩ | ⟨-, -, none, -⟩⟩ := compile_cases rules k o
  · exact (Option.some.inj (validated.symm.trans made)).symm
  · cases none.symm.trans made

end Pipeline

namespace Engine

open HubContract.Document

variable {rules : RuleSet} {e : Engine} {d : Document} {o : Options}

theorem isRegular_compile (sound : e.Sound rules)
    (standard : e.pipelines.lookup "default" = some Pass.standard) (canonical : d.IsCanonical)
    (admitted : ∀ t ∈ o.reconnectPolicy.tiers, t.IsAdmitted) :
    (e.compile rules d o none).1.compilation.IsRegular where
  claimed c mem v made := by
    rw [sound.compile_contracts] at mem
    obtain ⟨⟨name, outcome⟩, found, rfl⟩ := List.mem_map.mp mem
    cases outcome with
    | error ds => cases made
    | ok k =>
      simp only [clientResult, nameOr, contractResult, standard] at made
      rw [Pipeline.validated_of_compile made]
      exact isClaimed_of_mem_clients canonical found
  admitted h mem := by
    obtain rfl := Option.some.inj mem
    exact admitted

-- What compiling gives for a document whose texts are strings is restored from its text exactly if it is not
-- nested too deep and each tier has a finite delay and a number of attempts that is not too long. Otherwise
-- nothing is read at all.
theorem compile_restored_iff {x y : Data} (read : ofRead (.ok x) = .ok d) (accepted : Options.ofData y = .ok o)
    (reachable : e.Reachable rules) (standard : e.pipelines.lookup "default" = some Pass.standard)
    (indent : Option Nat) :
    let c := (e.compile rules d o none).1.compilation
    let readable := c.toJson.nesting ≤ Json.maxNesting ∧
      ∀ t ∈ o.reconnectPolicy.tiers, t.delay ≠ .infinite false ∧
        (integer t.attempts).length ≤ maxDigits
    ((∃ text, c.write indent = .ok text ∧ Compilation.ofText text = .ok c) ↔ readable) ∧
    (∀ text, c.write indent = .ok text → ¬ readable → (Compilation.ofText text).isOk = false) := by
  intro c readable
  have canonical : d.IsCanonical := isCanonical_of_ofData (ofRead_eq_ok_iff.mp read).1
  have regular : c.IsRegular := isRegular_compile reachable.sound standard canonical
    (Options.isAdmitted_of_ofData accepted)
  have same : c.IsReadable ↔ readable := by
    constructor
    · rintro ⟨shallow, tiers⟩
      exact ⟨shallow, fun t mem => ⟨(tiers _ rfl t mem).finite, (tiers _ rfl t mem).short⟩⟩
    · rintro ⟨shallow, tiers⟩
      refine ⟨shallow, fun h mem t there => ?_⟩
      obtain rfl := Option.some.inj mem
      exact ⟨(tiers t there).1, (tiers t there).2⟩
  refine ⟨(Compilation.restored_iff regular indent).trans same, fun text written unreadable => ?_⟩
  obtain ⟨writable, rfl⟩ := Compilation.write_eq_ok_iff.mp written
  exact (Compilation.ofText_toText regular writable indent).2 fun h => unreadable (same.mp h)

-- One hub client with one method, and options whose only tier has one attempt.
def terraceMethods : List Method := [{ name := "Ping", owner := "ITerrace" }]

def terraceBridge : Declaration :=
  { name := "ITerrace", methods := terraceMethods, hubClient := some { uri := "terrace" } }

def terrace : Document := ⟨[terraceBridge], []⟩

def terraceContract : Contract := { name := "ITerrace", uri := "terrace", methods := terraceMethods }

def tierOptions (delay : Data) : Data :=
  .mapping [(.str "reconnect", .list [.mapping [(.str "attempts", .int 1), (.str "delay", delay)]])]

theorem ofData_terrace : ofData terrace.toData = .ok terrace := by rfl

theorem terrace_clients : terrace.discover.clients = [("ITerrace", .ok terraceContract)] := by
  have found : terrace.get? "ITerrace" = some terraceBridge := rfl
  have contract : terrace.IsContract terraceBridge { uri := "terrace" } terraceContract :=
    ⟨rfl, rfl, rfl, rfl, .none, .none, .nil⟩
  have clients : terrace.discover.clients =
      [("ITerrace", terrace.resolveClient terraceBridge { uri := "terrace" })] := by rfl
  rw [clients, resolveClient_eq_ok_iff.mpr ((resolveContract_eq_ok_iff found).mpr contract)]

-- With no delay between attempts the result is restored.
theorem compile_restored_iff_terrace :
    let o : Options := { reconnectPolicy := ⟨[⟨1, default⟩]⟩ }
    let c := (standard.compile .builtIn terrace o none).1.compilation
    ofRead (.ok terrace.toData) = .ok terrace ∧ Options.ofData (tierOptions (.float default)) = .ok o ∧
      ∃ text, c.write none = .ok text ∧ Compilation.ofText text = .ok c := by
  intro o c
  have accepted : Options.ofData (tierOptions (.float default)) = .ok o := by rfl
  have shallow : c.toJson.nesting ≤ Json.maxNesting := by
    simp only [c, Engine.compile, terrace_clients]
    decide +kernel
  have tiers : ∀ t ∈ o.reconnectPolicy.tiers, t.delay ≠ .infinite false ∧
      (integer t.attempts).length ≤ maxDigits := by
    decide +kernel
  have read : ofRead (.ok terrace.toData) = .ok terrace :=
    ofRead_eq_ok_iff.mpr ⟨ofData_terrace, Exact.document_toData (.mapping terrace.entries)⟩
  have restored := compile_restored_iff read accepted reachable_standard rfl none
  exact ⟨read, accepted, restored.1.mpr ⟨shallow, tiers⟩⟩

-- An infinite delay is accepted, too, but what is written for it is not read.
theorem compile_restored_iff_endless :
    let o : Options := { reconnectPolicy := ⟨[⟨1, .infinite false⟩]⟩ }
    let c := (standard.compile .builtIn terrace o none).1.compilation
    Options.ofData (tierOptions (.str "inf")) = .ok o ∧
      ∀ indent, ∃ text, c.write indent = .ok text ∧ (Compilation.ofText text).isOk = false := by
  intro o c
  have accepted : Options.ofData (tierOptions (.str "inf")) = .ok o := by rfl
  have regular : c.IsRegular := isRegular_compile reachable_standard.sound rfl
    (isCanonical_of_ofData ofData_terrace) (Options.isAdmitted_of_ofData accepted)
  have shallow : c.toJson.nesting ≤ Json.maxNesting := by
    simp only [c, Engine.compile, terrace_clients]
    decide +kernel
  have writable := Compilation.isWritable_of_nesting shallow
  have unreadable : ¬ c.IsReadable :=
    fun h => (h.tiers _ rfl ⟨1, .infinite false⟩ List.mem_cons_self).finite rfl
  refine ⟨accepted, fun indent => ⟨c.toText indent, ?_, ?_⟩⟩
  · exact Compilation.write_eq_ok_iff.mpr ⟨writable, rfl⟩
  · exact (Compilation.ofText_toText regular writable indent).2 unreadable

end Engine

end HubContract
