import HubContract.Pipeline.Interchange
import HubContract.Proofs.Binding.RoundTrip
import HubContract.Proofs.Reconnect

namespace HubContract

open HubContract.Data HubContract.Number HubContract.Text

namespace Validated

variable {v : Validated}

theorem isPlain_toJson (v : Validated) : v.toJson.isPlain = true := by
  have contract := v.contract.isPlain_toJson
  have push := (WalkedMethod.restores_list v.push).plain
  have invoke := (WalkedMethod.restores_list v.invoke).plain
  simp [toJson, contract, push, invoke]

theorem restores (contract : Restores Contract.check Contract.toJson v.contract) :
    Restores check toJson v := by
  have push := WalkedMethod.restores_list v.push
  have invoke := WalkedMethod.restores_list v.invoke
  exact ⟨v.isPlain_toJson, by simp [check, toJson, contract.back, push.back, invoke.back]⟩

theorem nesting_contract_lt (v : Validated) : v.contract.toJson.nesting < v.toJson.nesting := by
  rw [toJson]
  exact Json.nesting_lt_object (m := ("contract", v.contract.toJson)) (by simp)

end Validated

theorem Status.restores (s : Status) : Restores check (.str ·.name) s := .word (by cases s <;> rfl)

namespace CompiledContract

variable {c : CompiledContract}

theorem isPlain_toJson (c : CompiledContract) : c.toJson.isPlain = true := by
  have validated : (Json.ofOption Validated.toJson c.validated).isPlain = true :=
    Json.isPlain_ofOption fun v _ => v.isPlain_toJson
  have binding : (Json.ofOption ClientBinding.toJson c.binding).isPlain = true :=
    Json.isPlain_ofOption fun b _ => b.restores.plain
  have source := (Restores.optionalString c.source).plain
  have diagnostics := (Diagnostic.restores_list c.diagnostics).plain
  have trace : (Json.ofList TraceEntry.toJson c.trace).isPlain = true :=
    Json.isPlain_ofList fun t _ => t.restores.plain
  simp [toJson, validated, binding, source, diagnostics, trace]

theorem restores (validated : ∀ v ∈ c.validated, Restores Validated.check Validated.toJson v) :
    Restores check toJson c := by
  have status := c.status.restores
  have validated : Restores (checkOptional Validated.check) (.ofOption Validated.toJson) c.validated :=
    .option (fun _ h => by cases h) validated
  have binding : Restores (checkOptional ClientBinding.check) (.ofOption ClientBinding.toJson)
      c.binding := .option (fun _ h => by cases h) fun b _ => b.restores
  have source := Restores.optionalString c.source
  have diagnostics := Diagnostic.restores_list c.diagnostics
  have trace : Restores (checkList TraceEntry.check) (.ofList TraceEntry.toJson) c.trace :=
    .list fun t _ => t.restores
  refine ⟨c.isPlain_toJson, ?_⟩
  simp [check, toJson, status.back, validated.back, binding.back, source.back, diagnostics.back,
    trace.back]

theorem nesting_validated_lt {v : Validated} (mem : v ∈ c.validated) :
    v.toJson.nesting < c.toJson.nesting := by
  rw [Json.nesting_of_mem_option (f := Validated.toJson) mem, toJson]
  exact Json.nesting_lt_object (m := ("validated", .ofOption Validated.toJson c.validated)) (by simp)

end CompiledContract

theorem CompiledFake.restores (f : CompiledFake) : Restores check toJson f := by
  have fake : Restores (checkOptional FakeBinding.check) (.ofOption FakeBinding.toJson) f.fake :=
    .option (fun _ h => by cases h) fun b _ => b.restores
  have source := Restores.optionalString f.source
  have diagnostics := Diagnostic.restores_list f.diagnostics
  exact ⟨by simp [toJson, fake.plain, source.plain, diagnostics.plain],
    by simp [check, toJson, fake.back, source.back, diagnostics.back]⟩

namespace BackoffTier

variable {t : BackoffTier}

-- A tier that can be read from what is written for it.
structure IsReadable (t : BackoffTier) : Prop where
  finite : t.delay ≠ .infinite false
  short : (integer t.attempts).length ≤ maxDigits

theorem checkAttempts_int (n : Nat) : checkAttempts (ofJson (.int n)) = .ok n := by
  have natural : (0 : Int) ≤ n := Int.natCast_nonneg n
  rw [checkAttempts, ofJson, checkInt, Check.bind, if_pos natural, Int.toNat_natCast]

-- A finite delay is read as it is. An infinite one is written as null, which is no delay.
theorem checkDelay_ofFloat (admitted : t.IsAdmitted) :
    if t.delay = .infinite false then
      (checkDelay checkExtendedFloat (ofJson (.ofFloat t.delay))).isOk = false
    else checkDelay checkExtendedFloat (ofJson (.ofFloat t.delay)) = .ok t.delay := by
  obtain ⟨attempts, delay⟩ := t
  obtain ⟨number, positive⟩ := admitted
  cases delay with
  | nan => exact absurd rfl number
  | infinite negative =>
    cases negative with
    | true => cases positive
    | false =>
      rw [if_pos rfl]
      rfl
  | finite negative m =>
    rw [if_neg (fun h => by cases h)]
    have kept : ¬ (Binary64.finite negative m = .nan ∨
        (Binary64.finite negative m).isNegative = true) := by
      rintro (h | h)
      · cases h
      · rw [positive] at h
        cases h
    exact if_neg kept

theorem restoresIf (admitted : t.IsAdmitted) :
    RestoresIf t.IsReadable (checkWith checkExtendedFloat) toJson t := by
  have delay := t.checkDelay_ofFloat admitted
  have attempts : (Json.int t.attempts).isShort =
      decide ((integer t.attempts).length ≤ maxDigits) := by rw [Json.isShort]
  have finite : t.toJson.isFinite = true := by
    have attempts : (Json.int t.attempts).isFinite = true := rfl
    simp [toJson, attempts, Json.isFinite_ofFloat]
  have short : t.toJson.isShort = decide ((integer t.attempts).length ≤ maxDigits) := by
    simp [toJson, attempts, Json.isShort_ofFloat]
  refine ⟨finite, fun readable => ⟨?plain, ?back⟩, fun lost => ?lost⟩
  case plain => exact Json.isPlain_iff.mpr ⟨finite, short.trans (decide_eq_true readable.short)⟩
  case back =>
    rw [if_neg readable.finite] at delay
    simp [checkWith, toJson, checkAttempts_int, delay]
  case lost =>
    by_cases infinite : t.delay = .infinite false
    · rw [if_pos infinite] at delay
      simp [checkWith, toJson, delay]
    · have long : ¬ (integer t.attempts).length ≤ maxDigits := fun h => lost ⟨infinite, h⟩
      rw [short, decide_eq_false long, Bool.false_and]

end BackoffTier

theorem ReconnectPolicy.restoresIf {p : ReconnectPolicy} (admitted : ∀ t ∈ p.tiers, t.IsAdmitted) :
    RestoresIf (∀ t ∈ p.tiers, t.IsReadable) (checkWith checkExtendedFloat) toJson p := by
  have tiers : RestoresIf (∀ t ∈ p.tiers, t.IsReadable)
      (checkList (BackoffTier.checkWith checkExtendedFloat)) (.ofList BackoffTier.toJson) p.tiers :=
    .list fun t mem => BackoffTier.restoresIf (admitted t mem)
  refine ⟨by simp only [toJson, Json.isFinite_cons, tiers.finite, Json.isFinite_nil, Bool.and_self],
    fun readable => ⟨?plain, ?back⟩, fun lost => ?lost⟩
  case plain =>
    simp only [toJson, Json.isPlain_cons, (tiers.kept readable).plain, Json.isPlain_nil, Bool.and_self]
  case back => simp [checkWith, toJson, (tiers.kept readable).back]
  case lost =>
    rcases Bool.and_eq_false_iff.mp (tiers.lost lost) with long | bad
    · simp only [toJson, Json.isShort_cons, long, Bool.false_and]
    · simp [checkWith, toJson, bad]

theorem RegistrationHelper.restoresIf {h : RegistrationHelper}
    (admitted : ∀ t ∈ h.reconnectPolicy.tiers, t.IsAdmitted) :
    RestoresIf (∀ t ∈ h.reconnectPolicy.tiers, t.IsReadable) (checkWith checkExtendedFloat) toJson h := by
  have policy := ReconnectPolicy.restoresIf admitted
  have entries : Restores (checkList RegistrationEntry.check) (.ofList RegistrationEntry.toJson)
      h.entries := .list fun e _ => e.restores
  have lifetime : Restores Lifetime.check (.str ·.name) h.defaultLifetime :=
    .word (by cases h.defaultLifetime <;> rfl)
  refine ⟨?finite, fun readable => ⟨?plain, ?back⟩, fun lost => ?lost⟩
  case finite => simp [toJson, policy.finite, entries.finite, lifetime.finite]
  case plain => simp [toJson, (policy.kept readable).plain, entries.plain]
  case back => simp [checkWith, toJson, (policy.kept readable).back, entries.back, lifetime.back]
  case lost =>
    rcases Bool.and_eq_false_iff.mp (policy.lost lost) with long | bad
    · simp [toJson, long]
    · simp [checkWith, toJson, bad]

namespace Compilation

variable {c : Compilation} {indent : Option Nat} {text : String}

-- A result as compiling gives it: its contracts own their methods, and options may have its tiers.
structure IsRegular (c : Compilation) : Prop where
  claimed : ∀ k ∈ c.contracts, ∀ v ∈ k.validated, v.contract.IsClaimed
  admitted : ∀ h ∈ c.registration, ∀ t ∈ h.reconnectPolicy.tiers, t.IsAdmitted

-- A result that is not nested too deep for the reader and of which every tier can be read.
structure IsReadable (c : Compilation) : Prop where
  shallow : c.toJson.nesting ≤ Json.maxNesting
  tiers : ∀ h ∈ c.registration, ∀ t ∈ h.reconnectPolicy.tiers, t.IsReadable

theorem restoresIf (regular : c.IsRegular)
    (writable : ∀ k ∈ c.contracts, ∀ v ∈ k.validated, v.contract.isWritable = true) :
    RestoresIf (∀ h ∈ c.registration, ∀ t ∈ h.reconnectPolicy.tiers, t.IsReadable)
      (checkWith checkExtendedFloat) toJson c := by
  have status := c.status.restores
  have contracts : Restores (checkList CompiledContract.check) (.ofList CompiledContract.toJson)
      c.contracts :=
    .list fun k mem => k.restores fun v there =>
      v.restores (Contract.restores (regular.claimed k mem v there) (writable k mem v there))
  have registration : RestoresIf (∀ h ∈ c.registration, ∀ t ∈ h.reconnectPolicy.tiers, t.IsReadable)
      (checkOptional (RegistrationHelper.checkWith checkExtendedFloat))
      (.ofOption RegistrationHelper.toJson) c.registration :=
    .option (fun _ h => by cases h) fun h mem => h.restoresIf (regular.admitted h mem)
  have source := Restores.optionalString c.registrationSource
  have fakes : Restores (checkList CompiledFake.check) (.ofList CompiledFake.toJson) c.fakes :=
    .list fun f _ => f.restores
  have diagnostics := Diagnostic.restores_list c.diagnostics
  refine ⟨?finite, fun readable => ⟨?plain, ?back⟩, fun lost => ?lost⟩
  case finite =>
    simp [toJson, contracts.finite, registration.finite, source.finite, fakes.finite,
      diagnostics.finite]
  case plain =>
    simp [toJson, contracts.plain, (registration.kept readable).plain, source.plain, fakes.plain,
      diagnostics.plain]
  case back =>
    simp [checkWith, toJson, status.back, contracts.back, (registration.kept readable).back,
      source.back, fakes.back, diagnostics.back]
  case lost =>
    rcases Bool.and_eq_false_iff.mp (registration.lost lost) with long | bad
    · simp [toJson, long]
    · simp [checkWith, toJson, bad]

-- What the reader has room for, the writer has, too.
theorem isWritable_of_nesting (shallow : c.toJson.nesting ≤ Json.maxNesting) :
    ∀ k ∈ c.contracts, ∀ v ∈ k.validated, v.contract.isWritable = true := by
  intro k mem v there
  have contract := v.nesting_contract_lt
  have validated := k.nesting_validated_lt there
  have item := Json.nesting_lt_ofList (f := CompiledContract.toJson) mem
  have list : (Json.ofList CompiledContract.toJson c.contracts).nesting < c.toJson.nesting := by
    rw [toJson]
    exact Json.nesting_lt_object (m := ("contracts", .ofList CompiledContract.toJson c.contracts))
      (by simp)
  have room : Json.maxNesting ≤ MethodSet.maxNesting := by decide
  exact Contract.isWritable_of_nesting (by omega)

theorem write_eq_ok_iff : c.write indent = .ok text ↔
    (∀ k ∈ c.contracts, ∀ v ∈ k.validated, v.contract.isWritable = true) ∧
      c.toText indent = text := by
  have all : (c.contracts.all (·.validated.all (·.contract.isWritable))) = true ↔
      ∀ k ∈ c.contracts, ∀ v ∈ k.validated, v.contract.isWritable = true := by
    simp only [List.all_eq_true, Option.all_eq_true, Option.mem_def]
  rw [write, ← all]
  split
  next writable => simp [writable]
  next failed => simp [failed]

-- What is written for a readable result reads as this result, and for any other as none.
theorem ofText_toText (regular : c.IsRegular)
    (writable : ∀ k ∈ c.contracts, ∀ v ∈ k.validated, v.contract.isWritable = true)
    (indent : Option Nat) :
    (c.IsReadable → ofText (c.toText indent) = .ok c) ∧
      (¬ c.IsReadable → (ofText (c.toText indent)).isOk = false) := by
  have restores := restoresIf regular writable
  have parsed : Json.parse? (c.toText indent) Json.maxNesting =
      if c.toJson.Fits Json.maxNesting then some c.toJson else none :=
    Json.parse?_render restores.finite indent Json.maxNesting
  constructor
  · intro readable
    have kept := restores.kept readable.tiers
    rw [ofText, parsed, if_pos ⟨kept.short, readable.shallow⟩]
    exact kept.back
  · intro unreadable
    by_cases fits : c.toJson.Fits Json.maxNesting
    · have lost : ¬ ∀ h ∈ c.registration, ∀ t ∈ h.reconnectPolicy.tiers, t.IsReadable :=
        fun tiers => unreadable ⟨fits.2, tiers⟩
      have lost := restores.lost lost
      rw [fits.1, Bool.true_and] at lost
      rw [ofText, parsed, if_pos fits]
      exact lost
    · rw [ofText, parsed, if_neg fits]
      rfl

-- A result is restored by way of its text exactly if it is readable, and else nothing is read.
theorem restored_iff (regular : c.IsRegular) (indent : Option Nat) :
    (∃ text, c.write indent = .ok text ∧ ofText text = .ok c) ↔ c.IsReadable := by
  constructor
  · rintro ⟨text, written, read⟩
    obtain ⟨writable, rfl⟩ := write_eq_ok_iff.mp written
    by_contra unreadable
    have lost := (ofText_toText regular writable indent).2 unreadable
    rw [read] at lost
    cases lost
  · intro readable
    have writable := isWritable_of_nesting readable.shallow
    exact ⟨c.toText indent, write_eq_ok_iff.mpr ⟨writable, rfl⟩,
      (ofText_toText regular writable indent).1 readable⟩

end Compilation

end HubContract
