import HubContract.Pipeline.Pass

namespace HubContract

open HubContract.Text

-- What a diagnostic says, whatever its number and its level.
structure Finding where
  code : Code
  message : String
  location : Option Location
  fixes : List Fix := []
  deriving DecidableEq, Repr

namespace Diagnostic

def finding (δ : Diagnostic) : Finding := ⟨δ.code, δ.message, δ.location, δ.fixes⟩

def errors (ds : List Diagnostic) : List Finding := (ds.filter isError).map finding

theorem errors_append (ds es : List Diagnostic) : errors (ds ++ es) = errors ds ++ errors es := by
  simp [errors]

-- What passes report without rejecting the contract.
def IsRemark (δ : Diagnostic) : Prop :=
  δ.isError = false ∧ δ.fixes = [] ∧ (δ.code = .duplicateSignature ∨ δ.code = .sharedWireName)

end Diagnostic

namespace Finding

-- A contract without an address.
def missingUri (k : Contract) : Finding where
  code := .missingUri
  message := "Hub client '" ++ k.name ++ "' has no uri segment"
  location := some ⟨k.name, none⟩

-- A contract whose binding cannot be the name of a class.
def invalidBindingName (k : Contract) : Finding where
  code := .invalidBindingName
  message := "Binding name '" ++ k.bindingName ++ "' is not a usable class name"
  location := some ⟨k.name, none⟩

-- A contract whose source cannot be rendered.
def unrendered (k : Contract) (message : String) : Finding where
  code := .passError
  message := "Pass 'render' failed: " ++ message
  location := some ⟨k.name, none⟩

-- What a rule finds, under the code of the rule.
def ofRule (r : Rule) (v : Violation) : Finding := ⟨r.code, v.message, some v.location, v.fixes⟩

end Finding

namespace Context

-- The second context is the first with any trace and with more diagnostics, which are remarks and the
-- given errors.
def Adds (c : Context) (fs : List Finding) (c' : Context) : Prop :=
  ∃ ds trace, c' = { c with diagnostics := c.diagnostics ++ ds, trace } ∧
    Diagnostic.errors ds = fs ∧ ∀ δ ∈ ds, δ.isError ∨ δ.IsRemark

variable {c c' c'' : Context} {fs gs : List Finding}

theorem Adds.refl (c : Context) : c.Adds [] c := ⟨[], c.trace, by simp, rfl, by simp⟩

theorem Adds.trans (h : c.Adds fs c') (h' : c'.Adds gs c'') : c.Adds (fs ++ gs) c'' := by
  obtain ⟨ds, _, rfl, rfl, hds⟩ := h
  obtain ⟨es, trace, rfl, rfl, hes⟩ := h'
  exact ⟨ds ++ es, trace, by simp, Diagnostic.errors_append ds es,
    List.forall_mem_append.mpr ⟨hds, hes⟩⟩

theorem Adds.note (h : c.Adds fs c') (pass action : String) (before after : Option String)
    (affected : List String) : c.Adds fs (c'.note pass action before after affected) := by
  obtain ⟨ds, _, rfl, hds⟩ := h
  exact ⟨ds, _, rfl, hds⟩

theorem adds_error (c : Context) (code : Code) (message source : String) (location : Option Location)
    (fixes : List Fix) :
    c.Adds [⟨code, message, location, fixes⟩] (c.report .error code message source location fixes) :=
  ⟨_, c.trace, rfl, rfl, fun _ h => .inl (by rw [List.mem_singleton.mp h]; rfl)⟩

theorem adds_remark (c : Context) {level : Level} {code : Code} (message source : String)
    (location : Option Location) (hl : level ≠ .error)
    (hc : code = .duplicateSignature ∨ code = .sharedWireName) :
    c.Adds [] (c.report level code message source location []) := by
  refine ⟨_, c.trace, rfl, by simp [Diagnostic.errors, Diagnostic.isError, hl], ?_⟩
  rintro δ h
  rw [List.mem_singleton.mp h]
  exact .inr ⟨decide_eq_false hl, rfl, hc⟩

theorem Adds.ite {p : Prop} [Decidable p] (h : c.Adds fs c') (h' : c.Adds gs c'') :
    c.Adds (if p then fs else gs) (if p then c' else c'') := by
  split
  · exact h
  · exact h'

theorem adds_foldl {f : Context → α → Context} {g : α → List Finding}
    (each : ∀ (c : Context) x, c.Adds (g x) (f c x)) (c : Context) (xs : List α) :
    c.Adds (xs.flatMap g) (xs.foldl f c) := by
  induction xs generalizing c with
  | nil => exact .refl c
  | cons x xs ih => exact (each c x).trans (ih (f c x))

variable {b : Context}

theorem Adds.remarks (h : b.Adds fs c) {f : Context → α → Context}
    (each : ∀ (c : Context) x, c.Adds [] (f c x)) (xs : List α) : b.Adds fs (xs.foldl f c) := by
  have more := adds_foldl each c xs
  rw [List.flatMap_eq_nil_iff.mpr fun _ _ => rfl] at more
  simpa using h.trans more

theorem Adds.checkMarker (h : b.Adds fs c) :
    b.Adds
      (fs ++ ((if isBlankText b.contract.uri then [.missingUri b.contract] else []) ++
        if isIdentifier b.contract.bindingName then [] else [.invalidBindingName b.contract]))
      c.checkMarker := by
  obtain ⟨ds, trace, rfl, hds⟩ := h
  -- both checks are made, whatever the first one finds
  refine Adds.note (Adds.trans ⟨ds, trace, rfl, hds⟩
    (Adds.trans (.ite ?uri (.refl _)) (.ite (.refl _) ?name))) ..
  case uri => exact adds_error ..
  case name => exact adds_error ..

theorem Adds.walk (h : b.Adds fs c) :
    Adds { b with push := b.contract.walkSides.1, invoke := b.contract.walkSides.2 } fs c.walk := by
  obtain ⟨ds, trace, rfl, hds⟩ := h
  exact ⟨ds, _, rfl, hds⟩

-- Repeated signatures are never errors, whatever the options.
theorem Adds.dropDuplicates (h : b.Adds fs c) :
    ∃ dropped, Adds
      { b with push := (Distinct.ofList b.push).kept, invoke := (Distinct.ofList b.invoke).kept,
               dropped }
      fs c.dropDuplicates := by
  obtain ⟨ds, trace, rfl, hds⟩ := h
  refine ⟨_, Adds.note (Adds.remarks ⟨ds, trace, rfl, hds⟩ (fun c pair => ?_) _) ..⟩
  exact adds_remark c _ _ _ (by split <;> simp) (.inl rfl)

theorem Adds.violations (h : b.Adds fs c) (found : List (Rule × Violation)) :
    b.Adds (fs ++ found.map fun (r, v) => .ofRule r v)
      (found.foldl (fun c (r, v) =>
        c.report .error r.code v.message "p30_validate" (some v.location) v.fixes) c) := by
  rw [List.map_eq_flatMap]
  exact h.trans (adds_foldl (fun c _ => adds_error c ..) c found)

theorem Adds.hasErrors_eq (h : b.Adds fs c) (fresh : b.diagnostics = []) :
    c.hasErrors = !fs.isEmpty := by
  obtain ⟨ds, _, rfl, rfl, -⟩ := h
  rw [Bool.eq_iff_iff]
  simp [Context.hasErrors, fresh, Diagnostic.errors, List.filter_eq_nil_iff]

-- Rules see the lists of the context, and the verdict sees the errors of all passes so far.
theorem Adds.validate (h : b.Adds fs c) (fresh : b.diagnostics = []) {rules : RuleSet}
    (hgs : fs ++ (rules.checkAll b.subject).map (fun (r, v) => .ofRule r v) = gs) :
    if gs = [] then
      Adds { b with validated := some ⟨b.contract, b.push, b.invoke⟩ } [] (c.validate rules)
    else Adds { b with status := .failed } gs (c.validate rules) := by
  have checked := h.violations (rules.checkAll b.subject)
  rw [hgs] at checked
  have same : c.subject = b.subject := by obtain ⟨_, _, rfl, -⟩ := h; rfl
  simp only [Context.validate, same, checked.hasErrors_eq fresh]
  obtain ⟨ds, trace, eq, hds⟩ := checked
  rw [eq]
  cases gs with
  | nil => exact ⟨ds, _, rfl, hds⟩
  | cons g gs => exact ⟨ds, _, rfl, hds⟩

theorem Adds.synthesize (h : b.Adds fs c) {v : Validated} (hv : b.validated = some v) :
    ∃ c', c.synthesize = .ok c' ∧ Adds { b with binding := some (.synthesize v b.options) } fs c' := by
  obtain ⟨ds, trace, rfl, hds⟩ := h
  refine ⟨_, by rw [Context.synthesize, hv],
    Adds.note (Adds.remarks ⟨ds, trace, rfl, hds⟩ (fun c pair => ?_) _) ..⟩
  exact adds_remark c _ _ _ (by simp) (.inr rfl)

theorem Adds.render {refusal : Manifest → Option String} (h : b.Adds fs c) {k : ClientBinding}
    (hk : b.binding = some k) (written : refusal k.manifest = none) :
    ∃ c', c.renderUnless refusal = .ok c' ∧ Adds { b with source := some (Source.client k) } fs c' := by
  obtain ⟨ds, trace, rfl, hds⟩ := h
  exact ⟨_, by simp only [Context.renderUnless, hk, written]; rfl, ds, _, rfl, hds⟩

theorem Adds.renderUnless_eq_error {refusal : Manifest → Option String} {message : String}
    (h : b.Adds fs c) {k : ClientBinding} (hk : b.binding = some k)
    (refused : refusal k.manifest = some message) : c.renderUnless refusal = .error ⟨message, false⟩ := by
  obtain ⟨_, _, rfl, -⟩ := h
  simp only [Context.renderUnless, hk, refused]

theorem Adds.package (h : b.Adds fs c) (complete : b.missing = []) : b.Adds fs c.package := by
  have lacking : c.missing = [] := by
    obtain ⟨_, _, rfl, -⟩ := h
    exact complete
  simp only [Context.package, lacking]
  exact h.note ..

end HubContract.Context
