import HubContract.Pipeline.Result

namespace HubContract

namespace Options

def withoutDelays (o : Options) : Options := { o with reconnectPolicy := .standard }

theorem withoutDelays_eq {o p : Options} (h : o.same p) : o.withoutDelays = p.withoutDelays := by
  simp only [same, Bool.and_eq_true, decide_eq_true_eq] at h
  exact h.2

theorem warnOnDuplicates_eq {o p : Options} (h : o.withoutDelays = p.withoutDelays) :
    o.warnOnDuplicates = p.warnOnDuplicates := (congrArg warnOnDuplicates h :)

theorem cancellationType_eq {o p : Options} (h : o.withoutDelays = p.withoutDelays) :
    o.cancellationType = p.cancellationType := (congrArg cancellationType h :)

theorem fakePrefix_eq {o p : Options} (h : o.withoutDelays = p.withoutDelays) :
    o.fakePrefix = p.fakePrefix := (congrArg fakePrefix h :)

end Options

namespace Context

def withOptions (c : Context) (o : Options) : Context := { c with options := o }

-- Contexts that compare equal.
def Alike (c d : Context) : Prop := ∃ o, c.options.same o ∧ d = c.withOptions o

variable {c d : Context}

theorem alike_start (k : Contract) {o p : Options} (h : o.same p) : (start k o).Alike (start k p) :=
  ⟨p, h, rfl⟩

theorem Alike.note (h : c.Alike d) (pass action : String) (before after : Option String)
    (affected : List String) :
    (c.note pass action before after affected).Alike (d.note pass action before after affected) := by
  obtain ⟨o, same, rfl⟩ := h
  exact ⟨o, same, rfl⟩

theorem Alike.status (h : c.Alike d) : c.status = d.status := by
  obtain ⟨o, -, rfl⟩ := h
  rfl

theorem Alike.result (h : c.Alike d) : c.result = d.result := by
  obtain ⟨o, -, rfl⟩ := h
  rfl

theorem withOptions_foldl {f : Context → α → Context} {o : Options}
    (each : ∀ c x, (f c x).withOptions o = f (withOptions c o) x) (c : Context) (xs : List α) :
    (xs.foldl f c).withOptions o = xs.foldl f (c.withOptions o) := by
  induction xs generalizing c with
  | nil => rfl
  | cons x xs ih => rw [List.foldl_cons, ih, each, List.foldl_cons]

theorem withOptions_eq_of_foldl {f : Context → α → Context} {o : Options} {d e : Context} {xs : List α}
    (each : ∀ c x, (f c x).withOptions o = f (withOptions c o) x) (plain : xs.foldl f c = e)
    (set : xs.foldl f (c.withOptions o) = d) : e.withOptions o = d := by
  rw [← plain, ← set]
  exact withOptions_foldl each c xs

variable (c) (o : Options)

theorem checkMarker_withOptions : (c.withOptions o).checkMarker = c.checkMarker.withOptions o := by
  by_cases blank : Text.isBlankText c.contract.uri <;>
    by_cases usable : Text.isIdentifier c.contract.bindingName <;>
    simp only [checkMarker, withOptions, blank, usable, if_true] <;> rfl

theorem dropDuplicates_withOptions (h : c.options.withoutDelays = o.withoutDelays) :
    (c.withOptions o).dropDuplicates = c.dropDuplicates.withOptions o := by
  simp only [dropDuplicates, withOptions, ← Options.warnOnDuplicates_eq h]
  generalize set : List.foldl _ _ _ = d
  generalize plain : List.foldl _ _ _ = e
  have fold : e.withOptions o = d := withOptions_eq_of_foldl (fun _ _ => rfl) plain set
  rw [← fold]
  rfl

theorem validate_withOptions (rules : RuleSet) :
    (c.withOptions o).validate rules = (c.validate rules).withOptions o := by
  have same : (c.withOptions o).subject = c.subject := rfl
  simp only [validate, same]
  generalize set : List.foldl _ _ _ = d
  generalize plain : List.foldl _ _ _ = e
  have fold : e.withOptions o = d := withOptions_eq_of_foldl (fun _ _ => rfl) plain set
  have errors : (e.withOptions o).hasErrors = e.hasErrors := rfl
  rw [← fold, errors]
  split <;> rfl

theorem synthesize_withOptions (h : c.options.withoutDelays = o.withoutDelays) :
    (c.withOptions o).synthesize = c.synthesize.map (·.withOptions o) := by
  have binding : ∀ v, ClientBinding.synthesize v o = ClientBinding.synthesize v c.options := by
    intro v
    simp only [ClientBinding.synthesize, Options.cancellationType_eq h]
  simp only [synthesize, withOptions, binding]
  split
  · rfl
  · generalize set : List.foldl _ _ _ = d
    generalize plain : List.foldl _ _ _ = e
    have fold : e.withOptions o = d := withOptions_eq_of_foldl (fun _ _ => rfl) plain set
    rw [← fold]
    rfl

theorem render_withOptions : (c.withOptions o).render = c.render.map (·.withOptions o) := by
  simp only [render, renderUnless, withOptions]
  cases c.binding with
  | none => rfl
  | some b => rfl

theorem package_withOptions : (c.withOptions o).package = c.package.withOptions o := by
  have same : (c.withOptions o).missing = c.missing := rfl
  simp only [package, same]
  generalize set : List.foldl _ _ _ = d
  generalize plain : List.foldl _ _ _ = e
  have fold : e.withOptions o = d := withOptions_eq_of_foldl (fun _ _ => rfl) plain set
  rw [← fold]
  split <;> rfl

end Context

namespace Pass

-- A pass that gives equal contexts, or the same failure, for equal contexts.
def Extensional (rules : RuleSet) (p : Pass) : Prop :=
  ∀ c d : Context, c.Alike d →
    match p.run rules c, p.run rules d with
    | .ok c, .ok d => c.Alike d
    | .error e, .error f => e = f
    | _, _ => False

-- A pass that does not look at the delays, and sets no options.
def IgnoresDelays (rules : RuleSet) (p : Pass) : Prop :=
  ∀ (c : Context) (o : Options), c.options.withoutDelays = o.withoutDelays →
    p.run rules (c.withOptions o) = (p.run rules c).map (·.withOptions o)

theorem IgnoresDelays.extensional {rules : RuleSet} {p : Pass} (h : p.IgnoresDelays rules) :
    p.Extensional rules := by
  rintro c _ ⟨o, same, rfl⟩
  have set := h c o (Options.withoutDelays_eq same)
  -- the pass does not change the options that are there either
  have kept : p.run rules c = _ := h c c.options rfl
  rw [set]
  cases run : p.run rules c with
  | error e => rfl
  | ok c' =>
    rw [run] at kept
    have options : c' = c'.withOptions c.options := Except.ok.inj kept
    exact ⟨o, by rw [options]; exact same, rfl⟩

variable (rules : RuleSet)

theorem standard_ignoresDelays : ∀ p ∈ standard, p.IgnoresDelays rules := by
  simp only [standard, List.forall_mem_cons, IgnoresDelays]
  refine ⟨?marker, ?walk, ?duplicates, ?verdict, ?synthesis, ?rendering, ?packaging, nofun⟩
  case marker => exact fun c o _ => congrArg _ (c.checkMarker_withOptions o)
  case walk => exact fun c o _ => rfl
  case duplicates => exact fun c o h => congrArg _ (c.dropDuplicates_withOptions o h)
  case verdict => exact fun c o _ => congrArg _ (c.validate_withOptions o rules)
  case synthesis => exact fun c o h => c.synthesize_withOptions o h
  case rendering => exact fun c o _ => c.render_withOptions o
  case packaging => exact fun c o _ => congrArg _ (c.package_withOptions o)

theorem standard_extensional : ∀ p ∈ standard, p.Extensional rules :=
  fun p h => (standard_ignoresDelays rules p h).extensional

end Pass

namespace Pipeline

theorem runPasses_alike {rules : RuleSet} {ps : List Pass} (functions : ∀ p ∈ ps, p.Extensional rules)
    {c d : Context} (h : c.Alike d) : (runPasses rules ps c).Alike (runPasses rules ps d) := by
  induction ps generalizing c d with
  | nil => exact h
  | cons p ps ih =>
    obtain ⟨function, functions⟩ := List.forall_mem_cons.mp functions
    have step := function c d h
    simp only [runPasses]
    cases left : p.run rules c with
    | ok c' =>
      cases right : p.run rules d with
      | ok d' =>
        rw [left, right] at step
        have status : c'.status = d'.status := step.status
        simp only [status]
        split
        · exact step.note ..
        · exact ih functions step
      | error e =>
        rw [left, right] at step
        exact step.elim
    | error e =>
      cases right : p.run rules d with
      | ok d' =>
        rw [left, right] at step
        exact step.elim
      | error f =>
        rw [left, right] at step
        subst step
        obtain ⟨o, same, rfl⟩ := h
        exact ⟨o, same, rfl⟩

theorem compile_eq_of_same {rules : RuleSet} {ps : List Pass}
    (functions : ∀ p ∈ ps, p.Extensional rules) (k : Contract) {o p : Options} (h : o.same p) :
    compile ps rules k o = compile ps rules k p :=
  (runPasses_alike functions (Context.alike_start k h)).result

theorem compileFake_eq_of_same (m : Manifest) {o p : Options} (h : o.same p) (target : String) :
    compileFake m o target = compileFake m p target := by
  simp only [compileFake, Options.fakePrefix_eq (Options.withoutDelays_eq h)]

end Pipeline

end HubContract
