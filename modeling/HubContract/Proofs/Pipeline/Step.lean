import HubContract.Pipeline.Result
import Mathlib.Logic.Relation

namespace HubContract

open Relation

namespace Context

-- One step. Artifacts are made of one another: a contract is accepted if no error was found, a binding is
-- made of what was accepted, and a source of a binding.
inductive Step : Context → Context → Prop where
  | note (c : Context) (pass action : String) (before after : Option String) (affected : List String) :
      Step c (c.note pass action before after affected)
  | report (c : Context) (level : Level) (code : Code) (message source : String)
      (location : Option Location) (fixes : List Fix) :
      Step c (c.report level code message source location fixes)
  | arrange (c : Context) (push invoke dropped : List WalkedMethod) :
      Step c { c with push, invoke, dropped }
  | reject (c : Context) : Step c { c with status := .failed }
  | accept (c : Context) (clean : c.hasErrors = false) :
      Step c { c with validated := some ⟨c.contract, c.push, c.invoke⟩ }
  | bind (c : Context) (v : Validated) (accepted : c.validated = some v) :
      Step c { c with binding := some (.synthesize v c.options) }
  | print (c : Context) (b : ClientBinding) (bound : c.binding = some b) :
      Step c { c with source := some (Source.client b) }

abbrev Steps : Context → Context → Prop := ReflTransGen Step

variable {c c' c'' : Context}

theorem steps_ite {p : Prop} [Decidable p] (h : Steps c c') (h' : Steps c c'') :
    Steps c (if p then c' else c'') := by
  split
  · exact h
  · exact h'

theorem steps_foldl {α : Type} {f : Context → α → Context} (each : ∀ (c : Context) x, Step c (f c x))
    (c : Context) (xs : List α) : Steps c (xs.foldl f c) := by
  induction xs generalizing c with
  | nil => exact .refl
  | cons x xs ih => exact .head (each c x) (ih (f c x))

-- One lemma for each pass.

theorem steps_checkMarker (c : Context) : Steps c c.checkMarker := by
  unfold checkMarker
  exact (steps_ite (.single (.report ..)) .refl).trans
    ((steps_ite .refl (.single (.report ..))).tail (.note ..))

theorem steps_walk (c : Context) : Steps c c.walk :=
  .tail (.single (.arrange c c.contract.walkSides.1 c.contract.walkSides.2 c.dropped)) (.note ..)

theorem steps_dropDuplicates (c : Context) : Steps c c.dropDuplicates := by
  unfold dropDuplicates
  exact .head (.arrange ..) ((steps_foldl (fun c _ => .report c ..) _ _).tail (.note ..))

theorem steps_validate (rules : RuleSet) (c : Context) : Steps c (c.validate rules) := by
  have found : Steps c ((rules.checkAll c.subject).foldl (fun c pair =>
      c.report .error pair.1.code pair.2.message "p30_validate" (some pair.2.location) pair.2.fixes) c) :=
    steps_foldl (fun c _ => .report c ..) c _
  unfold validate
  refine found.trans (.tail ?_ (.note ..))
  split
  case isTrue => exact .single (.reject _)
  case isFalse clean => exact .single (.accept _ (by simpa using clean))

theorem steps_synthesize (ran : c.synthesize = .ok c') : Steps c c' := by
  unfold synthesize at ran
  split at ran
  case h_1 => cases ran
  case h_2 v accepted =>
    obtain rfl := Except.ok.inj ran
    exact .head (.bind c v accepted) ((steps_foldl (fun c _ => .report c ..) _ _).tail (.note ..))

theorem steps_render (ran : c.render = .ok c') : Steps c c' := by
  simp only [render, renderUnless] at ran
  split at ran
  case h_1 => cases ran
  case h_2 b bound =>
    obtain rfl := Except.ok.inj ran
    exact .tail (.single (.print c b bound)) (.note ..)

theorem steps_package (c : Context) : Steps c c.package := by
  have lacking : Steps c (c.missing.foldl (fun c what => c.report .error .passError
      ("No " ++ what ++ " produced for '" ++ c.contract.name ++ "'") "p90_package" none []) c) :=
    steps_foldl (fun c _ => .report c ..) c _
  unfold package
  exact lacking.trans (.tail (steps_ite .refl (.single (.reject _))) (.note ..))

end Context

namespace Pass

theorem steps_of_mem_standard {p : Pass} (inside : p ∈ standard) {rules : RuleSet} {c c' : Context}
    (ran : p.run rules c = .ok c') : c.Steps c' := by
  simp only [standard, List.mem_cons, List.not_mem_nil, or_false] at inside
  obtain rfl | rfl | rfl | rfl | rfl | rfl | rfl := inside
  · exact Except.ok.inj ran ▸ c.steps_checkMarker
  · exact Except.ok.inj ran ▸ c.steps_walk
  · exact Except.ok.inj ran ▸ c.steps_dropDuplicates
  · exact Except.ok.inj ran ▸ c.steps_validate rules
  · exact Context.steps_synthesize ran
  · exact Context.steps_render ran
  · exact Except.ok.inj ran ▸ c.steps_package

end Pass

end HubContract
