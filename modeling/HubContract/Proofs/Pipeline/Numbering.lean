import HubContract.Engine
import HubContract.Proofs.Pipeline.Step
import HubContract.Proofs.Text.Numeral
import HubContract.Proofs.Text.Parted
import Mathlib.Data.List.Nodup

namespace HubContract

open HubContract.Text

namespace Diagnostic

-- A number has no colon, so the last one parts it from the subject.
theorem numbered_inj {s s' : String} {n n' : Nat} (same : numbered s n = numbered s' n') :
    s = s' ∧ n = n' := by
  have parted (s : String) (n : Nat) :
      numbered s n = s ++ String.singleton ':' ++ ("d" ++ padded 3 n) := by
    simp only [numbered, String.append_assoc]
    rfl
  have unmet (n : Nat) : ':' ∉ ("d" ++ padded 3 n).toList := by
    rw [String.toList_append, List.mem_append, not_or]
    exact ⟨by decide, fun digit => absurd (isDigit_of_mem_padded digit) (by decide)⟩
  rw [parted, parted] at same
  obtain ⟨subjects, tails⟩ := parted_inj_right (unmet n) (unmet n') same
  have digits : (padded 3 n).toList = (padded 3 n').toList := by
    simpa using congrArg String.toList tails
  refine ⟨subjects, ?_⟩
  rw [← ofDigits_padded 3 n, digits, ofDigits_padded]

-- Rows of numbers that follow each other are one row.
theorem map_append_of_numbered {α : Type} {id : α → String} {numbered : Nat → String} {first : Nat}
    {xs ys : List α} (h : xs.map id = (List.range' first xs.length).map numbered)
    (h' : ys.map id = (List.range' (first + xs.length) ys.length).map numbered) :
    (xs ++ ys).map id = (List.range' first (xs ++ ys).length).map numbered := by
  rw [List.map_append, h, h', ← List.map_append, List.length_append, List.range'_append_1]

-- Diagnostics of a subject with a row of numbers.
def IsNumbered (subject : String) (first : Nat) (ds : List Diagnostic) : Prop :=
  ds.map (·.id) = (List.range' first ds.length).map (numbered subject)

variable {subject : String} {first : Nat} {ds es : List Diagnostic}

theorem isNumbered_nil : IsNumbered subject first [] := rfl

theorem IsNumbered.append (h : IsNumbered subject first ds)
    (h' : IsNumbered subject (first + ds.length) es) : IsNumbered subject first (ds ++ es) :=
  map_append_of_numbered h h'

theorem IsNumbered.nodup (h : IsNumbered subject first ds) : (ds.map (·.id)).Nodup := by
  rw [h]
  exact List.Nodup.map (fun _ _ same => (numbered_inj same).2) List.nodup_range'

end Diagnostic

open Diagnostic

namespace Context

-- The second context is for the same contract and may have more diagnostics, which are numbered on.
def Numbers (c c' : Context) : Prop :=
  c'.contract = c.contract ∧ ∃ ds, c'.diagnostics = c.diagnostics ++ ds ∧
    IsNumbered c.contract.name (c.diagnostics.length + 1) ds

variable {c c' c'' : Context}

theorem Numbers.of_eq (contract : c'.contract = c.contract) (diagnostics : c'.diagnostics = c.diagnostics) :
    c.Numbers c' := ⟨contract, [], by rw [diagnostics, List.append_nil], isNumbered_nil⟩

theorem Numbers.refl (c : Context) : c.Numbers c := .of_eq rfl rfl

theorem Numbers.trans (h : c.Numbers c') (h' : c'.Numbers c'') : c.Numbers c'' := by
  obtain ⟨same, ds, more, numbered⟩ := h
  obtain ⟨same', es, more', numbered'⟩ := h'
  rw [same, more, List.length_append, Nat.add_right_comm] at numbered'
  exact ⟨same'.trans same, ds ++ es, by rw [more', more, List.append_assoc], numbered.append numbered'⟩

theorem numbers_report (c : Context) (level : Level) (code : Code) (message source : String)
    (location : Option Location) (fixes : List Fix) :
    c.Numbers (c.report level code message source location fixes) := ⟨rfl, _, rfl, rfl⟩

theorem numbers_note (c : Context) (pass action : String) (before after : Option String)
    (affected : List String) : c.Numbers (c.note pass action before after affected) := .of_eq rfl rfl

theorem Numbers.of_steps (h : Steps c c') : c.Numbers c' := by
  induction h with
  | refl => exact .refl c
  | tail _ step ih =>
    refine ih.trans ?_
    cases step with
    | report => exact numbers_report ..
    | note | arrange | reject | accept | bind | print => exact .of_eq rfl rfl

end Context

namespace Pass

def Numbers (p : Pass) : Prop :=
  ∀ rules (c c' : Context), p.run rules c = .ok c' → c.Numbers c'

theorem standard_numbers : ∀ p ∈ standard, p.Numbers := fun _ inside _ _ _ ran =>
  .of_steps (steps_of_mem_standard inside ran)

end Pass

namespace Pipeline

theorem numbers_runPasses (rules : RuleSet) {passes : List Pass} (each : ∀ p ∈ passes, p.Numbers)
    (c : Context) : c.Numbers (runPasses rules passes c) := by
  induction passes generalizing c with
  | nil => exact .refl c
  | cons p passes ih =>
    obtain ⟨first, others⟩ := List.forall_mem_cons.mp each
    unfold runPasses
    split
    · rename_i c' ran
      have now := first rules c c' ran
      split
      · exact now.trans (Context.numbers_note ..)
      · exact now.trans (ih others c')
    · -- a pass that fails leaves the context to the report of its failure
      have failed : c.Numbers { c with status := .failed } := .of_eq rfl rfl
      exact failed.trans ((Context.numbers_report ..).trans (Context.numbers_note ..))

-- Whatever becomes of a contract, its diagnostics are numbered.
theorem isNumbered_compile (rules : RuleSet) (k : Contract) (o : Options) :
    IsNumbered k.name 1 (compile Pass.standard rules k o).diagnostics := by
  obtain ⟨-, ds, more, numbered⟩ := numbers_runPasses rules Pass.standard_numbers (.start k o)
  have diagnostics : (compile Pass.standard rules k o).diagnostics = ds := more
  rw [diagnostics]
  exact numbered

end Pipeline

end HubContract
