import HubContract.Document.Discovery
import HubContract.Proofs.Document.Problem

namespace HubContract.Document

open Relation

-- What a resolver remembers of a name is what the name unfolds to.
def Remembers (d : Document) (r : Resolver) : Prop :=
  ∀ name s, r.resolved.lookup name = some s → d.Unfolds name s

-- An answer and the resolver after it: the problems found are reported behind the earlier ones, and
-- there is a value, a correct one, unless there are problems.
structure Agrees (d : Document) (r : Resolver) (found : List Problem) (correct : α → Prop)
    (answer : Option α × Resolver) : Prop where
  problems : answer.2.problems = r.problems ++ found
  remembers : d.Remembers answer.2
  correct : ∀ a, answer.1 = some a → correct a
  none_iff : answer.1 = none ↔ found ≠ []

variable {d : Document} {trail : List String} {referrer name : String} {r : Resolver}

theorem agrees_report (known : d.Remembers r) (p : Problem) {correct : α → Prop} :
    Agrees d r [p] correct (none, r.report p) :=
  ⟨rfl, known, by simp, by simp⟩

theorem agrees_value (known : d.Remembers r) {correct : α → Prop} (h : correct a) :
    Agrees d r [] correct (some a, r) :=
  ⟨by simp, known, by simpa using h, by simp⟩

theorem Remembers.keep (known : d.Remembers r) (h : d.Unfolds name s) :
    d.Remembers (r.keep name s) := by
  intro other s' hs
  simp only [Resolver.keep, List.lookup_cons] at hs
  split at hs
  · obtain rfl : other = name := by simp_all
    exact Option.some.inj hs ▸ h
  · exact known other s' hs

theorem resolveAll_agrees (known : d.Remembers r)
    (each : ∀ name ∈ names, ∀ r, d.Remembers r →
      Agrees d r (d.problemsFrom trail referrer name) (d.Unfolds name)
        (d.resolve trail referrer name r)) :
    Agrees d r (names.flatMap (d.problemsFrom trail referrer)) (List.Forall₂ d.Unfolds names)
      (d.resolveAll trail referrer names r) := by
  induction names generalizing r with
  | nil =>
    rw [resolveAll]
    exact agrees_value known .nil
  | cons name names ih =>
    have first := each name (by simp) r known
    have others := ih first.remembers fun n hn => each n (by simp [hn])
    rw [resolveAll]
    refine ⟨?_, others.remembers, ?_, ?_⟩
    · rw [others.problems, first.problems, List.flatMap_cons, List.append_assoc]
    · intro sets h
      obtain ⟨s, hs, rest, hrest, rfl⟩ :
          ∃ s, _ = some s ∧ ∃ rest, _ = some rest ∧ s :: rest = sets := by
        simpa [Option.bind_eq_some_iff] using h
      exact .cons (first.correct s hs) (others.correct rest hrest)
    · have hf := first.none_iff
      have ho := others.none_iff
      cases h : (d.resolve trail referrer name r).1 <;> simp_all

-- A remembered set saves looking at what is behind a name, and nothing is wrong there.
theorem resolve_agrees (chain : (trail ++ [name]).IsChain d.Extends) (known : d.Remembers r) :
    Agrees d r (d.problemsFrom trail referrer name) (d.Unfolds name)
      (d.resolve trail referrer name r) := by
  induction trail, name using trail_induction d generalizing referrer r with
  | met trail name hm =>
    rw [resolve, dif_neg (by simpa using hm), problemsFrom_of_mem hm]
    exact agrees_report known _
  | absent trail name fresh ha =>
    rw [resolve, dif_pos (by simpa using fresh), problemsFrom_of_none fresh ha]
    split
    · rename_i s hs
      obtain ⟨e, found, -⟩ := (known name s hs).found
      simp [ha] at found
    · split
      · exact agrees_report known _
      · simp_all
  | declared trail name e fresh found ih =>
    obtain rfl := get?_name found
    rw [resolve, dif_pos (by simpa using fresh)]
    split
    · rename_i s hs
      have unfolds := known e.name s hs
      rw [problemsFrom_eq_nil unfolds fun t ht back =>
        unfolds.not_onCycle (TransGen.trans_right back (reaches_of_mem_trail chain ht))]
      exact agrees_value known unfolds
    · split
      · simp_all
      rename_i e' found'
      obtain rfl : e = e' := Option.some.inj (found.symm.trans found')
      have chain' {parent : String} (hp : parent ∈ e.parents) :
          (trail ++ [e.name] ++ [parent]).IsChain d.Extends :=
        chain.append (.singleton _) (by simpa using ⟨e, found, hp⟩)
      have all : Agrees d r _ _ (d.resolveAll (trail ++ [e.name]) e.name e.parents r) :=
        resolveAll_agrees known fun parent hp r known => ih parent hp (chain' hp) known
      rw [problemsFrom_of_some fresh found]
      generalize d.resolveAll (trail ++ [e.name]) e.name e.parents r = answer at all ⊢
      obtain ⟨_ | ancestors, r'⟩ := answer
      · exact ⟨all.problems, all.remembers, by simp, by simpa using all.none_iff⟩
      · have unfolds := Unfolds.of_forall₂ found (all.correct ancestors rfl)
        exact ⟨all.problems, all.remembers.keep unfolds, by simpa using unfolds,
          by simpa using all.none_iff⟩

end HubContract.Document
