import HubContract.Proofs.Engine.History
import HubContract.Proofs.Pipeline.Errors
import Mathlib.Data.List.Induction

namespace HubContract

namespace Context

variable {c : Context} {rules rules' : RuleSet}

-- All that a verdict takes from the rules is what they find.
theorem validate_congr
    (same : (rules.checkAll c.subject).map (fun (r, v) => Finding.ofRule r v) =
      (rules'.checkAll c.subject).map fun (r, v) => Finding.ofRule r v) :
    c.validate rules = c.validate rules' := by
  have folded (found : List (Rule × Violation)) :
      found.foldl (fun c (r, v) =>
        c.report .error r.code v.message "p30_validate" (some v.location) v.fixes) c =
      (found.map fun (r, v) => Finding.ofRule r v).foldl (fun c f =>
        c.report .error f.code f.message "p30_validate" f.location f.fixes) c := by
    rw [List.foldl_map]
    rfl
  have count := congrArg List.length same
  rw [List.length_map, List.length_map] at count
  simp only [validate, folded, same, count]

end Context

namespace Pipeline

open Context

variable {rules rules' : RuleSet} {k : Contract} {o : Options}

theorem runPasses_cons_congr {p : Pass} {ps : List Pass} {c : Context}
    (first : p.run rules c = p.run rules' c)
    (rest : ∀ c, runPasses rules ps c = runPasses rules' ps c) :
    runPasses rules (p :: ps) c = runPasses rules' (p :: ps) c := by
  simp only [runPasses, first, rest]

theorem runPasses_congr {ps : List Pass} (same : ∀ p ∈ ps, ∀ c, p.run rules c = p.run rules' c)
    (c : Context) : runPasses rules ps c = runPasses rules' ps c := by
  induction ps generalizing c with
  | nil => rfl
  | cons p ps ih =>
    obtain ⟨first, rest⟩ := List.forall_mem_cons.mp same
    exact runPasses_cons_congr (first c) (ih rest)

-- Two sets of rules give one result exactly if they make the contract's errors the same.
theorem compile_eq_iff : compile Pass.standard rules k o = compile Pass.standard rules' k o ↔
    k.errorsUnder rules = k.errorsUnder rules' := by
  constructor
  · intro same
    rw [← (compile_cases rules k o).1, same, (compile_cases rules' k o).1]
  · intro same
    obtain ⟨dropped, c, gathered, run⟩ := exists_gathered (fun _ => none) k o
    rw [Pass.standardUnless_none] at run
    have subject : c.subject = ⟨k, k.pushMethods, k.invokeMethods⟩ := by
      obtain ⟨_, _, rfl, -⟩ := gathered
      rfl
    have judged : c.validate rules = c.validate rules' :=
      validate_congr (by rw [subject]; exact List.append_cancel_left same)
    -- no pass behind the verdict looks at the rules
    have others : ∀ p ∈ [Pass.synthesize, .renderUnless fun _ => none, .package],
        ∀ c, p.run rules c = p.run rules' c := by
      simp [Pass.synthesize, Pass.renderUnless, Pass.package]
    have verdict : Pass.validate.run rules c = Pass.validate.run rules' c := congrArg Except.ok judged
    rw [compile, compile, run, run, runPasses_cons_congr verdict (runPasses_congr others)]

end Pipeline

-- Whether an entry is the one for a contract.
def ContractEntry.answers (c : ContractEntry) (id : String) (k : Contract) (o : Options) : Bool :=
  c.pipeline = id && c.contract = k && c.options.same o

namespace Engine

variable {rules : RuleSet} {e e' e'' : Engine} {id : String} {k : Contract} {o : Options}
  {c : ContractEntry}

-- What has been kept for a contract.
def kept? (e : Engine) (id : String) (k : Contract) (o : Options) : Option ContractEntry :=
  e.contractCache.find? (·.answers id k o)

theorem answers_of_kept (kept : e.kept? id k o = some c) : c.answers id k o = true := by
  have answers := List.find?_some kept
  exact answers

theorem compileContract_of_kept (pipeline : Option String)
    (kept : e.kept? (nameOr "default" pipeline) k o = some c) :
    (e.compileContract rules k o pipeline).1 = c.result := by
  unfold kept? ContractEntry.answers at kept
  simp only [compileContract, kept]

theorem compileContract_of_not_kept (pipeline : Option String)
    (unkept : e.kept? (nameOr "default" pipeline) k o = none) :
    (e.compileContract rules k o pipeline).1.value =
      contractResult e.pipelines rules k o (nameOr "default" pipeline) := by
  unfold kept? ContractEntry.answers at unkept
  simp only [compileContract, unkept]

-- Entries are only added, and new ones hold what their keys give under the rules.
structure Grows (rules : RuleSet) (e e' : Engine) : Prop where
  pipelines : e'.pipelines = e.pipelines
  entries : ∃ new, e'.contractCache = e.contractCache ++ new ∧
    ∀ c ∈ new, c.result.value = contractResult e.pipelines rules c.contract c.options c.pipeline

theorem grows_of_eq (pipelines : e'.pipelines = e.pipelines) (same : e'.contractCache = e.contractCache) :
    Grows rules e e' :=
  ⟨pipelines, [], same.trans (List.append_nil _).symm, fun _ mem => absurd mem List.not_mem_nil⟩

theorem Grows.trans (h : Grows rules e e') (h' : Grows rules e' e'') : Grows rules e e'' := by
  obtain ⟨pipelines, new, entries, values⟩ := h
  obtain ⟨pipelines', new', entries', values'⟩ := h'
  refine ⟨pipelines'.trans pipelines, new ++ new', ?_, ?_⟩
  · rw [entries', entries, List.append_assoc]
  · rw [pipelines] at values'
    exact List.forall_mem_append.mpr ⟨values, values'⟩

theorem grows_compileContract (e : Engine) (k : Contract) (o : Options) (pipeline : Option String) :
    Grows rules e (e.compileContract rules k o pipeline).2 := by
  unfold compileContract
  dsimp only
  split
  · exact grows_of_eq rfl rfl
  · exact ⟨rfl, _, rfl, List.forall_mem_singleton.mpr rfl⟩

theorem grows_compileFake (e : Engine) (m : Manifest) (o : Options) (target : Option String) :
    Grows rules e (e.compileFake m o target).2 := by
  unfold compileFake
  dsimp only
  split
  · exact grows_of_eq rfl rfl
  · exact grows_of_eq rfl rfl

theorem grows_compileClient (e : Engine) (o : Options) (pipeline : Option String)
    (client : String × Except (List Diagnostic) Contract) :
    Grows rules e (e.compileClient rules o pipeline client).2 := by
  unfold compileClient
  split
  · exact grows_compileContract ..
  · exact grows_of_eq rfl rfl

theorem grows_compileTarget (e : Engine) (bindings : List ClientBinding) (failed declared : List String)
    (o : Options) (target : String) :
    Grows rules e (compileTarget bindings failed declared o e target).2 := by
  unfold compileTarget
  split
  · exact grows_compileFake ..
  · exact grows_of_eq rfl rfl

theorem grows_each {step : Engine → α → β × Engine} (grows : ∀ e x, Grows rules e (step e x).2)
    (e : Engine) (xs : List α) : Grows rules e (each step e xs).2 := by
  induction xs generalizing e with
  | nil => exact grows_of_eq rfl rfl
  | cons x xs ih => exact (grows e x).trans (ih (step e x).2)

theorem grows_compile (e : Engine) (d : Document) (o : Options) (pipeline : Option String) :
    Grows rules e (e.compile rules d o pipeline).2 := by
  have clients : Grows rules e
      (each (fun e c => e.compileClient rules o pipeline c) e d.discover.clients).2 :=
    grows_each (fun e c => grows_compileClient e o pipeline c) e d.discover.clients
  exact clients.trans (grows_each (fun e target => grows_compileTarget e _ _ _ o target) _ d.fakes)

-- Operations after which nothing is kept for a pipeline.
def Operation.drops (id : String) : Operation → Bool
  | registerPipeline name _ => name = id
  | setupDefault => "default" = id
  | clearCache => true
  | compileContract _ _ _ | compileFake _ _ _ | compile _ _ _ => false

theorem kept?_registerPipeline (e : Engine) (name : String) (passes : List Pass) :
    (e.registerPipeline name passes).kept? id k o = if name = id then none else e.kept? id k o := by
  simp only [kept?, registerPipeline, List.find?_filter]
  split
  case isTrue named =>
    rw [List.find?_eq_none]
    rintro c -
    by_cases same : c.pipeline = id <;> simp [ContractEntry.answers, named, same]
  case isFalse other =>
    congr 1
    funext c
    by_cases same : c.pipeline = id
    · simp [ContractEntry.answers, same, Ne.symm other]
    · simp [ContractEntry.answers, same]

theorem kept?_of_drops {op : Operation} (drops : op.drops id = true) :
    (e.apply rules op).2.kept? id k o = none := by
  cases op with
  | registerPipeline name passes =>
    exact (kept?_registerPipeline e name passes).trans (if_pos (of_decide_eq_true drops))
  | setupDefault => exact (kept?_registerPipeline e _ _).trans (if_pos (of_decide_eq_true drops))
  | clearCache => rfl
  | compileContract k o pipeline => cases drops
  | compileFake m o target => cases drops
  | compile d o pipeline => cases drops

-- An entry was kept before, or nothing was and it is made under the rules of the moment.
structure Explains (rules : RuleSet) (e e' : Engine) (id : String) (k : Contract) (o : Options)
    (c : ContractEntry) : Prop where
  pipelines : e'.pipelines.lookup id = e.pipelines.lookup id
  entry : e.kept? id k o = some c ∨ e.kept? id k o = none ∧
    c.result.value = contractResult e.pipelines rules c.contract c.options c.pipeline

theorem Grows.explains (h : Grows rules e e') (kept : e'.kept? id k o = some c) :
    Explains rules e e' id k o c := by
  refine ⟨by rw [h.pipelines], ?_⟩
  obtain ⟨new, entries, values⟩ := h.entries
  rw [kept?, entries, List.find?_append] at kept
  cases before : e.kept? id k o with
  | some c' =>
    rw [kept?] at before
    rw [before] at kept
    exact .inl kept
  | none =>
    rw [kept?] at before
    rw [before, Option.none_or] at kept
    exact .inr ⟨rfl, values c (List.mem_of_find?_eq_some kept)⟩

theorem explains_registerPipeline {name : String} {passes : List Pass}
    (kept : (e.registerPipeline name passes).kept? id k o = some c) :
    Explains rules e (e.registerPipeline name passes) id k o c := by
  rw [kept?_registerPipeline] at kept
  split at kept
  next => cases kept
  next other =>
    refine ⟨?_, .inl kept⟩
    rw [lookup_registerPipeline, if_neg (Ne.symm other)]

theorem explains_apply {op : Operation} (kept : (e.apply rules op).2.kept? id k o = some c) :
    Explains rules e (e.apply rules op).2 id k o c := by
  cases op with
  | registerPipeline name passes => exact explains_registerPipeline kept
  | setupDefault => exact explains_registerPipeline kept
  | clearCache => cases kept
  | compileContract k o pipeline => exact (grows_compileContract e k o pipeline).explains kept
  | compileFake m o target => exact (grows_compileFake e m o target).explains kept
  | compile d o pipeline => exact (grows_compile e d o pipeline).explains kept

-- What may be done in turn: the rules are changed, or something is asked of the engine.
inductive Deed where
  | register (rule : Rule)
  | unregister (id : String)
  | ask (op : Operation)

-- The rules that are registered, and an engine.
structure Setting where
  rules : RuleSet := .builtIn
  engine : Engine := {}

namespace Setting

def apply (s : Setting) : Deed → Setting
  | .register rule => { s with rules := s.rules.register rule }
  | .unregister id => { s with rules := s.rules.unregister id }
  | .ask op => { s with engine := (s.engine.apply s.rules op).2 }

def run (s : Setting) (deeds : List Deed) : Setting := deeds.foldl apply s

-- Operations leave the rules alone.
theorem rules_run_ask (s : Setting) (ops : List Operation) : (s.run (ops.map .ask)).rules = s.rules := by
  induction ops generalizing s with
  | nil => rfl
  | cons op ops ih => exact ih (s.apply (.ask op))

-- What the engine has kept for a contract.
def kept? (s : Setting) (k : Contract) (o : Options) : Option ContractEntry :=
  s.engine.kept? "default" k o

variable {s : Setting} {k : Contract} {o : Options} {c : ContractEntry} {deeds before after : List Deed}

theorem run_append (s : Setting) (first rest : List Deed) :
    s.run (first ++ rest) = (s.run first).run rest := List.foldl_append

theorem explains_apply {d : Deed} (kept : (s.apply d).kept? k o = some c) :
    Explains s.rules s.engine (s.apply d).engine "default" k o c := by
  cases d with
  | register rule => exact ⟨rfl, .inl kept⟩
  | unregister id => exact ⟨rfl, .inl kept⟩
  | ask op => exact Engine.explains_apply kept

-- The last moment at which nothing was kept for a contract. All that came later left the entry that
-- was made there as it was.
structure LastUnkept (s : Setting) (k : Contract) (o : Options) (before after : List Deed) : Prop where
  unkept : (s.run before).kept? k o = none
  since : ∀ m, m ≠ [] → m <+: after → ((s.run (before ++ m)).kept? k o).isSome

-- The entry that is kept goes back to that moment.
theorem exists_lastUnkept (empty : s.engine.contractCache = []) (kept : (s.run deeds).kept? k o = some c) :
    ∃ before after, deeds = before ++ after ∧ s.LastUnkept k o before after ∧
      (s.run deeds).engine.pipelines.lookup "default" =
        (s.run before).engine.pipelines.lookup "default" ∧
      c.result.value = contractResult (s.run before).engine.pipelines (s.run before).rules c.contract
        c.options c.pipeline := by
  induction deeds using List.reverseRecOn generalizing c with
  | nil =>
    have nothing : (s.run []).kept? k o = none := by
      rw [kept?, Engine.kept?, run, List.foldl_nil, empty, List.find?_nil]
    cases nothing.symm.trans kept
  | append_singleton deeds d ih =>
    have last : s.run (deeds ++ [d]) = (s.run deeds).apply d := run_append s deeds [d]
    rw [last] at kept ⊢
    have explains := explains_apply kept
    rcases explains.entry with earlier | ⟨unkept, value⟩
    · obtain ⟨before, after, rfl, moment, lookup, value⟩ := ih earlier
      refine ⟨before, after ++ [d], List.append_assoc .., ⟨moment.unkept, ?_⟩,
        explains.pipelines.trans lookup, value⟩
      intro m nonempty initial
      rcases List.prefix_concat_iff.mp initial with rfl | initial
      · rw [← List.append_assoc, last, kept]
        rfl
      · exact moment.since m nonempty initial
    · refine ⟨deeds, [d], rfl, ⟨unkept, ?_⟩, explains.pipelines, value⟩
      intro m nonempty initial
      have initial : m <+: [] ++ [d] := initial
      rcases List.prefix_concat_iff.mp initial with rfl | initial
      · rw [List.nil_append, last, kept]
        rfl
      · exact absurd (List.prefix_nil.mp initial) nonempty

-- What the default pipeline gives is kept for all options that compare equal.
theorem result_eq_compile (standard : s.engine.pipelines.lookup "default" = some Pass.standard)
    (answers : c.answers "default" k o = true) :
    contractResult s.engine.pipelines s.rules c.contract c.options c.pipeline =
      Pipeline.compile Pass.standard s.rules k o := by
  obtain ⟨⟨named, rfl⟩, same⟩ : (c.pipeline = "default" ∧ c.contract = k) ∧ c.options.same o := by
    simpa [ContractEntry.answers] using answers
  rw [named, contractResult, standard]
  exact Pipeline.compile_eq_of_same (Pass.standard_extensional s.rules) c.contract same

-- What is asked for is what the rules gave at the last moment at which nothing was kept.
theorem exists_moment (empty : s.engine.contractCache = [])
    (standard : (s.run deeds).engine.pipelines.lookup "default" = some Pass.standard) (k : Contract)
    (o : Options) :
    ∃ before after, deeds = before ++ after ∧ s.LastUnkept k o before after ∧
      ((s.run deeds).engine.compileContract (s.run deeds).rules k o none).1.value =
        Pipeline.compile Pass.standard (s.run before).rules k o := by
  cases kept : (s.run deeds).kept? k o with
  | none =>
    refine ⟨deeds, [], (List.append_nil _).symm, ⟨kept, fun m nonempty initial => ?_⟩, ?_⟩
    · exact absurd (List.prefix_nil.mp initial) nonempty
    · rw [compileContract_of_not_kept none kept, contractResult]
      simp only [nameOr, standard]
  | some c =>
    obtain ⟨before, after, parts, moment, lookup, value⟩ := exists_lastUnkept empty kept
    refine ⟨before, after, parts, moment, ?_⟩
    rw [compileContract_of_kept none kept, value]
    exact result_eq_compile (lookup.symm.trans standard) (answers_of_kept kept)

theorem compileContract_fresh (standard : s.engine.pipelines.lookup "default" = some Pass.standard)
    (k : Contract) (o : Options) :
    (s.engine.fresh.compileContract s.rules k o none).1.value =
      Pipeline.compile Pass.standard s.rules k o := by
  rw [compileContract_of_not_kept none rfl, contractResult]
  simp only [nameOr, fresh, standard]

end Setting

-- Whatever is done with the rules and the engine, a contract gets the result that the rules gave at the
-- last moment at which nothing was kept for it. An engine that has kept nothing gives the same exactly
-- if the contract has the same errors under the rules of then and of now.
theorem compileContract_as_of {s : Setting} (empty : s.engine.contractCache = []) (deeds : List Deed)
    (standard : (s.run deeds).engine.pipelines.lookup "default" = some Pass.standard) (k : Contract)
    (o : Options) :
    let t := s.run deeds
    let result := (t.engine.compileContract t.rules k o none).1.value
    ∃ before after, deeds = before ++ after ∧ s.LastUnkept k o before after ∧
      Diagnostic.errors result.diagnostics = k.errorsUnder (s.run before).rules ∧
      (result = (t.engine.fresh.compileContract t.rules k o none).1.value ↔
        k.errorsUnder (s.run before).rules = k.errorsUnder t.rules) := by
  intro t result
  obtain ⟨before, after, parts, moment, value⟩ := Setting.exists_moment empty standard k o
  have value : result = Pipeline.compile Pass.standard (s.run before).rules k o := value
  refine ⟨before, after, parts, moment, ?_, ?_⟩
  · rw [value]
    exact (Pipeline.compile_cases _ k o).1
  · rw [value, Setting.compileContract_fresh standard]
    exact Pipeline.compile_eq_iff

-- Whoever drops what was kept after the last change of the rules gets what an engine that has kept
-- nothing gives.
theorem compileContract_of_dropped {s : Setting} (empty : s.engine.contractCache = [])
    {early : List Deed} {op : Operation} {late : List Operation} (drops : op.drops "default" = true)
    (standard : (s.run (early ++ [.ask op] ++ late.map .ask)).engine.pipelines.lookup "default" =
      some Pass.standard) (k : Contract) (o : Options) :
    let t := s.run (early ++ [.ask op] ++ late.map .ask)
    (t.engine.compileContract t.rules k o none).1.value =
      (t.engine.fresh.compileContract t.rules k o none).1.value := by
  intro t
  obtain ⟨before, after, parts, moment, value⟩ := Setting.exists_moment empty standard k o
  have unkept : (s.run (early ++ [.ask op])).kept? k o = none := by
    rw [Setting.run_append]
    exact kept?_of_drops drops
  have last : t.rules = (s.run (early ++ [.ask op])).rules := by
    show (s.run (early ++ [.ask op] ++ late.map .ask)).rules = _
    rw [Setting.run_append, Setting.rules_run_ask]
  have sameRules : (s.run before).rules = t.rules := by
    rw [last]
    rcases List.append_eq_append_iff.mp parts with ⟨asked, rfl, rest⟩ | ⟨more, front, rfl⟩
    · obtain ⟨ops, others, rfl, rfl, rfl⟩ := List.map_eq_append_iff.mp rest
      rw [Setting.run_append, Setting.rules_run_ask]
    · by_cases none : more = []
      · rw [front, none, List.append_nil]
      · -- something would have been kept in between
        have kept := moment.since more none (List.prefix_append _ _)
        rw [← front, unkept] at kept
        cases kept
  rw [value, sameRules]
  exact (Setting.compileContract_fresh standard k o).symm

-- A hub client with one method, and a rule against methods of that name.
def gallery : Contract :=
  { name := "IGallery", uri := "gallery", methods := [{ name := "Ping", owner := "IGallery" }] }

def noPing : Rule := .forbidden "NO_PING" .pushReturnShape .push "Ping"

-- The rule is registered after the contract was compiled, and goes unnoticed.
theorem compileContract_as_of_gallery :
    let t := Setting.run {} [.ask .setupDefault, .ask (.compileContract gallery {} none), .register noPing]
    (t.engine.compileContract t.rules gallery {} none).1.value.status = .success ∧
      (t.engine.fresh.compileContract t.rules gallery {} none).1.value.status = .failed := by
  decide +kernel

end Engine

end HubContract
