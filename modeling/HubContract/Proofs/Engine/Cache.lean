import HubContract.Engine
import HubContract.Proofs.Pipeline.Extensional

namespace HubContract

namespace Engine

-- Every entry holds what its key would give now, also under names that no pipeline has.
structure Sound (rules : RuleSet) (e : Engine) : Prop where
  functions : ∀ id passes, e.pipelines.lookup id = some passes → ∀ p ∈ passes, p.Extensional rules
  contracts : ∀ c ∈ e.contractCache,
    c.result.value = contractResult e.pipelines rules c.contract c.options c.pipeline
  fakes : ∀ c ∈ e.fakeCache, c.result.value = Pipeline.compileFake c.manifest c.options c.target

variable {rules : RuleSet} {e : Engine}

theorem sound_empty : Sound rules {} :=
  ⟨nofun, fun _ mem => absurd mem List.not_mem_nil, fun _ mem => absurd mem List.not_mem_nil⟩

private theorem lookup_cons_eq_ite (k j : String) (passes : List Pass)
    (ps : List (String × List Pass)) :
    ((k, passes) :: ps).lookup j = if j = k then some passes else ps.lookup j := by
  by_cases h : j = k
  · simp [h]
  · have differs : (j == k) = false := beq_false_of_ne h
    simp [List.lookup_cons, differs, h]

theorem lookup_replace (passes : List Pass) (pipelines : List (String × List Pass)) (id j : String) :
    (pipelines.map fun p => if p.1 = id then (id, passes) else p).lookup j =
      if j = id then (pipelines.lookup j).map fun _ => passes else pipelines.lookup j := by
  induction pipelines with
  | nil => simp
  | cons p ps ih =>
    obtain ⟨k, old⟩ := p
    rw [List.map_cons, lookup_cons_eq_ite]
    by_cases named : k = id
    · rw [if_pos named, lookup_cons_eq_ite, ih, named]
      by_cases asked : j = id <;> simp [asked]
    · rw [if_neg named, lookup_cons_eq_ite, ih]
      by_cases first : j = k
      · simp [first, named]
      · simp [first]

-- The last registration of a name counts.
theorem lookup_registerPipeline (e : Engine) (id : String) (passes : List Pass) (j : String) :
    (e.registerPipeline id passes).pipelines.lookup j =
      if j = id then some passes else e.pipelines.lookup j := by
  simp only [registerPipeline]
  split
  case isTrue known =>
    obtain ⟨p, mem, named⟩ := List.any_eq_true.mp known
    have found : (e.pipelines.lookup id).isSome := by
      rw [List.lookup_isSome_iff]
      exact ⟨p, mem, beq_iff_eq.mpr (of_decide_eq_true named).symm⟩
    obtain ⟨old, found⟩ := Option.isSome_iff_exists.mp found
    rw [lookup_replace]
    by_cases asked : j = id
    · simp [asked, found]
    · simp [asked]
  case isFalse unknown =>
    have absent : e.pipelines.lookup id = none := by
      rw [List.lookup_eq_none_iff]
      intro p mem
      have differs : p.1 ≠ id := fun named =>
        unknown (List.any_eq_true.mpr ⟨p, mem, decide_eq_true named⟩)
      simpa using differs.symm
    rw [List.lookup_append, lookup_cons_eq_ite]
    by_cases asked : j = id
    · simp [asked, absent]
    · simp [asked]

theorem contractResult_congr {ps qs : List (String × List Pass)} {id : String}
    (h : ps.lookup id = qs.lookup id) (k : Contract) (o : Options) :
    contractResult ps rules k o id = contractResult qs rules k o id := by
  rw [contractResult, h, ← contractResult]

theorem Sound.contractResult_eq_of_same (h : e.Sound rules) (k : Contract) {o p : Options}
    (same : o.same p) (id : String) :
    contractResult e.pipelines rules k o id = contractResult e.pipelines rules k p id := by
  unfold contractResult
  cases found : e.pipelines.lookup id with
  | none => rfl
  | some passes => exact Pipeline.compile_eq_of_same (h.functions id passes found) k same

-- Replacing a pipeline drops just the entries that it may have made stale, those included that were
-- made when there was none under the name.
theorem Sound.registerPipeline (h : e.Sound rules) (id : String) {passes : List Pass}
    (functions : ∀ p ∈ passes, p.Extensional rules) : (e.registerPipeline id passes).Sound rules := by
  refine ⟨?_, ?_, h.fakes⟩
  · intro j found lookup
    rw [lookup_registerPipeline] at lookup
    split at lookup
    · exact Option.some.inj lookup ▸ functions
    · exact h.functions j found lookup
  · intro c mem
    obtain ⟨mem, other⟩ := List.mem_filter.mp mem
    rw [h.contracts c mem]
    apply contractResult_congr
    rw [lookup_registerPipeline, if_neg (of_decide_eq_true other)]

theorem Sound.clearCache (h : e.Sound rules) : e.clearCache.Sound rules :=
  ⟨h.functions, fun _ mem => absurd mem List.not_mem_nil, fun _ mem => absurd mem List.not_mem_nil⟩

-- A value that was asked of an engine, with an engine that can take its place.
structure Serves (rules : RuleSet) (e : Engine) (value : β) (r : Made β × Engine) : Prop where
  value : r.1.value = value
  sound : r.2.Sound rules
  pipelines : r.2.pipelines = e.pipelines

theorem Sound.issue (h : e.Sound rules) (value : β) : Serves rules e value (e.issue value) :=
  ⟨rfl, ⟨h.functions, h.contracts, h.fakes⟩, rfl⟩

theorem Sound.compileContract (h : e.Sound rules) (k : Contract) (o : Options)
    (pipeline : Option String) :
    Serves rules e (contractResult e.pipelines rules k o (nameOr "default" pipeline))
      (e.compileContract rules k o pipeline) := by
  unfold Engine.compileContract
  generalize nameOr "default" pipeline = id
  dsimp only
  split
  case h_1 c found =>
    have mem := List.mem_of_find?_eq_some found
    obtain ⟨⟨rfl, rfl⟩, same⟩ : (c.pipeline = id ∧ c.contract = k) ∧ c.options.same o := by
      simpa using List.find?_some found
    exact ⟨(h.contracts c mem).trans (h.contractResult_eq_of_same _ same _), h, rfl⟩
  case h_2 =>
    refine ⟨rfl, ⟨h.functions, ?_, h.fakes⟩, rfl⟩
    exact List.forall_mem_append.mpr ⟨h.contracts, List.forall_mem_singleton.mpr rfl⟩

theorem Sound.compileFake (h : e.Sound rules) (m : Manifest) (o : Options) (target : Option String) :
    Serves rules e (Pipeline.compileFake m o (nameOr m.bindingName target))
      (e.compileFake m o target) := by
  unfold Engine.compileFake
  generalize nameOr m.bindingName target = name
  dsimp only
  split
  case h_1 c found =>
    have mem := List.mem_of_find?_eq_some found
    obtain ⟨⟨rfl, rfl⟩, same⟩ : (c.target = name ∧ c.manifest = m) ∧ c.options.same o := by
      simpa using List.find?_some found
    exact ⟨(h.fakes c mem).trans (Pipeline.compileFake_eq_of_same _ same _), h, rfl⟩
  case h_2 =>
    refine ⟨rfl, ⟨h.functions, h.contracts, ?_⟩, rfl⟩
    exact List.forall_mem_append.mpr ⟨h.fakes, List.forall_mem_singleton.mpr rfl⟩

-- The result for a hub client as it was found in a document.
def clientResult (pipelines : List (String × List Pass)) (rules : RuleSet) (o : Options)
    (pipeline : Option String) (client : String × Except (List Diagnostic) Contract) :
    CompiledContract :=
  match client.2 with
  | .ok k => contractResult pipelines rules k o (nameOr "default" pipeline)
  | .error ds => { contractName := client.1, status := .failed, diagnostics := ds }

theorem clientResult_congr {ps qs : List (String × List Pass)} {pipeline : Option String}
    (h : ps.lookup (nameOr "default" pipeline) = qs.lookup (nameOr "default" pipeline)) (o : Options)
    (client : String × Except (List Diagnostic) Contract) :
    clientResult ps rules o pipeline client = clientResult qs rules o pipeline client := by
  obtain ⟨name, outcome⟩ := client
  cases outcome with
  | ok k => exact contractResult_congr h k o
  | error ds => rfl

theorem Sound.compileClient (h : e.Sound rules) (o : Options) (pipeline : Option String)
    (client : String × Except (List Diagnostic) Contract) :
    Serves rules e (clientResult e.pipelines rules o pipeline client)
      (e.compileClient rules o pipeline client) := by
  obtain ⟨name, outcome⟩ := client
  cases outcome with
  | ok k => exact h.compileContract k o pipeline
  | error ds => exact h.issue _

def targetResult (bindings : List ClientBinding) (failed declared : List String) (o : Options)
    (target : String) : CompiledFake :=
  match bindings.reverse.find? (·.name = target) with
  | some b => Pipeline.compileFake b.manifest o (nameOr b.manifest.bindingName (some target))
  | none => CompiledFake.failure target .unknownFakeTarget
      ("Cannot generate a fake for '" ++ target ++ "': " ++ absentReason failed declared target)

theorem Sound.compileTarget (h : e.Sound rules) (bindings : List ClientBinding)
    (failed declared : List String) (o : Options) (target : String) :
    Serves rules e (targetResult bindings failed declared o target)
      (Engine.compileTarget bindings failed declared o e target) := by
  unfold Engine.compileTarget targetResult
  cases bindings.reverse.find? (·.name = target) with
  | some b => exact h.compileFake b.manifest o (some target)
  | none => exact h.issue _

-- Steps that each serve a value serve the list of the values.
theorem Sound.each {step : Engine → α → Made β × Engine} {f : α → β} (h : e.Sound rules)
    (steps : ∀ e' : Engine, e'.Sound rules → e'.pipelines = e.pipelines →
      ∀ x, Serves rules e' (f x) (step e' x)) (xs : List α) :
    (Engine.each step e xs).1.map (·.value) = xs.map f ∧ (Engine.each step e xs).2.Sound rules ∧
      (Engine.each step e xs).2.pipelines = e.pipelines := by
  suffices ∀ e' : Engine, e'.Sound rules → e'.pipelines = e.pipelines →
      (Engine.each step e' xs).1.map (·.value) = xs.map f ∧ (Engine.each step e' xs).2.Sound rules ∧
        (Engine.each step e' xs).2.pipelines = e.pipelines from this e h rfl
  induction xs with
  | nil => exact fun e' sound kept => ⟨rfl, sound, kept⟩
  | cons x xs ih =>
    intro e' sound kept
    have first := steps e' sound kept x
    obtain ⟨values, sound', kept'⟩ := ih (step e' x).2 first.sound (first.pipelines.trans kept)
    exact ⟨by simp only [Engine.each, List.map_cons, first.value, values], sound', kept'⟩

-- The clients of a document in turn, and its fakes, none of which a cache decides.
theorem Sound.each_client (h : e.Sound rules) (o : Options) (pipeline : Option String)
    (clients : List (String × Except (List Diagnostic) Contract)) :
    let (made, e') := Engine.each (fun e c => e.compileClient rules o pipeline c) e clients
    made.map (·.value) = clients.map (clientResult e.pipelines rules o pipeline) ∧
      e'.Sound rules ∧ e'.pipelines = e.pipelines :=
  h.each (fun _ sound kept client => kept ▸ sound.compileClient o pipeline client) clients

theorem Sound.each_target (h : e.Sound rules) (bindings : List ClientBinding)
    (failed declared : List String) (o : Options) (targets : List String) :
    let (made, e') := Engine.each (Engine.compileTarget bindings failed declared o) e targets
    made.map (·.value) = targets.map (targetResult bindings failed declared o) ∧
      e'.Sound rules ∧ e'.pipelines = e.pipelines :=
  h.each (fun _ sound _ target => sound.compileTarget bindings failed declared o target) targets

theorem Sound.compile_contracts (h : e.Sound rules) (d : Document) (o : Options)
    (pipeline : Option String) :
    (e.compile rules d o pipeline).1.compilation.contracts =
      d.discover.clients.map (clientResult e.pipelines rules o pipeline) :=
  (h.each_client o pipeline d.discover.clients).1

-- Engines with the same pipelines give the same results, whatever they have kept.
theorem Sound.compile_congr {e' : Engine} (h : e.Sound rules) (h' : e'.Sound rules)
    (same : e.pipelines = e'.pipelines) (d : Document) (o : Options) (pipeline : Option String) :
    (e.compile rules d o pipeline).1.compilation =
      (e'.compile rules d o pipeline).1.compilation := by
  obtain ⟨values, sound, -⟩ := h.each_client o pipeline d.discover.clients
  obtain ⟨values', sound', -⟩ := h'.each_client o pipeline d.discover.clients
  simp only [compile, values, values', same, (sound.each_target _ _ _ o d.fakes).1,
    (sound'.each_target _ _ _ o d.fakes).1]

theorem Sound.compile (h : e.Sound rules) (d : Document) (o : Options) (pipeline : Option String) :
    (e.compile rules d o pipeline).2.Sound rules ∧
      (e.compile rules d o pipeline).2.pipelines = e.pipelines := by
  obtain ⟨-, sound, kept⟩ := h.each_client o pipeline d.discover.clients
  obtain ⟨-, sound', kept'⟩ := sound.each_target _ _ _ o d.fakes
  exact ⟨sound', kept'.trans kept⟩

end Engine

end HubContract
