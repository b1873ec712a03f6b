import HubContract.Proofs.Document.Claiming
import HubContract.Proofs.Document.Heading

namespace HubContract

namespace Way

-- What a function finds on ways, each of which is listed once, in the order of their steps.
structure Lists (find : List Nat → Option α) (ways : List (List Nat)) (as : List α) : Prop where
  sorted : ways.Pairwise (· < ·)
  mem_iff : ∀ way, way ∈ ways ↔ (find way).isSome
  found : as.map some = ways.map find

-- Ways whose first step picks one of several places to go on from.
def branch (xs : List β) (find : β → List Nat → Option α) : List Nat → Option α
  | [] => none
  | i :: way => xs[i]?.bind fun x => find x way

-- A way past the first place.
def past : List Nat → List Nat
  | [] => []
  | i :: way => (i + 1) :: way

theorem past_lt_past {way way' : List Nat} (before : way < way') : past way < past way' := by
  cases way' with
  | nil => exact absurd before (List.not_lt_nil way)
  | cons j way' =>
    cases way with
    | nil => exact List.nil_lt_cons (j + 1) way'
    | cons i way =>
      rw [past, past, List.cons_lt_cons_iff, Nat.add_lt_add_iff_right, Nat.add_right_cancel_iff]
      exact List.cons_lt_cons_iff.mp before

theorem branch_past (x : β) (xs : List β) (find : β → List Nat → Option α) (way : List Nat) :
    branch (x :: xs) find (past way) = branch xs find way := by
  cases way with
  | nil => rfl
  | cons i way => rfl

-- The ways from the first of several places, and then those from the others.
def together (ways ways' : List (List Nat)) : List (List Nat) := ways.map (0 :: ·) ++ ways'.map past

section

variable {ways ways' : List (List Nat)} {way : List Nat} {i : Nat}

theorem nil_not_mem_together (started : [] ∉ ways') : [] ∉ together ways ways' := by
  simp only [together, List.mem_append, List.mem_map]
  rintro (⟨way, -, same⟩ | ⟨way, mem, same⟩)
  · cases same
  · cases way with
    | nil => exact started mem
    | cons i way => cases same

theorem zero_cons_mem_together : 0 :: way ∈ together ways ways' ↔ way ∈ ways := by
  simp only [together, List.mem_append, List.mem_map]
  refine ⟨?_, fun mem => .inl ⟨way, mem, rfl⟩⟩
  rintro (⟨way, mem, same⟩ | ⟨way, -, same⟩)
  · cases same
    exact mem
  · cases way <;> cases same

theorem succ_cons_mem_together : (i + 1) :: way ∈ together ways ways' ↔ i :: way ∈ ways' := by
  simp only [together, List.mem_append, List.mem_map]
  refine ⟨?_, fun mem => .inr ⟨i :: way, mem, rfl⟩⟩
  rintro (⟨way, -, same⟩ | ⟨way, mem, same⟩)
  · cases same
  · cases way with
    | nil => cases same
    | cons j way =>
      cases same
      exact mem

theorem pairwise_together (sorted : ways.Pairwise (· < ·)) (sorted' : ways'.Pairwise (· < ·))
    (started : [] ∉ ways') : (together ways ways').Pairwise (· < ·) := by
  refine List.pairwise_append.mpr ⟨?_, ?_, ?_⟩
  · exact List.pairwise_map.mpr (sorted.imp List.cons_lt_cons_self.mpr)
  · exact List.pairwise_map.mpr (sorted'.imp past_lt_past)
  · intro way mem way' mem'
    obtain ⟨way, -, rfl⟩ := List.mem_map.mp mem
    obtain ⟨way', inside, rfl⟩ := List.mem_map.mp mem'
    cases way' with
    | nil => exact absurd inside started
    | cons i way' => exact List.cons_lt_cons_iff.mpr (.inl (Nat.succ_pos i))

end

-- Ways that go on from one of several places, one place after the other.
theorem Lists.branch {xs : List β} {find : β → List Nat → Option α} {each : β → List α}
    (lists : ∀ x ∈ xs, ∃ ways, Lists (find x) ways (each x)) :
    ∃ ways, Lists (branch xs find) ways (xs.flatMap each) := by
  induction xs with
  | nil =>
    refine ⟨[], .nil, fun way => ?_, rfl⟩
    cases way with
    | nil => simp [Way.branch]
    | cons i way => simp [Way.branch]
  | cons x xs ih =>
    obtain ⟨⟨ways, first⟩, others⟩ := List.forall_mem_cons.mp lists
    obtain ⟨ways', rest⟩ := ih others
    have started : [] ∉ ways' := fun mem => Bool.false_ne_true ((rest.mem_iff []).mp mem)
    refine ⟨together ways ways', pairwise_together first.sorted rest.sorted started, fun way => ?_, ?_⟩
    · cases way with
      | nil => exact iff_of_false (nil_not_mem_together started) Bool.false_ne_true
      | cons i way =>
        cases i with
        | zero => exact zero_cons_mem_together.trans (first.mem_iff way)
        | succ i => exact succ_cons_mem_together.trans (rest.mem_iff (i :: way))
    · rw [together, List.flatMap_cons, List.map_append, List.map_append, List.map_map, List.map_map,
        first.found, rest.found]
      exact congrArg _ (List.map_congr_left fun way _ => (branch_past x xs find way).symm)

-- A place at which every way ends.
theorem Lists.single {find : List Nat → Option α} {a : α} (here : find [] = some a)
    (ends : ∀ i way, find (i :: way) = none) : Lists find [[]] [a] where
  sorted := List.pairwise_singleton _ _
  mem_iff way := by
    cases way with
    | nil => simp [here]
    | cons i way => simp [ends]
  found := by rw [List.map_singleton, List.map_singleton, here]

section Matters

variable {find : List Nat → Option α} {ways : List (List Nat)} {as : List α}

theorem Lists.map_some (lists : Lists find ways as) (f : α → β) :
    (as.map f).map some = ways.map fun way => (find way).map f := by
  have along := congrArg (List.map (Option.map f)) lists.found
  rw [List.map_map, List.map_map] at along
  exact List.map_map.trans along

-- What is found is different under a function if and only if no two ways lead to what is the same under it.
theorem Lists.nodup_iff (lists : Lists find ways as) (f : α → β) :
    (as.map f).Nodup ↔ ∀ way way' a a', find way = some a → find way' = some a' → f a = f a' → way = way' := by
  have distinct : ways.Nodup := lists.sorted.imp fun before => ne_of_lt before
  rw [← List.nodup_map_iff (fun _ _ => Option.some.inj), lists.map_some f, List.nodup_map_iff_inj_on distinct]
  constructor
  · intro apart way way' a a' here there same
    refine apart way ((lists.mem_iff way).mpr ?_) way' ((lists.mem_iff way').mpr ?_) ?_
    · rw [here, Option.isSome_some]
    · rw [there, Option.isSome_some]
    · rw [here, there, Option.map_some, Option.map_some, same]
  · intro apart way mem way' mem' same
    obtain ⟨a, here⟩ := Option.isSome_iff_exists.mp ((lists.mem_iff way).mp mem)
    obtain ⟨a', there⟩ := Option.isSome_iff_exists.mp ((lists.mem_iff way').mp mem')
    rw [here, there] at same
    exact apart way way' a a' here there (Option.some.inj same)

end Matters

end Way

-- What a diagnostic says and where, apart from its number.
def Diagnostic.matter (δ : Diagnostic) : Code × String × Option Location := (δ.code, δ.message, δ.location)

def Problem.matter (p : Problem) : Code × String × Option Location :=
  (p.code, p.message, some ⟨p.referrer, none⟩)

namespace Document

open Way

-- What is met at the end of a way from a name, each step of which picks one of the names that a declaration
-- extends. There is nothing if the way cannot be gone or goes on.
def problemAt (d : Document) (trail : List String) (referrer name : String) : List Nat → Option Problem
  | [] =>
    if name ∈ trail then some (.cycle referrer (trail.dropWhile (· ≠ name) ++ [name]))
    else if d.get? name = none then some (.undeclared referrer name)
    else none
  | i :: way =>
    if name ∈ trail then none
    else (d.get? name).bind fun e => e.parents[i]?.bind fun parent =>
      problemAt d (trail ++ [name]) name parent way

-- The same from a hub client, the first step picking a side or the bridge.
def clientProblemAt (d : Document) (decl : Declaration) (marker : HubMarker) : List Nat → Option Problem :=
  branch (marker.sides ++ [decl.name]) (d.problemAt [] decl.name)

variable {d : Document} {decl : Declaration} {marker : HubMarker} {trail : List String}
  {referrer name : String} {ways : List (List Nat)} {ps : List Problem} {ds : List Diagnostic}

theorem exists_lists_problemsFrom (d : Document) (trail : List String) (referrer name : String) :
    ∃ ways, Lists (d.problemAt trail referrer name) ways (d.problemsFrom trail referrer name) := by
  induction trail, name using trail_induction d generalizing referrer with
  | met trail name met =>
    rw [problemsFrom_of_mem met]
    exact ⟨_, .single (if_pos met) fun i way => if_pos met⟩
  | absent trail name fresh absent =>
    rw [problemsFrom_of_none fresh absent]
    refine ⟨_, .single ?_ fun i way => ?_⟩
    · rw [problemAt, if_neg fresh, if_pos absent]
    · rw [problemAt, if_neg fresh, absent, Option.bind_none]
  | declared trail name e fresh found ih =>
    rw [problemsFrom_of_some fresh found]
    have goes : d.problemAt trail referrer name =
        branch e.parents (d.problemAt (trail ++ [name]) name) := by
      funext way
      cases way with
      | nil => simp [problemAt, branch, fresh, found]
      | cons i way => rw [problemAt, branch, if_neg fresh, found, Option.bind_some]
    rw [goes]
    exact Lists.branch fun parent there => ih parent there name

theorem exists_lists_clientProblems (d : Document) (decl : Declaration) (marker : HubMarker) :
    ∃ ways, Lists (d.clientProblemAt decl marker) ways (d.clientProblems decl marker) :=
  Lists.branch fun root _ => exists_lists_problemsFrom d [] decl.name root

theorem map_matter_diagnosticsFrom (subject : String) (n : Nat) (ps : List Problem) :
    (diagnosticsFrom subject n ps).map Diagnostic.matter = ps.map Problem.matter := by
  induction ps generalizing n with
  | nil => rfl
  | cons p ps ih => rw [diagnosticsFrom, List.map_cons, List.map_cons, ih]; rfl

-- Diagnostics of a hub client that say, one by one and in order, what the ways lead to.
structure ByWays (d : Document) (decl : Declaration) (marker : HubMarker) (ways : List (List Nat))
    (ds : List Diagnostic) : Prop where
  sorted : ways.Pairwise (· < ·)
  mem_iff : ∀ way, way ∈ ways ↔ (d.clientProblemAt decl marker way).isSome
  matters : (ds.map (·.matter)).map some =
    ways.map fun way => (d.clientProblemAt decl marker way).map (·.matter)

-- No two ways lead to problems of which the same is said.
def LeadsApart (d : Document) (decl : Declaration) (marker : HubMarker) : Prop :=
  ∀ way way' p p', d.clientProblemAt decl marker way = some p →
    d.clientProblemAt decl marker way' = some p' → p.matter = p'.matter → way = way'

theorem reports_by_ways (found : d.get? decl.name = some decl)
    (fails : d.resolveClient decl marker = .error ds) :
    (∃ ways, d.ByWays decl marker ways ds) ∧ ((ds.map (·.matter)).Nodup ↔ d.LeadsApart decl marker) := by
  obtain ⟨ps, problems, rfl⟩ := resolveClient_eq_error_iff.mp fails
  obtain ⟨rfl, -⟩ := (resolveContract_eq_error_iff found).mp problems
  obtain ⟨ways, lists⟩ := exists_lists_clientProblems d decl marker
  have matters := map_matter_diagnosticsFrom decl.name 1 (d.clientProblems decl marker)
  constructor
  · exact ⟨ways, lists.sorted, lists.mem_iff, matters ▸ lists.map_some _⟩
  · rw [matters]
    exact lists.nodup_iff _

-- A hub client of a document that was read is refused for its binding with one diagnostic, or with one for
-- each way along which it leads to a problem, in the order of the ways. These are different in code, message
-- and location if and only if no two ways lead to problems that are the same in them.
theorem matters_distinct_iff {x : Data} (read : ofData x = .ok d)
    (refused : (name, .error ds) ∈ d.discover.clients) :
    (∃ δ, ds = [δ] ∧ (δ.code = .invalidBindingName ∨ δ.code = .duplicateBindingName)) ∨
    ∃ decl marker, d.get? name = some decl ∧ decl.hubClient = some marker ∧
      (∃ ways, d.ByWays decl marker ways ds) ∧ ((ds.map (·.matter)).Nodup ↔ d.LeadsApart decl marker) := by
  obtain ⟨decl, inside, marker, client, rfl, ⟨claims, δ, claimed, same⟩ | unresolved⟩ := of_mem_outcomes refused
  · obtain rfl := Except.error.inj same
    obtain ⟨-, code⟩ | ⟨-, -, code⟩ := of_claimModule_error claimed
    · exact .inl ⟨δ, rfl, .inl code⟩
    · exact .inl ⟨δ, rfl, .inr code⟩
  · have found := (distinct_of_ofData read).get?_of_mem inside
    exact .inr ⟨decl, marker, found, client, reports_by_ways found unresolved.symm⟩

-- A hub client with a way to a problem has diagnostics.
theorem exists_refused (distinct : d.Distinct) (found : d.get? decl.name = some decl)
    (client : decl.hubClient = some marker) (accepted : d.AcceptsBinding decl marker)
    (met : d.clientProblemAt decl marker way = some p) :
    ∃ ds, (decl.name, .error ds) ∈ d.discover.clients ∧ d.resolveClient decl marker = .error ds := by
  have only := clients_filter distinct found client accepted
  have inside : (decl.name, d.resolveClient decl marker) ∈ d.discover.clients :=
    (List.mem_filter.mp (only ▸ List.mem_cons_self)).1
  cases resolved : d.resolveClient decl marker with
  | error ds => exact ⟨ds, resolved ▸ inside, rfl⟩
  | ok k =>
    obtain ⟨ways, lists⟩ := exists_lists_clientProblems d decl marker
    have none := (exists_contract_iff found).mp ⟨k, resolveClient_eq_ok_iff.mp resolved⟩
    have unreached : ways = [] := List.map_eq_nil_iff.mp (lists.found.symm.trans (by rw [none]; rfl))
    have reached : way ∈ ways := (lists.mem_iff way).mpr (by rw [met, Option.isSome_some])
    rw [unreached] at reached
    cases reached

-- A declaration as it is written, with the names that it extends.
def extending (name : String) (parents : List String) : Data :=
  .mapping [(.str "name", .str name), (.str "extends", .list (parents.map .str))]

-- The same for a hub client.
def clientExtending (name : String) (parents : List String) : Data :=
  .mapping [(.str "name", .str name), (.str "extends", .list (parents.map .str)),
    (.str "markers", .mapping [(.str "hub_client", .mapping [(.str "uri", .str "chat")])])]

def chatMarker : HubMarker := { uri := "chat" }

-- A hub client that extends two names that are not declared.
def lostChat : Declaration := { name := "IChat", parents := ["IGone", "ILost"], hubClient := some chatMarker }

def lost : Document := ⟨[lostChat], []⟩

-- There are two ways, one to each of the names.
theorem lost_ways (here : lost.clientProblemAt lostChat chatMarker way = some p) :
    way = [0, 0] ∧ p = .undeclared "IChat" "IGone" ∨ way = [0, 1] ∧ p = .undeclared "IChat" "ILost" := by
  match way with
  | [] => cases here
  | (i + 1) :: way => cases here
  | [0] => cases here
  | [0, 0] => exact .inl ⟨rfl, (Option.some.inj here).symm⟩
  | [0, 1] => exact .inr ⟨rfl, (Option.some.inj here).symm⟩
  | 0 :: 0 :: _ :: _ => cases here
  | 0 :: 1 :: _ :: _ => cases here
  | 0 :: (_ + 2) :: _ => cases here

theorem matters_distinct_iff_lost :
    ofData (.mapping [(.str "declarations", .list [clientExtending "IChat" ["IGone", "ILost"]])]) = .ok lost ∧
    ∃ ds, ("IChat", .error ds) ∈ lost.discover.clients ∧ (ds.map (·.matter)).Nodup := by
  have read : ofData (.mapping [(.str "declarations",
      .list [clientExtending "IChat" ["IGone", "ILost"]])]) = .ok lost := by rfl
  have found : lost.get? lostChat.name = some lostChat := by rfl
  have met : lost.clientProblemAt lostChat chatMarker [0, 0] = some (.undeclared "IChat" "IGone") := by rfl
  obtain ⟨ds, refused, -⟩ := exists_refused (distinct_of_ofData read) found rfl ⟨_, rfl⟩ met
  refine ⟨read, ds, refused, ?_⟩
  obtain ⟨δ, rfl, -⟩ | ⟨decl, marker, declared, client, -, distinct⟩ :=
    matters_distinct_iff read refused
  · exact List.nodup_singleton _
  · obtain rfl : lostChat = decl := Option.some.inj declared
    obtain rfl : chatMarker = marker := Option.some.inj client
    refine distinct.mpr fun way way' p p' here there same => ?_
    obtain ⟨rfl, rfl⟩ | ⟨rfl, rfl⟩ := lost_ways here <;> obtain ⟨rfl, rfl⟩ | ⟨rfl, rfl⟩ := lost_ways there
    · rfl
    · exact absurd same (by decide)
    · exact absurd same (by decide)
    · rfl

-- A hub client to which two declarations lead that extend one that extends a name that is not declared.
def diamondChat : Declaration :=
  { name := "IChat", parents := ["ILeft", "IRight"], hubClient := some chatMarker }

def diamond : Document := ⟨[diamondChat, { name := "ILeft", parents := ["IBase"] },
  { name := "IRight", parents := ["IBase"] }, { name := "IBase", parents := ["IGone"] }], []⟩

theorem matters_distinct_iff_diamond :
    ofData (.mapping [(.str "declarations", .list [clientExtending "IChat" ["ILeft", "IRight"],
      extending "ILeft" ["IBase"], extending "IRight" ["IBase"], extending "IBase" ["IGone"]])]) =
      .ok diamond ∧
    ∃ ds, ("IChat", .error ds) ∈ diamond.discover.clients ∧ ¬(ds.map (·.matter)).Nodup := by
  have read : ofData (.mapping [(.str "declarations", .list [clientExtending "IChat" ["ILeft", "IRight"],
      extending "ILeft" ["IBase"], extending "IRight" ["IBase"], extending "IBase" ["IGone"]])]) =
      .ok diamond := by rfl
  have found : diamond.get? diamondChat.name = some diamondChat := by rfl
  have left : diamond.clientProblemAt diamondChat chatMarker [0, 0, 0, 0] =
      some (.undeclared "IBase" "IGone") := by rfl
  have right : diamond.clientProblemAt diamondChat chatMarker [0, 1, 0, 0] =
      some (.undeclared "IBase" "IGone") := by rfl
  obtain ⟨ds, refused, unresolved⟩ := exists_refused (distinct_of_ofData read) found rfl ⟨_, rfl⟩ left
  refine ⟨read, ds, refused, fun once => ?_⟩
  have apart := (reports_by_ways found unresolved).2.mp once
  have same : [0, 0, 0, 0] = [0, 1, 0, 0] := apart _ _ _ _ left right rfl
  exact absurd same (by decide)

end Document

end HubContract
