import HubContract.Contract.Basic
import HubContract.Diagnostic
import HubContract.Document.Basic

namespace HubContract

-- Why a name could not be resolved. The referrer is the declaration that uses the name.
inductive Problem where
  | undeclared (referrer name : String)
  -- The names of the cycle from the first to its next occurrence.
  | cycle (referrer : String) (names : List String)
  deriving DecidableEq, Repr

namespace Problem

def code : Problem → Code
  | .undeclared .. => .unresolvedReference
  | .cycle .. => .inheritanceCycle

def referrer : Problem → String
  | .undeclared r _ | .cycle r _ => r

def message : Problem → String
  | .undeclared r n => "'" ++ r ++ "' references '" ++ n ++ "', which is not declared"
  | .cycle _ names => "Inheritance cycle: " ++ " -> ".intercalate names

end Problem

-- What is known while the names of one hub client are resolved: every problem so far, and the sets
-- that need not be resolved again.
structure Resolver where
  problems : List Problem := []
  resolved : List (String × MethodSet) := []

namespace Resolver

def report (r : Resolver) (p : Problem) : Resolver := { r with problems := r.problems ++ [p] }

def keep (r : Resolver) (name : String) (s : MethodSet) : Resolver :=
  { r with resolved := (name, s) :: r.resolved }

end Resolver

namespace Document

-- The declarations that a trail has not met yet.
def remaining (d : Document) (trail : List String) : List Declaration :=
  d.declarations.filter fun e => !trail.contains e.name

theorem remaining_lt {d : Document} {trail : List String} {name : String} {e : Declaration}
    (fresh : trail.contains name = false) (found : d.get? name = some e) :
    (d.remaining (trail ++ [name])).length < (d.remaining trail).length := by
  have named : e.name = name := by simpa using List.find?_some found
  have member := List.mem_of_find?_eq_some found
  have sub : d.remaining (trail ++ [name]) = (d.remaining trail).filter (·.name ≠ name) := by
    simp only [remaining, List.filter_filter]
    apply List.filter_congr
    intro x _
    by_cases h : x.name = name <;> simp [h]
  rw [sub]
  refine List.length_filter_lt_length_iff_exists.mpr ⟨e, ?_, by simp [named]⟩
  simpa [remaining, member, named] using fresh

mutual

-- The method set of a name. Whatever keeps it from being resolved is reported. There is no limit to the depth
-- here (see `followable`).
def resolve (d : Document) (trail : List String) (referrer name : String) (r : Resolver) :
    Option MethodSet × Resolver :=
  if _fresh : trail.contains name = false then
    match r.resolved.lookup name with
    | some s => (some s, r)
    | none =>
      match _found : d.get? name with
      | none => (none, r.report (.undeclared referrer name))
      | some e =>
        match resolveAll d (trail ++ [name]) e.name e.parents r with
        | (none, r) => (none, r)
        | (some ancestors, r) =>
          let s : MethodSet := ⟨e.name, e.methods, ancestors⟩
          (some s, r.keep name s)
  else (none, r.report (.cycle referrer (trail.dropWhile (· ≠ name) ++ [name])))
termination_by ((d.remaining trail).length, 0)
decreasing_by exact Prod.Lex.left _ _ (remaining_lt ‹_› ‹_›)

-- The method sets of several names, none if one of them has none. All of them are looked at.
def resolveAll (d : Document) (trail : List String) (referrer : String) :
    List String → Resolver → Option (List MethodSet) × Resolver
  | [], r => (some [], r)
  | name :: names, r =>
    let (first, r) := resolve d trail referrer name r
    let (others, r) := resolveAll d trail referrer names r
    (first.bind fun s => others.map (s :: ·), r)
termination_by names => ((d.remaining trail).length, names.length + 1)
decreasing_by all_goals exact Prod.Lex.right _ (by simp)

end

-- One side of a hub client, which is absent if it is not named.
def resolveSide (d : Document) (referrer : String) (side : Option String) (r : Resolver) :
    Option MethodSet × Resolver :=
  match side with
  | none => (none, r)
  | some name => if name = "" then (none, r) else d.resolve [] referrer name r

-- The contract of a hub client: both sides and what the bridge extends.
def resolveContract (d : Document) (decl : Declaration) (marker : HubMarker) :
    Except (List Problem) Contract :=
  let (pushSet, r) := d.resolveSide decl.name marker.push {}
  let (invokeSet, r) := d.resolveSide decl.name marker.invoke r
  let (ancestors, r) := d.resolveAll [decl.name] decl.name decl.parents r
  match r.problems, ancestors with
  | [], some ancestors =>
    .ok { name := decl.name, uri := marker.uri, friendlyName := marker.name, pushSet, invokeSet,
          methods := decl.methods, ancestors }
  | problems, _ => .error problems

end HubContract.Document
