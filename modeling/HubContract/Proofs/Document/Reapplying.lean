import HubContract.Document.Reader
import HubContract.Document.Writer
import HubContract.Proofs.Document.Moving

namespace HubContract.Document

variable {d d' : Document} {f : Fix} {decl target e : Declaration} {before after : List Method}
  {m : Method}

-- The methods that a fix may take: those of its declaration with its signature.
def candidates (d : Document) (f : Fix) : List Method :=
  ((d.get? f.declaration).elim [] (·.methods)).filter (·.signatureKey = f.method)

theorem candidates_eq (declared : d.get? f.declaration = some decl) :
    d.candidates f = decl.methods.filter (·.signatureKey = f.method) := by
  rw [candidates, declared, Option.elim_some]

theorem candidates_eq_nil_iff (declared : d.get? f.declaration = some decl) :
    d.candidates f = [] ↔ ∀ m ∈ decl.methods, m.signatureKey ≠ f.method := by
  simp [candidates_eq declared]

-- All that a fix can do to a document, if it can be applied.
inductive Applies (d : Document) (f : Fix) : Document → Prop where
  | skips {decl : Declaration} (declared : d.get? f.declaration = some decl)
      (unmet : ∀ m ∈ decl.methods, m.signatureKey ≠ f.method) : Applies d f d
  | moves {decl target : Declaration} {before after : List Method} {m : Method}
      (finds : d.Finds f decl before m after) (kind : f.kind.isMove = true)
      (found' : d.get? f.target = some target) : Applies d f (d.withMoved decl target before m after)
  | retypes {decl : Declaration} {before after : List Method} {m : Method}
      (finds : d.Finds f decl before m after) (kind : f.kind.isMove = false) :
      Applies d f (d.replace
        (decl.withMethods (before ++ m.returning (.parse f.target) :: after)))

theorem Finds.candidates (finds : d.Finds f decl before m after) :
    d.candidates f = m :: after.filter (·.signatureKey = f.method) := by
  have unmet : before.filter (·.signatureKey = f.method) = [] := by simpa using finds.unmet
  rw [candidates_eq finds.declared, finds.methods, List.filter_append, unmet, List.nil_append,
    List.filter_cons_of_pos (by simp [finds.signature])]

theorem Applies.applyFix (applies : d.Applies f d') : d.applyFix f = .ok d' := by
  cases applies with
  | skips declared unmet =>
    have none : List.find? (fun m : Method => decide (m.signatureKey = f.method)) _ = none :=
      List.find?_eq_none.mpr (by simpa using unmet)
    simp only [Document.applyFix, declared, none]
  | moves finds kind found' => exact finds.applyFix kind found'
  | @retypes decl before after m finds kind =>
    have changed : updateFirst f.method (fun m => some (m.returning (.parse f.target))) decl.methods =
        before ++ m.returning (.parse f.target) :: after := by
      rw [finds.methods]
      exact updateFirst_of_unmet finds.unmet finds.signature
    simp only [Document.applyFix, finds.declared, finds.first, kind, Bool.false_eq_true, if_false]
    exact congrArg (fun methods => Except.ok (d.replace (decl.withMethods methods))) changed

-- A fix can be applied where the declarations that it names are there.
theorem exists_applies (declared : d.get? f.declaration = some decl)
    (given : ∀ before m after, d.Finds f decl before m after → f.kind.isMove = true →
      ∃ target, d.get? f.target = some target) : ∃ d', d.Applies f d' := by
  by_cases met : ∃ m ∈ decl.methods, m.signatureKey = f.method
  · obtain ⟨before, m, after, finds⟩ := exists_finds declared met
    cases kind : f.kind.isMove with
    | false => exact ⟨_, .retypes finds kind⟩
    | true =>
      obtain ⟨target, found'⟩ := given before m after finds kind
      exact ⟨_, .moves finds kind found'⟩
  · exact ⟨d, .skips declared (by simpa using met)⟩

theorem applyFix_eq_ok_iff : d.applyFix f = .ok d' ↔ d.Applies f d' := by
  refine ⟨fun applied => ?_, Applies.applyFix⟩
  cases declared : d.get? f.declaration with
  | none => simp [Document.applyFix, declared] at applied
  | some decl =>
    have given : ∀ before m after, d.Finds f decl before m after → f.kind.isMove = true →
        ∃ target, d.get? f.target = some target := by
      intro before m after finds kind
      refine Option.ne_none_iff_exists'.mp fun absent => ?_
      simp [Document.applyFix, declared, finds.first, kind, absent] at applied
    obtain ⟨_, applies⟩ := exists_applies declared given
    obtain rfl := Except.ok.inj (applies.applyFix.symm.trans applied)
    exact applies

-- What is moved is there in addition, so that the document is another one.
theorem withMoved_ne (found' : d.get? target.name = some target) :
    d.withMoved decl target before m after ≠ d := by
  intro same
  have gained := get?_withMoved_target before m after decl found'
  rw [same, found'] at gained
  have longer := congrArg (·.methods.length) (Option.some.inj gained)
  simp [Declaration.withMethods] at longer

-- A move that finds a method changes the document.
theorem applyFix_self_iff_of_isMove (kind : f.kind.isMove = true) (applied : d.applyFix f = .ok d') :
    d.applyFix f = .ok d ↔ d.candidates f = [] := by
  rw [applied, Except.ok.injEq]
  cases applyFix_eq_ok_iff.mp applied with
  | skips declared unmet => exact iff_of_true rfl ((candidates_eq_nil_iff declared).mpr unmet)
  | moves finds _ found' =>
    rw [← get?_name found'] at found'
    exact iff_of_false (withMoved_ne found') (by simp [finds.candidates])
  | retypes _ retypes => simp [kind] at retypes

-- What a move leaves for the next time: the other methods with the signature, or, in its own declaration,
-- all of them and the one that came back.
theorem candidates_withMoved (finds : d.Finds f decl before m after)
    (found' : d.get? f.target = some target) :
    (d.withMoved decl target before m after).candidates f =
      if f.declaration = f.target then d.candidates f ++ [m.movedTo target.name]
      else (d.candidates f).tail := by
  have named := get?_name finds.declared
  have named' := get?_name found'
  have declared : d.get? decl.name = some decl := by rw [named, finds.declared]
  have signature : (m.movedTo target.name).signatureKey = f.method := finds.signature
  have unmet : before.filter (·.signatureKey = f.method) = [] := by simpa using finds.unmet
  split
  case isTrue same =>
    obtain rfl : decl = target := Option.some.inj (finds.declared.symm.trans (same ▸ found'))
    have gained := get?_withMoved_target before m after decl declared
    rw [named] at gained
    rw [candidates_eq gained, candidates_eq finds.declared]
    simp only [Declaration.withMethods, List.filter_append]
    rw [List.filter_cons_of_pos (by simp [← named, signature]), List.filter_nil, named]
  case isFalse other =>
    have apart : decl.name ≠ target.name := by rwa [named, named']
    have lost := get?_withMoved_source before m after declared apart
    rw [named] at lost
    rw [candidates_eq lost, finds.candidates]
    simp only [Declaration.withMethods, List.filter_append, unmet, List.nil_append, List.tail_cons]

-- A return type that was given is given again.
theorem Finds.replace_retyped (finds : d.Finds f decl before m after) (kind : f.kind.isMove = false) :
    let retyped := decl.withMethods (before ++ m.returning (.parse f.target) :: after)
    (d.replace retyped).applyFix f = .ok (d.replace retyped) := by
  intro retyped
  have named := get?_name finds.declared
  have there : (d.replace retyped).get? f.declaration = some retyped := by
    rw [← named]
    exact get?_replace (e := retyped) ((congrArg d.get? named).trans finds.declared)
  have again : (d.replace retyped).Finds f retyped before (m.returning (.parse f.target)) after :=
    ⟨there, rfl, finds.signature, finds.unmet⟩
  have applied := (Applies.retypes again kind).applyFix
  have same : (d.replace retyped).replace retyped = d.replace retyped := replace_replace d rfl
  exact applied.trans (congrArg Except.ok same)

-- Whatever a fix has done, it can be done again. That changes nothing exactly if the fix gives a return
-- type, has found nothing, or has moved the only method with its signature to another declaration.
theorem applyFix_again_iff (applied : d.applyFix f = .ok d') :
    (∃ d'', d'.applyFix f = .ok d'') ∧
    (d'.applyFix f = .ok d' ↔ f.kind.isMove = false ∨ d.candidates f = [] ∨
      f.declaration ≠ f.target ∧ (d.candidates f).length = 1) := by
  cases applyFix_eq_ok_iff.mp applied with
  | skips declared unmet =>
    exact ⟨⟨d, applied⟩, iff_of_true applied (.inr (.inl ((candidates_eq_nil_iff declared).mpr unmet)))⟩
  | @moves decl target before after m finds kind found' =>
    have left := candidates_withMoved finds found'
    obtain ⟨decl', declared'⟩ := exists_get?_withMoved finds.declared
    obtain ⟨target', there'⟩ := exists_get?_withMoved found'
    obtain ⟨d'', applies⟩ := exists_applies declared' fun _ _ _ _ _ => ⟨target', there'⟩
    refine ⟨⟨d'', applies.applyFix⟩, ?_⟩
    rw [applyFix_self_iff_of_isMove kind applies.applyFix, left, finds.candidates]
    split
    case isTrue same => simp [kind, same]
    case isFalse other => simp [kind, other]
  | retypes finds kind =>
    have again := finds.replace_retyped kind
    exact ⟨⟨_, again⟩, iff_of_true again (.inl kind)⟩

-- A bridge, with methods of one signature, and the side to which they belong.
def foyer (own events : List Method) : Document :=
  ⟨[{ name := "IFoyer", methods := own,
      hubClient := some { uri := "foyer", push := some "IFoyerEvents" } },
    { name := "IFoyerEvents", methods := events }], []⟩

def foyerPing : Method := { name := "Ping", owner := "IFoyer" }

def foyerMove : Fix :=
  Fix.of .moveToPush "Move 'Ping' to IFoyerEvents" "IFoyer" foyerPing "IFoyerEvents"

theorem applyFix_again_iff_foyer :
    let d := foyer [foyerPing] []
    let d' := foyer [] [foyerPing.movedTo "IFoyerEvents"]
    d.applyFix foyerMove = .ok d' ∧ d'.applyFix foyerMove = .ok d' := by
  intro d d'
  have applied : d.applyFix foyerMove = .ok d' := rfl
  exact ⟨applied, (applyFix_again_iff applied).2.mpr (.inr (.inr ⟨by decide, rfl⟩))⟩

-- The method was moved, and the fix moves the other one.
theorem applyFix_again_iff_twice :
    let moved := foyerPing.movedTo "IFoyerEvents"
    let d := foyer [foyerPing, foyerPing] []
    let d' := foyer [foyerPing] [moved]
    ofData d.toData = .ok d ∧ d.applyFix foyerMove = .ok d' ∧ d'.applyFix foyerMove ≠ .ok d' ∧
      d'.applyFix foyerMove = .ok (foyer [] [moved, moved]) := by
  refine ⟨by rfl, rfl, ?_, rfl⟩
  decide

end HubContract.Document
