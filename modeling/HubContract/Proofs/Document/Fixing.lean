import HubContract.Document.Fixing
import HubContract.Proofs.Document.Heading

namespace HubContract

namespace Fix

variable {ds : List Diagnostic} {fs : List Fix} {f : Fix}

theorem mem_foldl_distinct {keys acc : List String} {key : String} :
    key ∈ keys.foldl (fun acc k => if acc.contains k then acc else acc ++ [k]) acc ↔
      key ∈ acc ∨ key ∈ keys := by
  induction keys generalizing acc with
  | nil => simp
  | cons k keys ih =>
    rw [List.foldl_cons, ih, List.mem_cons]
    split
    case isTrue known =>
      have known : k ∈ acc := List.contains_iff_mem.mp known
      constructor
      · exact Or.imp_right .inr
      · rintro (before | rfl | later)
        · exact .inl before
        · exact .inl known
        · exact .inr later
    case isFalse => rw [List.mem_append, List.mem_singleton, or_assoc]

theorem mem_distinctKeys {keys : List String} {key : String} : key ∈ distinctKeys keys ↔ key ∈ keys :=
  mem_foldl_distinct.trans (or_iff_right List.not_mem_nil)

theorem forall₂_iff_filterMap {g : α → Option β} {as : List α} {bs : List β} :
    List.Forall₂ (fun a b => g a = some b) as bs ↔ (∀ a ∈ as, g a ≠ none) ∧ as.filterMap g = bs := by
  induction as generalizing bs with
  | nil =>
    constructor
    · rintro ⟨⟩
      exact ⟨nofun, rfl⟩
    · rintro ⟨-, rfl⟩
      exact .nil
  | cons a as ih =>
    rw [List.forall_mem_cons, and_assoc, List.filterMap_cons]
    cases found : g a with
    | none =>
      refine iff_of_false (fun each => ?_) nofun
      cases each with
      | cons first rest => cases found.symm.trans first
    | some b =>
      constructor
      · rintro (_ | ⟨first, rest⟩)
        obtain rfl := Option.some.inj (found.symm.trans first)
        obtain ⟨others, rfl⟩ := ih.mp rest
        exact ⟨nofun, others, rfl⟩
      · rintro ⟨-, others, rfl⟩
        exact .cons found (ih.mpr ⟨others, rfl⟩)

-- The fix that is selected by a key.
def shownUnder? (ds : List Diagnostic) (key : String) : Option Fix :=
  (ds.flatMap (·.fixes)).reverse.find? (·.key = key)

theorem shownUnder?_ne_none_iff {key : String} :
    shownUnder? ds key ≠ none ↔ ∃ f ∈ ds.flatMap (·.fixes), f.key = key := by
  rw [shownUnder?, ← Option.isSome_iff_ne_none, List.find?_isSome]
  simp only [List.mem_reverse, decide_eq_true_eq]

-- The last of several fixes with a key.
def IsLastWithKey (shown : List Fix) (key : String) (f : Fix) : Prop :=
  f.key = key ∧ ∃ front back, shown = front ++ f :: back ∧ ∀ g ∈ back, g.key ≠ key

theorem shownUnder?_eq_some_iff {key : String} :
    shownUnder? ds key = some f ↔ IsLastWithKey (ds.flatMap (·.fixes)) key f := by
  rw [shownUnder?, List.find?_eq_some_iff_append, decide_eq_true_eq]
  refine and_congr_right fun _ => ⟨?_, ?_⟩
  · rintro ⟨back, front, split, others⟩
    refine ⟨front.reverse, back.reverse, ?_, by simpa using others⟩
    rw [← List.reverse_inj, split]
    simp
  · rintro ⟨front, back, split, others⟩
    exact ⟨back.reverse, front.reverse, by simp [split], by simpa using others⟩

-- What is selected is one fix for each key.
theorem select_eq_ok_iff {keys : List String} : select ds (some keys) = .ok fs ↔
    List.Forall₂ (fun key f => shownUnder? ds key = some f) (distinctKeys keys) fs := by
  have known : ((distinctKeys keys).filter
      fun k => !(ds.flatMap (·.fixes)).reverse.any (·.key = k)).isEmpty ↔
        ∀ key ∈ distinctKeys keys, shownUnder? ds key ≠ none := by
    simp only [List.isEmpty_iff, List.filter_eq_nil_iff, Bool.not_eq_true', Bool.not_eq_false,
      List.any_eq_true, List.mem_reverse, decide_eq_true_eq, shownUnder?_ne_none_iff]
  rw [forall₂_iff_filterMap, ← known]
  unfold select
  dsimp only
  split
  case isTrue all =>
    rw [and_iff_right all, Except.ok.injEq]
    rfl
  case isFalse missing => exact iff_of_false nofun fun ⟨all, _⟩ => missing all

-- Keys can be selected if something was shown under each.
theorem exists_select_iff {keys : List String} : (∃ fs, select ds (some keys) = .ok fs) ↔
    ∀ key ∈ keys, ∃ f ∈ ds.flatMap (·.fixes), f.key = key := by
  simp only [select_eq_ok_iff, forall₂_iff_filterMap, exists_and_left, exists_eq', and_true,
    mem_distinctKeys, shownUnder?_ne_none_iff]

-- Whatever is selected was shown.
theorem mem_of_mem_select {keys : Option (List String)} (picked : select ds keys = .ok fs) :
    ∀ f ∈ fs, f ∈ ds.flatMap (·.fixes) := by
  intro f inside
  cases keys with
  | none =>
    obtain rfl := Except.ok.inj picked
    obtain ⟨g, reported, first⟩ := List.mem_filterMap.mp inside
    exact List.mem_flatMap.mpr ⟨g, reported, List.mem_of_head? first⟩
  | some keys =>
    obtain ⟨key, -, found⟩ := Document.exists_of_forall₂_left (select_eq_ok_iff.mp picked).flip inside
    exact List.mem_reverse.mp (List.mem_of_find?_eq_some found)

end Fix

def Method.returning (m : Method) (r : ReturnType) : Method := { m with returns := r }

theorem Method.returns_returning (m : Method) (r : ReturnType) : (m.returning r).returns = r := rfl

namespace Document

variable {d d' : Document} {decl target e : Declaration} {f : Fix} {m : Method}

section

variable {key : String} {change : Method → Option Method} {before after : List Method}

-- The first method with a signature is changed where no other one with it stands before.
theorem updateFirst_of_unmet (unmet : ∀ m ∈ before, m.signatureKey ≠ key) (hit : m.signatureKey = key) :
    updateFirst key change (before ++ m :: after) = before ++ ((change m).toList ++ after) := by
  induction before with
  | nil => simp [updateFirst, hit]
  | cons first before ih =>
    obtain ⟨other, rest⟩ := List.forall_mem_cons.mp unmet
    rw [List.cons_append, updateFirst, if_neg other, ih rest]
    rfl

end

theorem Alike.exists_get? (alike : d.Alike d') {n : String} (found : d.get? n = some e) :
    ∃ e', d'.get? n = some e' ∧ e'.heading = e.heading := by
  have heading := alike.get? n
  rw [found] at heading
  exact Option.map_eq_some_iff.mp heading

-- A declaration can be replaced by one with the same heading.
theorem Alike.replace (alike : d.Alike d') (distinct : d.Distinct) (found : d.get? e.name = some decl)
    (same : e.heading = decl.heading) : d.Alike (d'.replace e) := by
  obtain ⟨decl', found', same'⟩ := alike.exists_get? found
  exact alike.trans (alike_replace (alike.distinct distinct) found' (same.trans same'.symm))

theorem alike_moveMethod (distinct : d.Distinct) (found : d.get? decl.name = some decl)
    (found' : d.get? target.name = some target) (m : Method) : d.Alike (d.moveMethod decl target m) :=
  Alike.replace (.replace (.refl d) distinct found rfl) distinct found' rfl

-- The declarations that a fix names are there.
structure Admits (d : Document) (f : Fix) : Prop where
  declaration : d.get? f.declaration ≠ none
  target : f.kind.isMove → d.get? f.target ≠ none

theorem Alike.admits (alike : d.Alike d') (admits : d.Admits f) : d'.Admits f :=
  ⟨fun none => admits.declaration (alike.get?_eq_none.mp none),
    fun moves none => admits.target moves (alike.get?_eq_none.mp none)⟩

-- One fix: it can be applied where its declarations are there.
theorem exists_applyFix (distinct : d.Distinct) (admits : d.Admits f) :
    ∃ d', d.applyFix f = .ok d' ∧ d.Alike d' := by
  obtain ⟨decl, found⟩ := Option.ne_none_iff_exists'.mp admits.declaration
  have declared : d.get? decl.name = some decl := by rw [get?_name found, found]
  rw [applyFix, found]
  dsimp only
  split
  case h_1 => exact ⟨d, rfl, .refl d⟩
  case h_2 m met =>
    split
    case isTrue moves =>
      obtain ⟨target, found'⟩ := Option.ne_none_iff_exists'.mp (admits.target moves)
      have declared' : d.get? target.name = some target := by rw [get?_name found', found']
      rw [found']
      exact ⟨_, rfl, alike_moveMethod distinct declared declared' m⟩
    case isFalse => exact ⟨_, rfl, alike_replace distinct declared rfl⟩

-- Fixes in turn.
theorem exists_applyAll (distinct : d.Distinct) {fs : List Fix} (admits : ∀ f ∈ fs, d.Admits f) :
    ∃ d', d.applyAll fs = .ok d' ∧ d.Alike d' := by
  induction fs generalizing d with
  | nil => exact ⟨d, rfl, .refl d⟩
  | cons f fs ih =>
    obtain ⟨first, others⟩ := List.forall_mem_cons.mp admits
    obtain ⟨d₁, applied, alike⟩ := exists_applyFix distinct first
    obtain ⟨d', rest, alike'⟩ := ih (alike.distinct distinct) fun f inside => alike.admits (others f inside)
    refine ⟨d', ?_, alike.trans alike'⟩
    rw [applyAll, List.foldlM_cons, applied]
    exact rest

end Document

end HubContract
