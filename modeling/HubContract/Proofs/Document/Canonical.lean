import HubContract.Document.Fixing
import HubContract.Proofs.Document.Discovery
import HubContract.Proofs.Signature

namespace HubContract

namespace Check

theorem map_eq_ok_iff {f : α → β} {x : Check α} :
    (f <$> x) = .ok b ↔ ∃ a, x = .ok a ∧ f a = b := by
  cases x <;> simp [Functor.map, map]

theorem seq_eq_ok_iff {f : Check (α → β)} {x : Check α} :
    (f <*> x) = .ok b ↔ ∃ g a, f = .ok g ∧ x = .ok a ∧ g a = b := by
  cases f <;> cases x <;> simp [Seq.seq, both]

theorem under_eq_ok_iff {s : Step} {x : Check α} : x.under s = .ok a ↔ x = .ok a := by
  cases x <;> simp [under]

end Check

-- Declarations as they are read.
structure Declaration.IsCanonical (e : Declaration) : Prop where
  owned : ∀ m ∈ e.methods, m.owner = e.name
  written : ∀ m ∈ e.methods, m.returns.IsWritten

namespace Document

structure IsCanonical (d : Document) : Prop where
  distinct : d.Distinct
  declarations : ∀ e ∈ d.declarations, e.IsCanonical

theorem exists_of_mem_mapM {f : α → Read β} {xs : List α} {ys : List β} (h : xs.mapM f = .ok ys) :
    ∀ y ∈ ys, ∃ x ∈ xs, f x = .ok y := by
  induction xs generalizing ys with
  | nil =>
    obtain rfl := Except.ok.inj h
    simp
  | cons x xs ih =>
    rw [List.mapM_cons] at h
    obtain ⟨y, first, h⟩ := bind_eq_ok_iff.mp h
    obtain ⟨ys, rest, h⟩ := bind_eq_ok_iff.mp h
    obtain rfl := Except.ok.inj h
    refine List.forall_mem_cons.mpr ⟨⟨x, by simp, first⟩, fun z hz => ?_⟩
    obtain ⟨w, hw, read⟩ := ih rest z hz
    exact ⟨w, by simp [hw], read⟩

theorem validated_eq_ok_iff {name : Data} {c : Check α} : validated name c = .ok a ↔ c = .ok a := by
  cases c with
  | ok b => simp [validated]
  | bad issues => cases shown : shown name <;> simp [validated, refuse, shown, bind, Except.bind]

-- What is not written is the type of a method that awaits nothing.
theorem isWritten_of_returnsOf (h : returnsOf field = .ok r) : r.IsWritten := by
  unfold returnsOf at h
  split at h
  · obtain rfl := Except.ok.inj h
    exact ReturnType.isWritten_unitAsync
  · obtain rfl := Except.ok.inj h
    exact ReturnType.isWritten_unitAsync
  · obtain ⟨text, -, h⟩ := bind_eq_ok_iff.mp h
    obtain rfl := Except.ok.inj h
    exact ReturnType.isWritten_parse text

theorem of_methodOf (h : methodOf owner x = .ok m) :
    owner.checkString = .ok m.owner ∧ m.returns.IsWritten := by
  unfold methodOf at h
  split at h
  · obtain ⟨_, -, h⟩ := bind_eq_ok_iff.mp h
    unfold refuseShowing at h
    split at h <;> nomatch h
  · obtain ⟨invoke, -, h⟩ := bind_eq_ok_iff.mp h
    obtain ⟨items, -, h⟩ := bind_eq_ok_iff.mp h
    obtain ⟨parameters, -, h⟩ := bind_eq_ok_iff.mp h
    obtain ⟨returns, written, h⟩ := bind_eq_ok_iff.mp h
    obtain ⟨g, o, named, owned, rfl⟩ := Check.seq_eq_ok_iff.mp (validated_eq_ok_iff.mp h)
    obtain ⟨n, -, rfl⟩ := Check.map_eq_ok_iff.mp named
    exact ⟨Check.under_eq_ok_iff.mp owned, isWritten_of_returnsOf written⟩

theorem isCanonical_of_declarationOf (h : declarationOf x = .ok e) : e.IsCanonical := by
  unfold declarationOf at h
  split at h
  · unfold refuseShowing at h
    split at h <;> nomatch h
  · rename_i name _
    obtain ⟨markers, -, h⟩ := bind_eq_ok_iff.mp h
    dsimp only at h
    split at h
    · obtain ⟨_, -, h⟩ := bind_eq_ok_iff.mp h
      obtain ⟨_, -, h⟩ := bind_eq_ok_iff.mp h
      nomatch h
    · obtain ⟨hubClient, -, h⟩ := bind_eq_ok_iff.mp h
      obtain ⟨items, -, h⟩ := bind_eq_ok_iff.mp h
      obtain ⟨methods, read, h⟩ := bind_eq_ok_iff.mp h
      obtain ⟨parents, -, h⟩ := bind_eq_ok_iff.mp h
      obtain ⟨g, es, named, -, rfl⟩ := Check.seq_eq_ok_iff.mp (validated_eq_ok_iff.mp h)
      obtain ⟨n, read', rfl⟩ := Check.map_eq_ok_iff.mp named
      have named := Check.under_eq_ok_iff.mp read'
      have each : ∀ m ∈ methods, m.owner = n ∧ m.returns.IsWritten := by
        intro m hm
        obtain ⟨y, -, read⟩ := exists_of_mem_mapM read m hm
        obtain ⟨owned, written⟩ := of_methodOf read
        rw [named] at owned
        exact ⟨(Check.ok.inj owned).symm, written⟩
      exact ⟨fun m hm => (each m hm).1, fun m hm => (each m hm).2⟩

theorem isCanonical_of_declarationsOf (h : declarationsOf seen xs = .ok es) :
    ∀ e ∈ es, e.IsCanonical := by
  induction xs generalizing seen es with
  | nil =>
    obtain rfl := Except.ok.inj h
    simp
  | cons x xs ih =>
    rw [declarationsOf] at h
    obtain ⟨e, first, h⟩ := bind_eq_ok_iff.mp h
    split at h
    · simp [refuse] at h
    · obtain ⟨rest, others, h⟩ := bind_eq_ok_iff.mp h
      obtain rfl := Except.ok.inj h
      exact List.forall_mem_cons.mpr ⟨isCanonical_of_declarationOf first, ih others⟩

theorem isCanonical_of_ofData (h : ofData x = .ok d) : d.IsCanonical := by
  refine ⟨distinct_of_ofData h, ?_⟩
  unfold ofData at h
  split at h
  · obtain rfl := Except.ok.inj h
    simp
  · dsimp only at h
    split at h
    · obtain ⟨_, -, h⟩ := bind_eq_ok_iff.mp h
      simp [refuse] at h
    · obtain ⟨_, -, h⟩ := bind_eq_ok_iff.mp h
      obtain ⟨es, read, h⟩ := bind_eq_ok_iff.mp h
      obtain ⟨_, -, h⟩ := bind_eq_ok_iff.mp h
      obtain rfl := Except.ok.inj h
      exact isCanonical_of_declarationsOf read
  · simp [refuse] at h

section

variable {d : Document} {e : Declaration}

theorem IsCanonical.of_get? (h : d.IsCanonical) {name : String} (found : d.get? name = some e) :
    e.IsCanonical :=
  h.declarations e (List.mem_of_find?_eq_some found)

theorem IsCanonical.replace (h : d.IsCanonical) (he : e.IsCanonical) : (d.replace e).IsCanonical := by
  have names : (d.replace e).declarations.map (·.name) = d.declarations.map (·.name) := by
    simp only [Document.replace, List.map_map]
    refine List.map_congr_left fun f _ => ?_
    by_cases same : f.name = e.name <;> simp [same]
  refine ⟨by rw [Distinct, names]; exact h.distinct, fun f hf => ?_⟩
  obtain ⟨f, mem, rfl⟩ := List.mem_map.mp hf
  split
  · exact he
  · exact h.declarations f mem

theorem mem_of_mem_updateFirst {f : Method → Option Method} {ms : List Method} {m : Method}
    (h : m ∈ updateFirst key f ms) : m ∈ ms ∨ ∃ m' ∈ ms, f m' = some m := by
  induction ms with
  | nil => nomatch h
  | cons m' ms ih =>
    rw [updateFirst] at h
    split at h
    · rcases List.mem_append.mp h with h | h
      · exact .inr ⟨m', by simp, by simpa using h⟩
      · exact .inl (by simp [h])
    · rcases List.mem_cons.mp h with rfl | h
      · exact .inl (by simp)
      · rcases ih h with h | ⟨m'', h, changed⟩
        · exact .inl (by simp [h])
        · exact .inr ⟨m'', by simp [h], changed⟩

-- A method stays with its declaration where it is changed, or not at all.
theorem isCanonical_updateFirst (he : e.IsCanonical) {f : Method → Option Method}
    (hf : ∀ m ∈ e.methods, ∀ m' ∈ f m, m'.owner = m.owner ∧ m'.returns.IsWritten) :
    Declaration.IsCanonical { e with methods := updateFirst key f e.methods } := by
  have each : ∀ m ∈ updateFirst key f e.methods, m.owner = e.name ∧ m.returns.IsWritten := by
    intro m hm
    rcases mem_of_mem_updateFirst hm with hm | ⟨m', hm', changed⟩
    · exact ⟨he.owned m hm, he.written m hm⟩
    · obtain ⟨owner, written⟩ := hf m' hm' m changed
      exact ⟨owner.trans (he.owned m' hm'), written⟩
  exact ⟨fun m hm => (each m hm).1, fun m hm => (each m hm).2⟩

-- A method that is moved belongs to its target from then on.
theorem IsCanonical.moveMethod (h : d.IsCanonical) {target : Declaration} (he : e.IsCanonical)
    (ht : target.IsCanonical) {m : Method} (hm : m ∈ e.methods) :
    (d.moveMethod e target m).IsCanonical := by
  refine (h.replace (isCanonical_updateFirst he (by simp))).replace ⟨?_, ?_⟩
  · exact List.forall_mem_append.mpr ⟨ht.owned, by simp⟩
  · exact List.forall_mem_append.mpr ⟨ht.written, by simpa using he.written m hm⟩

theorem IsCanonical.applyFix {d' : Document} {fix : Fix} (h : d.IsCanonical)
    (applied : d.applyFix fix = .ok d') : d'.IsCanonical := by
  unfold Document.applyFix at applied
  split at applied
  · nomatch applied
  · rename_i e found
    split at applied
    · obtain rfl := Except.ok.inj applied
      exact h
    · rename_i m present
      split at applied
      · split at applied
        · nomatch applied
        · rename_i target found'
          obtain rfl := Except.ok.inj applied
          exact h.moveMethod (h.of_get? found) (h.of_get? found') (List.mem_of_find?_eq_some present)
      · obtain rfl := Except.ok.inj applied
        refine h.replace (isCanonical_updateFirst (h.of_get? found) ?_)
        rintro m' - _ ⟨⟩
        exact ⟨rfl, ReturnType.isWritten_parse fix.target⟩

theorem IsCanonical.applyAll {d' : Document} {fixes : List Fix} (h : d.IsCanonical)
    (applied : d.applyAll fixes = .ok d') : d'.IsCanonical := by
  induction fixes generalizing d with
  | nil =>
    obtain rfl := Except.ok.inj applied
    exact h
  | cons fix fixes ih =>
    rw [Document.applyAll, List.foldlM_cons] at applied
    cases first : d.applyFix fix with
    | error e =>
      rw [first] at applied
      nomatch applied
    | ok d₁ =>
      rw [first] at applied
      exact ih (h.applyFix first) applied

end

end HubContract.Document
