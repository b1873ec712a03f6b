namespace HubContract

abbrev Table (α : Type) := List (String × α)

namespace Table

def get? (t : Table α) (name : String) : Option α := t.lookup name

-- Set a name. One that is there already keeps its place.
def set (name : String) (value : α) : Table α → Table α
  | [] => [(name, value)]
  | (n, v) :: rest => if n = name then (n, value) :: rest else (n, v) :: set name value rest

-- Change the value of a name, if it has one.
def modify (f : α → α) (name : String) (t : Table α) : Table α :=
  t.map fun (n, v) => if n = name then (n, f v) else (n, v)

-- Set names one after the other.
def setAll (t : Table α) (entries : List (String × α)) : Table α :=
  entries.foldl (fun t (name, value) => set name value t) t

@[simp] theorem get?_nil (name : String) : get? ([] : Table α) name = none := rfl

theorem get?_cons (n : String) (v : α) (t : Table α) (name : String) :
    get? ((n, v) :: t) name = if n = name then some v else get? t name := by
  by_cases same : n = name
  · simp [get?, same]
  · have other : (name == n) = false := beq_false_of_ne (Ne.symm same)
    simp [get?, List.lookup_cons, other, same]

theorem get?_append (t u : Table α) (name : String) :
    get? (t ++ u) name = (get? t name).or (get? u name) := List.lookup_append

theorem get?_ite (p : Prop) [Decidable p] (t u : Table α) (name : String) :
    get? (if p then t else u) name = if p then get? t name else get? u name :=
  apply_ite (get? · name) p t u

theorem get?_set (name : String) (value : α) (t : Table α) (asked : String) :
    (set name value t).get? asked = if name = asked then some value else t.get? asked := by
  induction t with
  | nil => simp [set, get?_cons]
  | cons e t ih =>
    obtain ⟨n, v⟩ := e
    rw [set]
    by_cases here : n = name
    · by_cases hit : name = asked <;> simp [here, get?_cons, hit]
    · rw [if_neg here, get?_cons, get?_cons, ih]
      by_cases first : n = asked
      · have other : name ≠ asked := fun h => here (first.trans h.symm)
        simp [first, other]
      · simp [first]

-- Of several values for one name the last one counts.
theorem get?_setAll (t : Table α) (entries : List (String × α)) (name : String) :
    (t.setAll entries).get? name = (get? entries.reverse name).or (t.get? name) := by
  induction entries generalizing t with
  | nil => simp [setAll]
  | cons e entries ih =>
    obtain ⟨n, v⟩ := e
    have step : t.setAll ((n, v) :: entries) = (t.set n v).setAll entries := rfl
    rw [step, ih, get?_set, List.reverse_cons, get?_append, get?_cons, get?_nil]
    by_cases last : n = name <;> cases get? entries.reverse name <;> simp [last]

variable {α : Type} {entries : List (String × α)} {name : String} {value : α}

theorem get?_of_mem (distinct : (entries.map Prod.fst).Nodup) (there : (name, value) ∈ entries) :
    get? entries name = some value := by
  induction entries with
  | nil => cases there
  | cons e entries ih =>
    obtain ⟨n, v⟩ := e
    obtain ⟨new, distinct⟩ := List.nodup_cons.mp distinct
    rw [get?_cons]
    obtain here | later := List.mem_cons.mp there
    · obtain ⟨rfl, rfl⟩ := Prod.mk.inj here
      rw [if_pos rfl]
    · have other : n ≠ name := by
        rintro rfl
        exact new (List.mem_map.mpr ⟨_, later, rfl⟩)
      rw [if_neg other]
      exact ih distinct later

theorem mem_of_get? (found : get? entries name = some value) : (name, value) ∈ entries := by
  obtain ⟨l, r, split, -⟩ := List.lookup_eq_some_iff.mp found
  simp [split]

theorem get?_eq_none_iff : get? entries name = none ↔ name ∉ entries.map Prod.fst := by
  refine ⟨fun nowhere inside => ?_, fun absent => List.lookup_eq_none_iff.mpr fun e inside => ?_⟩
  · obtain ⟨⟨_, value⟩, there, rfl⟩ := List.mem_map.mp inside
    simpa using List.lookup_eq_none_iff.mp nowhere _ there
  · have other : name ≠ e.1 := fun same => absent (same ▸ List.mem_map_of_mem (f := Prod.fst) inside)
    simpa using other

theorem get?_of_not_mem (absent : name ∉ entries.map Prod.fst) : get? entries name = none :=
  get?_eq_none_iff.mpr absent

-- Where each name is there once, the order does not matter.
theorem get?_reverse (distinct : (entries.map Prod.fst).Nodup) (name : String) :
    get? entries.reverse name = get? entries name := by
  have backwards : (entries.reverse.map Prod.fst).Nodup := by
    rw [List.map_reverse]
    exact List.pairwise_reverse.mpr (distinct.imp Ne.symm)
  cases found : get? entries name with
  | some value => exact get?_of_mem backwards (List.mem_reverse.mpr (mem_of_get? found))
  | none =>
    rw [get?_eq_none_iff, List.map_reverse, List.mem_reverse]
    exact get?_eq_none_iff.mp found

-- Where each name is set once, it stands for what it was set to.
theorem get?_setAll_of_mem (distinct : (entries.map Prod.fst).Nodup)
    (there : (name, value) ∈ entries) : (setAll [] entries).get? name = some value := by
  rw [get?_setAll, get?_reverse distinct, get?_of_mem distinct there]
  rfl

theorem get?_setAll_of_not_mem (absent : name ∉ entries.map Prod.fst) :
    (setAll [] entries).get? name = none := by
  have backwards : name ∉ entries.reverse.map Prod.fst := by simpa using absent
  rw [get?_setAll, get?_of_not_mem backwards]
  rfl

end HubContract.Table
