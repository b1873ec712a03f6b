import HubContract.Contract.Walk
import HubContract.Proofs.Signature
import Mathlib.Data.List.Induction

namespace HubContract.Distinct

variable {ws : List WalkedMethod} {w : WalkedMethod}

theorem ofList_concat (ws : List WalkedMethod) (w : WalkedMethod) :
    ofList (ws ++ [w]) = (ofList ws).add w := by
  simp [ofList]

theorem find?_kept (key : String) :
    (ofList ws).kept.find? (·.signatureKey = key) = ws.find? (·.signatureKey = key) := by
  induction ws using List.reverseRecOn with
  | nil => rfl
  | append_singleton ws w ih =>
    rw [ofList_concat, add, List.find?_append, ← ih]
    split
    case h_1 first found =>
      by_cases same : w.signatureKey = key
      · subst same
        rw [found]
        rfl
      · simp [same]
    case h_2 => rw [List.find?_append]

-- What is kept is what comes first with its signature.
theorem find?_of_mem_kept (mem : w ∈ (ofList ws).kept) :
    ws.find? (·.signatureKey = w.signatureKey) = some w := by
  induction ws using List.reverseRecOn with
  | nil => cases mem
  | append_singleton ws x ih =>
    rw [ofList_concat, add] at mem
    rw [List.find?_append]
    split at mem
    case h_1 => rw [ih mem, Option.some_or]
    case h_2 absent =>
      obtain before | last := List.mem_append.mp mem
      · rw [ih before, Option.some_or]
      · obtain rfl := List.mem_singleton.mp last
        rw [find?_kept] at absent
        rw [absent]
        simp


-- No two methods with one key are kept.
theorem eq_of_mem_kept {v : WalkedMethod} (mem : v ∈ (ofList ws).kept) (mem' : w ∈ (ofList ws).kept)
    (same : v.signatureKey = w.signatureKey) : v = w := by
  have first := find?_of_mem_kept mem
  rw [same] at first
  exact Option.some.inj (first.symm.trans (find?_of_mem_kept mem'))

-- A dropped method comes with the first one that has its key.
theorem find?_of_mem_dropped {p : WalkedMethod × WalkedMethod} (mem : p ∈ (ofList ws).dropped) :
    ws.find? (·.signatureKey = p.1.signatureKey) = some p.2 := by
  induction ws using List.reverseRecOn with
  | nil => cases mem
  | append_singleton ws w ih =>
    rw [ofList_concat, add] at mem
    rw [List.find?_append]
    split at mem
    case h_1 first found =>
      obtain before | last := List.mem_append.mp mem
      · rw [ih before, Option.some_or]
      · obtain rfl := List.mem_singleton.mp last
        rw [find?_kept] at found
        rw [found, Option.some_or]
    case h_2 => rw [ih mem, Option.some_or]

-- The methods of a list of which something holds, given those in front of them.
def selected (p : List WalkedMethod → WalkedMethod → Bool) (ws : List WalkedMethod) :
    List WalkedMethod :=
  (ws.zipIdx.filter fun (w, i) => p (ws.take i) w).map (·.1)

section

variable {p q : List WalkedMethod → WalkedMethod → Bool}

theorem selected_concat (p : List WalkedMethod → WalkedMethod → Bool) (ws : List WalkedMethod)
    (w : WalkedMethod) :
    selected p (ws ++ [w]) = selected p ws ++ if p ws w then [w] else [] := by
  have earlier : ws.zipIdx.filter (fun x => p ((ws ++ [w]).take x.2) x.1) =
      ws.zipIdx.filter fun x => p (ws.take x.2) x.1 := by
    refine List.filter_congr fun x inside => ?_
    have bound : x.2 ≤ ws.length := Nat.le_of_lt (List.mem_zipIdx' inside).1
    rw [List.take_append_of_le_length bound]
  rw [selected, List.zipIdx_append, List.filter_append, List.map_append, earlier, List.zipIdx_singleton]
  cases chosen : p ws w <;> simp [selected, chosen]

theorem selected_congr (same : ∀ before w, before ⊆ ws → w ∈ ws → p before w = q before w) :
    selected p ws = selected q ws := by
  refine congrArg (List.map _) (List.filter_congr fun x inside => ?_)
  exact same _ _ (List.take_subset _ _) (List.fst_mem_of_mem_zipIdx inside)

-- What holds of some of them and what holds of the others gives all.
theorem selected_append_perm (others : ∀ before w, q before w = !p before w) :
    (selected p ws ++ selected q ws).Perm ws := by
  have parts := (List.filter_append_perm (fun x => p (ws.take x.2) x.1) ws.zipIdx).map Prod.fst
  rw [List.map_append, List.zipIdx_map_fst] at parts
  have q_eq : q = fun before w => !p before w := funext fun before => funext (others before)
  rw [q_eq]
  exact parts

end

-- What remains of a list if methods that are the same are to occur once.
structure Parts (same : WalkedMethod → WalkedMethod → Prop) [DecidableRel same] (ws : List WalkedMethod)
    (d : Distinct) : Prop where
  kept : d.kept = selected (fun before w => ∀ v ∈ before, ¬same v w) ws
  dropped : d.dropped.map (·.1) = selected (fun before w => ∃ v ∈ before, same v w) ws
  -- A dropped method comes with the only one that is kept and the same.
  paired : ∀ p ∈ d.dropped, ∀ v, v ∈ d.kept ∧ same v p.1 ↔ v = p.2
  all : (d.kept ++ d.dropped.map (·.1)).Perm ws

def SameKey (v w : WalkedMethod) : Prop := v.signatureKey = w.signatureKey

def SameSignature (v w : WalkedMethod) : Prop := v.method.Agrees w.method

instance : DecidableRel SameKey := fun v w =>
  inferInstanceAs (Decidable (v.signatureKey = w.signatureKey))

instance : DecidableRel SameSignature := fun v w =>
  inferInstanceAs (Decidable (v.method.Agrees w.method))

theorem find?_eq_none_iff :
    ws.find? (·.signatureKey = w.signatureKey) = none ↔ ∀ v ∈ ws, ¬SameKey v w := by
  simp [SameKey]

theorem kept_eq_selected (ws : List WalkedMethod) :
    (ofList ws).kept = selected (fun before w => ∀ v ∈ before, ¬SameKey v w) ws := by
  induction ws using List.reverseRecOn with
  | nil => rfl
  | append_singleton ws w ih =>
    rw [ofList_concat, add, find?_kept, selected_concat, ← ih]
    split
    case h_1 first found =>
      have met : ¬∀ v ∈ ws, ¬SameKey v w := by simp [← find?_eq_none_iff, found]
      rw [decide_eq_false met, if_neg Bool.false_ne_true, List.append_nil]
    case h_2 absent => rw [decide_eq_true (find?_eq_none_iff.mp absent), if_pos rfl]

theorem dropped_eq_selected (ws : List WalkedMethod) : (ofList ws).dropped.map (·.1) =
    selected (fun before w => ∃ v ∈ before, SameKey v w) ws := by
  induction ws using List.reverseRecOn with
  | nil => rfl
  | append_singleton ws w ih =>
    rw [ofList_concat, add, find?_kept, selected_concat, ← ih]
    split
    case h_1 first found =>
      have met : ¬∀ v ∈ ws, ¬SameKey v w := by simp [← find?_eq_none_iff, found]
      rw [decide_eq_true (by simpa using met), if_pos rfl, List.map_append, List.map_singleton]
    case h_2 absent =>
      have new := find?_eq_none_iff.mp absent
      rw [decide_eq_false (by simpa using new), if_neg Bool.false_ne_true, List.append_nil]

theorem parts_sameKey (ws : List WalkedMethod) : Parts SameKey ws (ofList ws) where
  kept := kept_eq_selected ws
  dropped := dropped_eq_selected ws
  paired p mem v := by
    have first := find?_of_mem_dropped mem
    constructor
    · rintro ⟨kept, same⟩
      have own := find?_of_mem_kept kept
      rw [show v.signatureKey = p.1.signatureKey from same, first] at own
      exact (Option.some.inj own).symm
    · rintro rfl
      rw [← find?_kept] at first
      have same := List.find?_some first
      exact ⟨List.mem_of_find?_eq_some first, of_decide_eq_true same⟩
  all := by
    rw [kept_eq_selected, dropped_eq_selected]
    exact selected_append_perm fun before w => by simp [← decide_not]

-- Which methods are the same counts only among those of the list.
theorem Parts.congr {same same' : WalkedMethod → WalkedMethod → Prop} [DecidableRel same]
    [DecidableRel same'] {d : Distinct} (equal : ∀ v ∈ ws, ∀ w ∈ ws, same v w ↔ same' v w)
    (parts : Parts same ws d) : Parts same' ws d where
  kept := parts.kept.trans <| selected_congr fun before w inside mem => decide_eq_decide.mpr <|
    forall₂_congr fun v earlier => not_congr (equal v (inside earlier) w mem)
  dropped := parts.dropped.trans <| selected_congr fun before w inside mem => decide_eq_decide.mpr <|
    exists_congr fun v => and_congr_right fun earlier => equal v (inside earlier) w mem
  paired p mem v := by
    have dropped : p.1 ∈ ws := parts.all.subset (List.mem_append_right _ (List.mem_map_of_mem mem))
    rw [← parts.paired p mem v]
    refine and_congr_right fun kept => (equal v ?_ p.1 dropped).symm
    exact parts.all.subset (List.mem_append_left _ kept)
  all := parts.all

-- Every method of a list is the same as one that is kept.
theorem Parts.exists_kept {d : Distinct} (parts : Parts SameSignature ws d) (mem : w ∈ ws) :
    ∃ v ∈ d.kept, SameSignature v w := by
  obtain kept | dropped := List.mem_append.mp (parts.all.symm.subset mem)
  · exact ⟨w, kept, rfl, rfl⟩
  · obtain ⟨p, inside, rfl⟩ := List.mem_map.mp dropped
    exact ⟨p.2, (parts.paired p inside p.2).mpr rfl⟩

-- Of the methods with one key the first is kept, and the others are dropped and come with it. These are the
-- methods with one name and one list of types exactly if no two other ones are written alike, and they are
-- not where the marks of the key are in none of its parts.
theorem first_of_each_signature (ws : List WalkedMethod) :
    Parts SameKey ws (ofList ws) ∧
    (Parts SameSignature ws (ofList ws) ↔ ∀ v ∈ ws, ∀ w ∈ ws, SameKey v w → SameSignature v w) ∧
    ((∀ w ∈ ws, w.method.IsLegible) → Parts SameSignature ws (ofList ws)) := by
  have keyed := parts_sameKey ws
  have of_told (told : ∀ v ∈ ws, ∀ w ∈ ws, SameKey v w → SameSignature v w) :
      Parts SameSignature ws (ofList ws) :=
    keyed.congr fun v mem w mem' => ⟨told v mem w mem', Method.Agrees.signatureKey_eq⟩
  refine ⟨keyed, ⟨fun parts v mem w mem' same => ?_, of_told⟩, fun legible =>
    of_told fun v mem w mem' => Method.agrees_of_signatureKey_eq (legible v mem) (legible w mem')⟩
  obtain ⟨v', kept, agrees⟩ := parts.exists_kept mem
  obtain ⟨w', kept', agrees'⟩ := parts.exists_kept mem'
  have key : v'.signatureKey = w'.signatureKey :=
    (agrees.signatureKey_eq.trans same).trans agrees'.signatureKey_eq.symm
  obtain rfl := eq_of_mem_kept kept kept' key
  exact agrees.symm.trans agrees'

-- A point given as a pair, and one given by its coordinates.
def drawAt : WalkedMethod where
  method := { name := "Draw", parameters := [⟨"at", "float,float"⟩], owner := "ICanvas" }
  role := .push
  provenance := "ICanvas"

def drawXY : WalkedMethod where
  method := { name := "Draw", parameters := [⟨"x", "float"⟩, ⟨"y", "float"⟩], owner := "ICanvas" }
  role := .push
  provenance := "ICanvas"

-- The second is dropped, though its types are other ones.
theorem first_of_each_signature_canvas :
    (ofList [drawAt, drawXY]).dropped = [(drawXY, drawAt)] ∧ ¬SameSignature drawAt drawXY ∧
      ¬Parts SameSignature [drawAt, drawXY] (ofList [drawAt, drawXY]) := by
  have dropped : (ofList [drawAt, drawXY]).dropped = [(drawXY, drawAt)] := by decide
  refine ⟨dropped, by decide, fun parts => ?_⟩
  have none := parts.dropped
  rw [dropped] at none
  exact absurd none (by decide)

end HubContract.Distinct
