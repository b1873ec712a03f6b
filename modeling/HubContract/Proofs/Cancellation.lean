import HubContract.Cancellation
import Mathlib.Data.List.Infix
import Mathlib.Data.List.Nodup
import Mathlib.Data.List.Perm.Subperm

namespace HubContract.Token

variable {κ : Type}

-- Callbacks are called one after the other, up to one that raises.
def callEach (raises : List κ → κ → Bool) (called : List κ) : List κ → List κ
  | [] => []
  | k :: ks => k :: if raises called k then [] else callEach raises (called ++ [k]) ks

section CallEach

variable {raises : List κ → κ → Bool} {called ks : List κ}

theorem callEach_isPrefix : callEach raises called ks <+: ks := by
  induction ks generalizing called with
  | nil => exact List.prefix_rfl
  | cons k ks ih =>
    rw [callEach, List.prefix_cons_inj]
    split
    · exact List.nil_prefix
    · exact ih

-- All of them are called unless one raises that is not the last.
theorem callEach_eq_self_iff : callEach raises called ks = ks ↔
    ∀ before k after, ks = before ++ k :: after → raises (called ++ before) k → after = [] := by
  induction ks generalizing called with
  | nil => simp [callEach]
  | cons k ks ih =>
    rw [callEach, List.cons_inj_right]
    constructor
    · intro all before k' after split raised
      cases before with
      | nil =>
        obtain ⟨rfl, rfl⟩ := List.cons_eq_cons.mp split
        rw [List.append_nil] at raised
        rwa [if_pos raised, eq_comm] at all
      | cons head before =>
        obtain ⟨rfl, rfl⟩ := List.cons_eq_cons.mp split
        split at all
        · simp at all
        · exact ih.mp all before k' after rfl (by rwa [List.append_assoc])
    · intro quiet
      split
      case isTrue raised => exact (quiet [] k ks rfl (by rwa [List.append_nil])).symm
      case isFalse =>
        refine ih.mpr fun before k' after split raised => ?_
        exact quiet (k :: before) k' after (by rw [split, List.cons_append])
          (by rwa [List.append_assoc] at raised)

end CallEach

-- What is done with a token. Registrations are counted in the order in which they are made.
inductive Operation (κ : Type) where
  | register (callback : κ)
  | unregister (registration : Nat)
  | cancel
  deriving DecidableEq, Repr

-- A token with all that was ever registered, and the registrations that were taken back.
structure Usage (κ : Type) where
  token : Token κ := {}
  registered : List κ := []
  takenBack : List Nat := []
  deriving DecidableEq, Repr

namespace Usage

-- The callbacks of all registrations that were not taken back.
def live (u : Usage κ) : List κ :=
  (u.registered.zipIdx.filter (·.2 ∉ u.takenBack)).map Prod.fst

-- What an operation has to run.
def owed (u : Usage κ) : Operation κ → List κ
  | .register k => if u.token.fired then [k] else []
  | .unregister _ => []
  | .cancel => if u.token.fired then [] else u.live

def ran (raises : List κ → κ → Bool) (u : Usage κ) : Operation κ → List κ
  | .register k => (u.token.register k).2
  | .unregister _ => []
  | .cancel => callEach raises [] u.token.cancel.2

-- A registration that was taken back before, while its callback waits for another one.
def Robs (u : Usage κ) (i : Nat) : Prop :=
  u.token.fired = false ∧ i ∈ u.takenBack ∧ ∃ k ∈ u.registered[i]?, k ∈ u.live

-- No callback raises but for the last one.
def IsQuiet (raises : List κ → κ → Bool) (u : Usage κ) : Prop :=
  ∀ before k after, u.token.callbacks = before ++ k :: after → raises before k → after = []

-- All callbacks that wait belong to registrations of their own.
structure IsSound (u : Usage κ) : Prop where
  fired : u.token.fired → u.token.callbacks = []
  waiting : u.token.fired = false → u.token.callbacks.Subperm u.live
  takenBack : ∀ i ∈ u.takenBack, i < u.registered.length

section State

variable {raises : List κ → κ → Bool} {u : Usage κ} {k : κ} {i : Nat}

-- A registration is live once it is made.
theorem live_register (bound : ∀ i ∈ u.takenBack, i < u.registered.length) (t : Token κ) :
    live { u with token := t, registered := u.registered ++ [k] } = u.live ++ [k] := by
  have fresh : u.registered.length ∉ u.takenBack := fun mem => (bound _ mem).false
  simp [live, List.zipIdx_append, fresh]

-- One of its callback is less when it is taken back,
theorem erase_live_perm [DecidableEq κ] (made : u.registered[i]? = some k)
    (first : i ∉ u.takenBack) (t : Token κ) :
    (u.live.erase k).Perm (live { u with token := t, takenBack := i :: u.takenBack }) := by
  have mem : (k, i) ∈ u.registered.zipIdx.filter (·.2 ∉ u.takenBack) := by
    simp [List.mem_zipIdx_iff_getElem?, made, first]
  have nodup : (u.registered.zipIdx.filter (·.2 ∉ u.takenBack)).Nodup :=
    (List.Nodup.of_map Prod.snd (by rw [List.zipIdx_map_snd]; exact List.nodup_range')).filter _
  have others : (u.registered.zipIdx.filter (·.2 ∉ u.takenBack)).erase (k, i) =
      u.registered.zipIdx.filter (·.2 ∉ i :: u.takenBack) := by
    rw [nodup.erase_eq_filter, List.filter_filter]
    refine List.filter_congr fun ⟨k', j⟩ inside => ?_
    -- no other registration has the place
    have same : j = i → k' = k := by
      rintro rfl
      have found : u.registered[j]? = some k' := List.mem_zipIdx_iff_getElem?.mp inside
      exact Option.some.inj (found.symm.trans made)
    grind
  have perm := ((List.perm_cons_erase mem).map Prod.fst).erase k
  rwa [others, List.map_cons, List.erase_cons_head] at perm

-- but taking it back again makes no difference.
theorem live_takenBack_again (again : i ∈ u.takenBack) (t : Token κ) :
    live { u with token := t, takenBack := i :: u.takenBack } = u.live := by
  have same (j : Nat) : j ∈ i :: u.takenBack ↔ j ∈ u.takenBack := by
    rw [List.mem_cons, or_iff_right_of_imp (· ▸ again)]
  simp only [live, same]

-- What comes too late runs at once, and nothing else runs before the token fires.
theorem ran_eq_owed {op : Operation κ} (other : op ≠ .cancel) : u.ran raises op = u.owed op := by
  cases op with
  | register k => cases fired : u.token.fired <;> simp [ran, owed, register, fired]
  | unregister => rfl
  | cancel => exact absurd rfl other

-- Nothing runs that is not owed.
theorem IsSound.ran_subperm_owed (sound : u.IsSound) (op : Operation κ) :
    (u.ran raises op).Subperm (u.owed op) := by
  by_cases other : op = .cancel
  · subst other
    cases fired : u.token.fired with
    | true => simp [ran, cancel, fired, callEach]
    | false =>
      simp only [ran, owed, cancel, fired]
      exact callEach_isPrefix.sublist.subperm.trans (sound.waiting fired)
  · rw [ran_eq_owed other]

-- All registrations that are live have their callbacks wait for the token.
def IsFull (u : Usage κ) : Prop := u.token.fired = false → u.token.callbacks.Perm u.live

theorem IsSound.kept_cancel_iff (sound : u.IsSound) :
    (u.ran raises .cancel).Perm (u.owed .cancel) ↔ u.IsFull ∧ u.IsQuiet raises := by
  have quiet : callEach raises [] u.token.callbacks = u.token.callbacks ↔ u.IsQuiet raises :=
    callEach_eq_self_iff
  rw [← quiet]
  unfold IsFull ran owed cancel
  cases fired : u.token.fired with
  | true => simp [callEach, sound.fired fired]
  | false =>
    simp only [Bool.false_eq_true, if_false, forall_const]
    constructor
    · intro kept
      have waiting := (sound.waiting fired).length_le
      have called : callEach raises [] u.token.callbacks <+: u.token.callbacks := callEach_isPrefix
      have all : callEach raises [] u.token.callbacks = u.token.callbacks :=
        called.eq_of_length (called.length_le.antisymm (waiting.trans kept.length_eq.ge))
      exact ⟨all ▸ kept, all⟩
    · rintro ⟨full, all⟩
      rwa [all]

end State

variable [DecidableEq κ]

-- A registration that was not made yet cannot be taken back.
def apply (u : Usage κ) : Operation κ → Usage κ
  | .register k =>
    { u with token := (u.token.register k).1, registered := u.registered ++ [k] }
  | .unregister i =>
    match u.registered[i]? with
    | none => u
    | some k => { u with token := u.token.unregister k, takenBack := i :: u.takenBack }
  | .cancel => { u with token := u.token.cancel.1 }

section Step

variable {u : Usage κ} {k : κ} {i : Nat}

theorem apply_unregister_some (made : u.registered[i]? = some k) : u.apply (.unregister i) =
    { u with token := u.token.unregister k, takenBack := i :: u.takenBack } := by
  simp only [apply, made]

theorem apply_unregister_none (made : u.registered[i]? = none) : u.apply (.unregister i) = u := by
  simp only [apply, made]

theorem IsSound.apply_register (sound : u.IsSound) (k : κ) : (u.apply (.register k)).IsSound := by
  refine ⟨fun fired => ?_, fun unfired => ?_, fun i mem => ?_⟩
  · cases fires : u.token.fired with
    | true => simpa [Usage.apply, register, fires] using sound.fired fires
    | false => simp [Usage.apply, register, fires] at fired
  · cases fires : u.token.fired with
    | true => simp [Usage.apply, register, fires] at unfired
    | false =>
      simp only [Usage.apply, register, fires, live_register sound.takenBack]
      exact (List.subperm_append_right [k]).mpr (sound.waiting fires)
  · have : i < u.registered.length := sound.takenBack i mem
    simp only [Usage.apply, List.length_append]
    omega

theorem IsSound.apply_unregister (sound : u.IsSound) (i : Nat) :
    (u.apply (.unregister i)).IsSound := by
  cases made : u.registered[i]? with
  | none => rwa [apply_unregister_none made]
  | some k =>
    have inside := (List.getElem?_eq_some_iff.mp made).1
    rw [apply_unregister_some made]
    refine ⟨fun fired => ?_, fun unfired => ?_, List.forall_mem_cons.mpr ⟨inside, sound.takenBack⟩⟩
    · simp [unregister, sound.fired fired]
    · have waiting := sound.waiting unfired
      by_cases again : i ∈ u.takenBack
      · rw [live_takenBack_again again]
        exact (List.erase_subperm k _).trans waiting
      · exact (waiting.erase k).trans (erase_live_perm made again _).subperm

theorem IsSound.apply_cancel (sound : u.IsSound) : (u.apply .cancel).IsSound := by
  simp only [Usage.apply, cancel]
  split
  · exact sound
  · exact ⟨fun _ => rfl, nofun, sound.takenBack⟩

theorem IsSound.apply (sound : u.IsSound) : ∀ op, (u.apply op).IsSound
  | .register k => sound.apply_register k
  | .unregister i => sound.apply_unregister i
  | .cancel => sound.apply_cancel

-- A step keeps it up unless it robs a registration.
theorem IsSound.isFull_apply (sound : u.IsSound) (full : u.IsFull) {op : Operation κ}
    (honest : ∀ i, op = .unregister i → ¬ u.Robs i) : (u.apply op).IsFull := by
  cases op with
  | register k =>
    intro unfired
    cases fired : u.token.fired with
    | true => simp [Usage.apply, register, fired] at unfired
    | false =>
      simp only [Usage.apply, register, fired, live_register sound.takenBack]
      exact (full fired).append_right [k]
  | unregister i =>
    cases made : u.registered[i]? with
    | none => rwa [apply_unregister_none made]
    | some k =>
      rw [apply_unregister_some made]
      intro unfired
      have perm := full unfired
      by_cases again : i ∈ u.takenBack
      · have gone : k ∉ u.token.callbacks := fun waits =>
          honest i rfl ⟨unfired, again, k, made, perm.mem_iff.mp waits⟩
        rw [live_takenBack_again again]
        simpa only [unregister, List.erase_of_not_mem gone] using perm
      · exact (perm.erase k).trans (erase_live_perm made again _)
  | cancel =>
    intro unfired
    simp only [Usage.apply, cancel] at unfired
    split at unfired <;> simp_all

-- A registration that is robbed of its callback is one too few.
theorem Robs.not_isFull (robs : u.Robs i) (full : u.IsFull) : ¬ (u.apply (.unregister i)).IsFull := by
  obtain ⟨unfired, again, k, made, live⟩ := robs
  rw [apply_unregister_some made]
  intro still
  have perm := still unfired
  rw [live_takenBack_again again] at perm
  have waits : k ∈ u.token.callbacks := (full unfired).mem_iff.mpr live
  have lost : (u.token.callbacks.erase k).length = u.token.callbacks.length :=
    perm.length_eq.trans (full unfired).length_eq.symm
  have := List.length_erase_of_mem waits
  have := List.length_pos_of_mem waits
  omega

end Step

end Usage

section Run

variable [DecidableEq κ] {raises : List κ → κ → Bool} {ops : List (Operation κ)}

-- A token that is used from its beginning.
def use (ops : List (Operation κ)) : Usage κ := ops.foldl Usage.apply {}

theorem use_snoc (op : Operation κ) : use (ops ++ [op]) = (use ops).apply op :=
  List.foldl_append

theorem isSound_use (ops : List (Operation κ)) : (use ops).IsSound := by
  induction ops using List.reverseRecOn with
  | nil => exact ⟨nofun, fun _ => List.Subperm.refl _, nofun⟩
  | append_singleton ops op ih => exact use_snoc op ▸ ih.apply op

-- Each operation of a run has run what it owed, no callback more or less often.
def Keeps (raises : List κ → κ → Bool) (ops : List (Operation κ)) : Prop :=
  ∀ front op back, ops = front ++ op :: back →
    ((use front).ran raises op).Perm ((use front).owed op)

theorem isFull_use (honest : ∀ front i, front ++ [.unregister i] <+: ops → ¬ (use front).Robs i) :
    (use ops).IsFull := by
  induction ops using List.reverseRecOn with
  | nil => exact fun _ => List.Perm.refl _
  | append_singleton ops op ih =>
    rw [use_snoc]
    refine (isSound_use ops).isFull_apply (ih fun front i part => ?_) fun i last => ?_
    · exact honest front i (part.trans (List.prefix_append ..))
    · exact honest ops i (last ▸ List.prefix_rfl)

-- Nothing runs that is not owed, and a callback that comes too late runs at once. Whenever the token
-- fires in a run, all that is owed has run, unless a registration was taken back twice at the cost
-- of one with the same callback, or a callback raised before the last one was called.
theorem each_once_iff (raises : List κ → κ → Bool) (ops : List (Operation κ)) :
    (∀ front op back, ops = front ++ op :: back →
      ((use front).ran raises op).Subperm ((use front).owed op) ∧
      (op ≠ .cancel → (use front).ran raises op = (use front).owed op)) ∧
    ((∀ front, front <+: ops → Keeps raises (front ++ [.cancel])) ↔
      (∀ front i, front ++ [.unregister i] <+: ops → ¬ (use front).Robs i) ∧
      ∀ front, front <+: ops → (use front).IsQuiet raises) := by
  refine ⟨fun front op back _ => ⟨(isSound_use front).ran_subperm_owed op, Usage.ran_eq_owed⟩, ?_⟩
  constructor
  · intro keeps
    have kept (front : List (Operation κ)) (part : front <+: ops) :
        (use front).IsFull ∧ (use front).IsQuiet raises :=
      (isSound_use front).kept_cancel_iff.mp (keeps front part front .cancel [] rfl)
    refine ⟨fun front i part robs => ?_, fun front part => (kept front part).2⟩
    have full := (kept front ((List.prefix_append ..).trans part)).1
    have still := (kept (front ++ [.unregister i]) part).1
    rw [use_snoc] at still
    exact robs.not_isFull full still
  · rintro ⟨honest, quiet⟩ last part front op back split
    by_cases other : op = .cancel
    · subst other
      have length := congrArg List.length split
      simp only [List.length_append, List.length_cons, List.length_nil] at length
      have within : front <+: last := by
        have inside : front <+: last ++ [.cancel] := split ▸ List.prefix_append ..
        exact List.prefix_of_prefix_length_le inside (List.prefix_append ..) (by omega)
      have full := isFull_use fun before i before_part =>
        honest before i (before_part.trans (within.trans part))
      exact (isSound_use front).kept_cancel_iff.mpr ⟨full, quiet front (within.trans part)⟩
    · rw [Usage.ran_eq_owed other]

-- The second registration of a callback is lost when the first is taken back twice, and the second
-- of two callbacks is not called when the first raises.
theorem not_keeps_twice :
    ¬ Keeps (fun _ _ => false)
      [.register 7, .register 7, .unregister 0, .unregister 0, .cancel] ∧
    ¬ Keeps (fun _ k => k = 7) [.register 7, .register 8, .cancel] := by
  constructor
  · intro keeps
    have kept := keeps [.register 7, .register 7, .unregister 0, .unregister 0] .cancel [] rfl
    exact absurd kept (by decide)
  · intro keeps
    exact absurd (keeps [.register 7, .register 8] .cancel [] rfl) (by decide)

end Run

end HubContract.Token
