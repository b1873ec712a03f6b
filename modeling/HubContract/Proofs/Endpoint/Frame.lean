import HubContract.Client.Basic

namespace HubContract

namespace Act

variable {α β : Type} {e e' : Endpoint} {name : String} {h : Held}

theorem run_pure (a : α) (e : Endpoint) : (pure a : Act α).run e = (.ok a, e) := rfl

theorem run_get (e : Endpoint) : (get : Act Endpoint).run e = (.ok e, e) := rfl

theorem run_set (e e' : Endpoint) : (set e' : Act Unit).run e = (.ok (), e') := rfl

theorem run_modify (f : Endpoint → Endpoint) (e : Endpoint) :
    (modify f : Act Unit).run e = (.ok (), f e) := rfl

-- What comes next sees what the first step left.
theorem run_bind (x : Act α) (f : α → Act β) (e : Endpoint) :
    (x >>= f).run e = (ExceptT.bindCont f (x.run e).1 : StateM Endpoint _) (x.run e).2 := rfl

theorem run_bind_ok {x : Act α} {f : α → Act β} {a : α} (first : x.run e = (.ok a, e')) :
    (x >>= f).run e = (f a).run e' := by
  rw [run_bind, first]
  rfl

theorem run_bind_error {x : Act α} {f : α → Act β} {halt : Halt} (first : x.run e = (.error halt, e')) :
    (x >>= f).run e = (.error halt, e') := by
  rw [run_bind, first]
  rfl

-- What gives an answer as a whole gave one at first.
theorem exists_of_run_bind {x : Act α} {f : α → Act β} {b : β} (whole : (x >>= f).run e = (.ok b, e')) :
    ∃ a e₁, x.run e = (.ok a, e₁) ∧ (f a).run e₁ = (.ok b, e') := by
  rcases first : x.run e with ⟨outcome, e₁⟩
  cases outcome with
  | ok a =>
    rw [run_bind_ok first] at whole
    exact ⟨a, e₁, rfl, whole⟩
  | error halt =>
    rw [run_bind_error first] at whole
    nomatch congrArg Prod.fst whole

theorem run_read (shows : e.look name = .ok h) : (read name).run e = (.ok h, e) := by
  rw [read, run_bind_ok (run_get e), shows]
  rfl

theorem run_assign (free : e.sealFault? name = none) (h : Held) :
    (assign name h).run e = (.ok (), { e with fields := e.fields.set name h }) := by
  have assigned : e.assign name h = .ok { e with fields := e.fields.set name h } := by
    simp [Endpoint.assign, free]
  rw [assign, run_bind_ok (run_get e), assigned]
  rfl

theorem run_ask (call : ConnectionCall) : (ask call).run e =
    ((e.connection call).mapError .error, { e with asked := e.asked ++ [call] }) := by
  rw [ask, run_bind_ok (run_get e), run_bind_ok (run_set e _)]
  cases e.connection call <;> rfl

end Act

-- Whether a name shows what it stands for and can be assigned.
def Attribute.isFree : Attribute → Bool
  | .property _ | .kind | .sealed _ => false
  | _ => true

namespace Endpoint

variable {e : Endpoint} {name : String}

theorem look_eq_lookField (free : ∀ a, e.blueprint.find? name = some a → a.isFree) :
    e.look name = e.lookField name := by
  unfold look
  split
  case h_1 found => cases free _ found
  case h_2 found => cases free _ found
  case h_3 found => cases free _ found
  case h_4 => rfl

theorem sealFault?_eq_none (free : ∀ a, e.blueprint.find? name = some a → a.isFree) :
    e.sealFault? name = none := by
  unfold sealFault?
  split
  case h_1 found => cases free _ found
  case h_2 found => cases free _ found
  case h_3 found => cases free _ found
  case h_4 => rfl

end Endpoint

-- Steps that leave everything as it is.
def Act.IsStill {α : Type} (x : Act α) : Prop := ∀ e, (x.run e).2 = e

namespace Act

variable {α β : Type}

theorem isStill_pure (a : α) : IsStill (pure a : Act α) := fun _ => rfl

theorem isStill_refuse (c : CallError) : IsStill (refuse c : Act α) := fun _ => rfl

theorem isStill_orFault (x : Except Fault α) : IsStill (orFault x) := by
  cases x <;> exact fun _ => rfl

theorem IsStill.bind {x : Act α} {f : α → Act β} (first : IsStill x) (next : ∀ a, IsStill (f a)) :
    IsStill (x >>= f) := by
  intro e
  have same := first e
  rcases ran : x.run e with ⟨outcome, e'⟩
  rw [ran] at same
  obtain rfl : e' = e := same
  cases outcome with
  | ok a => rw [run_bind_ok ran, next a]
  | error halt => rw [run_bind_error ran]

theorem isStill_read (name : String) : IsStill (read name) :=
  .bind (x := get) (fun _ => rfl) fun _ => isStill_orFault _

theorem look_of_run_read {name : String} {h : Held} {e e' : Endpoint}
    (reads : (read name).run e = (.ok h, e')) : e.look name = .ok h := by
  rw [read, run_bind_ok (run_get e)] at reads
  cases shows : e.look name with
  | ok h' =>
    rw [shows] at reads
    cases congrArg Prod.fst reads
    rfl
  | error f =>
    rw [shows] at reads
    cases congrArg Prod.fst reads

theorem isStill_className : IsStill className := fun _ => rfl

theorem isStill_itemsOf (v : Value) : IsStill (itemsOf v) := by
  unfold itemsOf
  cases v.items? with
  | none => exact isStill_refuse _
  | some vs => exact isStill_pure vs

theorem isStill_checkArity (name : String) (expected given : Nat) :
    IsStill (checkArity name expected given) := by
  unfold checkArity
  split
  · exact isStill_pure _
  · exact isStill_refuse _

theorem isStill_ofObject (r : Routine) : IsStill (ofObject r) := by
  unfold ofObject
  split
  · exact isStill_refuse _
  · exact isStill_pure _

theorem isStill_hasConnection : IsStill hasConnection := by
  refine (isStill_read _).bind fun h => ?_
  split
  · exact isStill_pure _
  · exact isStill_refuse _

theorem isStill_refuseIfFired (token : Value) : IsStill (refuseIfFired token) := by
  unfold refuseIfFired
  split
  · refine IsStill.bind (x := get) (fun _ => rfl) fun e => ?_
    split
    · exact isStill_refuse _
    · exact isStill_pure _
  · split
    · exact isStill_refuse _
    · exact isStill_pure _

end Act

-- An endpoint that shows the same under all names, and has asked for the same.
structure Endpoint.Resembles (e e' : Endpoint) : Prop where
  blueprint : e'.blueprint = e.blueprint
  fields : e'.fields = e.fields
  loop : e'.loop = e.loop
  asked : e'.asked = e.asked

namespace Endpoint.Resembles

variable {e e' e'' : Endpoint}

theorem refl (e : Endpoint) : e.Resembles e := ⟨rfl, rfl, rfl, rfl⟩

theorem trans (first : e.Resembles e') (later : e'.Resembles e'') : e.Resembles e'' where
  blueprint := later.blueprint.trans first.blueprint
  fields := later.fields.trans first.fields
  loop := later.loop.trans first.loop
  asked := later.asked.trans first.asked

theorem look (same : e.Resembles e') (name : String) : e'.look name = e.look name := by
  rw [Endpoint.look, Endpoint.look, same.blueprint]
  simp only [Endpoint.lookField, same.blueprint, same.fields]

end Endpoint.Resembles

-- Steps that leave something of that kind.
def Act.Keeps {α : Type} (x : Act α) : Prop := ∀ e : Endpoint, e.Resembles (x.run e).2

namespace Act

variable {α β : Type}

-- What holds of all that resemble an endpoint holds after such a step.
theorem Keeps.elim {x : Act α} {p : Endpoint → Prop} {e : Endpoint} (keeps : Keeps x)
    (all : ∀ e', e.Resembles e' → p e') : p (x.run e).2 := all _ (keeps e)

theorem IsStill.keeps {x : Act α} (still : IsStill x) : Keeps x := fun e => by
  rw [still e]
  exact .refl e

theorem Keeps.bind {x : Act α} {f : α → Act β} (first : Keeps x) (next : ∀ a, Keeps (f a)) :
    Keeps (x >>= f) := by
  intro e
  have kept := first e
  rcases ran : x.run e with ⟨outcome, e'⟩
  rw [ran] at kept
  cases outcome with
  | ok a =>
    rw [run_bind_ok ran]
    exact kept.trans (next a e')
  | error halt =>
    rw [run_bind_error ran]
    exact kept

theorem keeps_runCallback (c : Callback) (arguments : List Value) :
    Keeps (runCallback c arguments) := by
  refine Keeps.bind (x := modify _) (fun _ => ⟨rfl, rfl, rfl, rfl⟩) fun _ => ?_
  split
  · exact (isStill_refuse _).keeps
  · exact (isStill_pure _).keeps

theorem keeps_launch (h : Held) (arguments : List Value) (keyword : Keyword) :
    Keeps (launch h arguments keyword) := by
  unfold launch
  split
  · split
    · exact (isStill_refuse _).keeps
    · split
      · exact (isStill_pure _).keeps
      · exact (keeps_runCallback _ _).bind fun _ => (isStill_pure _).keeps
  · split
    · exact (isStill_pure _).keeps
    · exact (isStill_refuse _).keeps
  · exact (isStill_refuse _).keeps

end Act

end HubContract
