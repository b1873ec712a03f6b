import HubContract.Proofs.Contract.Suggestion
import HubContract.Proofs.Document.Fixing
import HubContract.Proofs.Document.Provenance
import HubContract.Proofs.Document.RoundTrip
import HubContract.Proofs.Engine.Report

namespace HubContract

namespace Document

variable {d d' : Document} {decl e : Declaration} {marker : HubMarker} {k : Contract} {role : Role}
  {w : WalkedMethod} {before after : List Method} {m : Method}

section

variable {f : Method → Method} {key : String}

-- Where another method with the signature stands before, all stays as it is from there on.
theorem updateFirst_of_met (met : ∃ m ∈ before, m.signatureKey = key) (rest : List Method) :
    ∃ changed, changed.length = before.length ∧
      updateFirst key (fun m => some (f m)) (before ++ rest) = changed ++ rest := by
  induction before with
  | nil => simp at met
  | cons first before ih =>
    rw [List.cons_append, updateFirst]
    split
    · exact ⟨f first :: before, rfl, rfl⟩
    · rename_i other
      obtain ⟨m, inside, same⟩ := met
      obtain rfl | later := List.mem_cons.mp inside
      · exact absurd same other
      · obtain ⟨changed, length, eq⟩ := ih ⟨m, later, same⟩
        exact ⟨first :: changed, by simp [length], by rw [eq]; rfl⟩

end

-- A method of which a diagnostic speaks: the first one of its role with its signature in the declaration
-- that the fix names.
structure Blames (d : Document) (k : Contract) (role : Role) (g : Diagnostic) (f : Fix)
    (decl : Declaration) (before : List Method) (m : Method) (after : List Method) : Prop where
  fixes : g.fixes = [f]
  location : g.location = some ⟨decl.name, some m.name⟩
  declared : d.get? f.declaration = some decl
  methods : decl.methods = before ++ m :: after
  signature : f.method = m.signatureKey
  plays : k.plays role m
  refused : role.allows m.returns = false
  others : ∀ m' ∈ before, m'.signatureKey = f.method → k.plays role m' = false
  kind : f.kind.isMove = false
  target : .parse f.target = role.fitted m.returns

-- The document in which the method has the return type that its role asks for.
def retyped (d : Document) (role : Role) (decl : Declaration) (before : List Method) (m : Method)
    (after : List Method) : Document :=
  d.replace { decl with methods := before ++ m.returning (role.fitted m.returns) :: after }

section

variable {g : Diagnostic} {f : Fix}

theorem blames_of_mem_methodsOf (canonical : d.IsCanonical) (contract : d.IsContract e marker k)
    (found : d.get? e.name = some e) (mem : w ∈ k.methodsOf role)
    (refused : role.allows w.method.returns = false)
    (report : g.finding = Contract.offence role.shapeCode (Rule.shapeViolation role) w) :
    ∃ decl before after, d.Blames k role g (Rule.shapeFix role w) decl before w.method after := by
  obtain ⟨decl, declared, name, first⟩ :=
    exists_declaration_of_mem_methodsOf contract found (canonical.of_get? found) mem
  obtain ⟨hit, before, after, methods, others⟩ := List.find?_eq_some_iff_append.mp first
  have inside : w.method ∈ decl.methods := methods ▸ List.mem_append_right _ List.mem_cons_self
  have written := (canonical.of_get? declared).written w.method inside
  refine ⟨decl, before, after, ?_, ?_, ?_, methods, Rule.method_shapeFix role w, ?_, refused, ?_,
    Rule.isMove_shapeFix role w, Rule.parse_target_shapeFix written refused⟩
  · exact (congrArg Finding.fixes report).trans (Contract.fixes_offence_shape role w)
  · refine (congrArg Finding.location report).trans ?_
    rw [name]
    rfl
  · rw [Rule.declaration_shapeFix]
    exact declared
  · exact (Bool.and_eq_true_iff.mp hit).1
  · intro m' earlier same
    have missed := others m' earlier
    rw [Rule.method_shapeFix] at same
    simpa [same] using missed

theorem Blames.declared_self (blames : d.Blames k role g f decl before m after) :
    d.get? decl.name = some decl := by
  rw [get?_name blames.declared, blames.declared]

-- The fix changes the first method with the signature, whatever its role.
theorem Blames.applyFix (blames : d.Blames k role g f decl before m after) :
    let change (m' : Method) : Option Method := some (m'.returning (role.fitted m.returns))
    d.applyFix f =
      .ok (d.replace { decl with methods := updateFirst f.method change decl.methods }) := by
  have met : (decl.methods.find? (·.signatureKey = f.method)).isSome :=
    List.find?_isSome.mpr ⟨m, blames.methods ▸ List.mem_append_right _ List.mem_cons_self,
      decide_eq_true blames.signature.symm⟩
  obtain ⟨first, found⟩ := Option.isSome_iff_exists.mp met
  simp only [Document.applyFix, blames.declared, found, blames.kind, blames.target, Bool.false_eq_true,
    if_false, Method.returning]

-- The fix does what it is meant to do, and nothing else, exactly if it meets no other method before.
theorem Blames.applyFix_iff (blames : d.Blames k role g f decl before m after) :
    d.applyFix f = .ok (d.retyped role decl before m after) ↔
      ∀ m' ∈ before, m'.signatureKey ≠ f.method := by
  rw [blames.applyFix, blames.methods, Except.ok.injEq, retyped]
  constructor
  · intro same m' inside signature
    obtain ⟨changed, length, eq⟩ := updateFirst_of_met
      (f := (·.returning (role.fitted m.returns))) ⟨m', inside, signature⟩ (m :: after)
    have declared := congrArg (·.get? decl.name) same
    have methods (ms : List Method) :
        (d.replace { decl with methods := ms }).get? decl.name = some { decl with methods := ms } :=
      get?_replace (e := { decl with methods := ms }) blames.declared_self
    simp only [eq, methods, Option.some.injEq, Declaration.mk.injEq, true_and, and_true] at declared
    -- the method itself has kept its return type
    have kept := (List.cons.inj (List.append_inj declared length).2).1
    have returns : m.returns = role.fitted m.returns := congrArg Method.returns kept
    have refused := blames.refused
    rw [returns, role.allows_fitted] at refused
    cases refused
  · intro unmet
    rw [updateFirst_of_unmet unmet blames.signature.symm]
    rfl

-- With another return type it is still the first one of its role with its signature.
theorem Blames.first_returning (blames : d.Blames k role g f decl before m after)
    (unmet : ∀ m' ∈ before, m'.signatureKey ≠ f.method) (r : ReturnType) :
    (before ++ m.returning r :: after).find?
      (fun m' => k.plays role m' && m'.signatureKey = m.signatureKey) = some (m.returning r) := by
  rw [blames.signature] at unmet
  refine List.find?_eq_some_iff_append.mpr ⟨?_, before, after, rfl, fun m' earlier => ?_⟩
  · exact Bool.and_eq_true_iff.mpr ⟨blames.plays, decide_eq_true rfl⟩
  · simp [unmet m' earlier]

end

section

variable {name : String} {k' : Contract}

-- Where only methods differ, a contract stays a contract, with sides or without as before.
theorem Alike.exists_contract (alike : d.Alike d') (distinct : d.Distinct) (distinct' : d'.Distinct)
    (found : (name, .ok k) ∈ d.discover.clients) : ∃ k', (name, .ok k') ∈ d'.discover.clients := by
  have same := alike.outcomes alike (fun _ => distinct.get?_of_mem) (fun _ => distinct'.get?_of_mem) []
  have inside : (name, true) ∈ (d'.outcomes [] d'.declarations).map (fun c => (c.1, c.2.isOk)) := by
    rw [same]
    exact List.mem_map.mpr ⟨_, found, rfl⟩
  obtain ⟨⟨name', outcome⟩, found', eq⟩ := List.mem_map.mp inside
  obtain ⟨rfl, ok⟩ := Prod.mk.inj eq
  cases outcome with
  | error ds => cases ok
  | ok k' => exact ⟨k', found'⟩

theorem Alike.plays (alike : d.Alike d') (distinct : d.Distinct) (distinct' : d'.Distinct)
    (found : (name, .ok k) ∈ d.discover.clients) (found' : (name, .ok k') ∈ d'.discover.clients) :
    k'.plays = k.plays := by
  obtain ⟨e, marker, declared, -, client, contract⟩ := exists_client distinct found
  obtain ⟨e', marker', declared', -, client', contract'⟩ := exists_client distinct' found'
  have heading := alike.get? name
  rw [declared, declared', Option.map_some, Option.map_some, Option.some.injEq] at heading
  have same : e'.hubClient = e.hubClient := (congrArg Declaration.hubClient heading :)
  rw [client, client', Option.some.injEq] at same
  refine Contract.plays_congr ?_
  rw [isSeparated_of_isContract contract, isSeparated_of_isContract contract', same]

end

end Document

namespace Engine

open HubContract.Document

variable {d : Document} {o : Options} {c : CompiledContract} {g : Diagnostic} {role : Role}

-- Discovery and fakes have nothing to say about return types.
theorem shapeCode_not_mem_refusals (role : Role) :
    role.shapeCode ∉ Discovery.refusals ++ [.duplicateSignature, .sharedWireName] ∧
      role.shapeCode ∉ CompiledFake.refusals := by
  cases role <;> decide

-- A report about a return type comes from a contract that was resolved, and from a method of its side.
theorem exists_method_of_reported (compiled : c ∈ (d.compile o).contracts) (reported : g ∈ c.diagnostics)
    (code : g.code = role.shapeCode) :
    ∃ k, (c.contractName, .ok k) ∈ d.discover.clients ∧
      ∃ w ∈ k.methodsOf role, role.allows w.method.returns = false ∧
        g.finding = Contract.offence role.shapeCode (Rule.shapeViolation role) w := by
  obtain ⟨k, found, error⟩ := exists_error_of_reported compiled reported
    (code ▸ (shapeCode_not_mem_refusals role).1)
  exact ⟨k, found, Contract.exists_of_mem_errors error code⟩

-- The method that is reported has a return type that its role allows once the fix has changed it, and
-- it is still the first one of its role with its signature.
theorem not_reported_again {x : Data} {d : Document} (read : ofData x = .ok d) {k : Contract} {f : Fix}
    {decl : Declaration} {before : List Method} {m : Method} {after : List Method}
    (found : (c.contractName, .ok k) ∈ d.discover.clients)
    (blames : d.Blames k role g f decl before m after)
    (unmet : ∀ m' ∈ before, m'.signatureKey ≠ f.method) :
    let d' := d.retyped role decl before m after
    (∃ k', (c.contractName, .ok k') ∈ d'.discover.clients) ∧
      ∀ c' ∈ (d'.compile o).contracts, c'.contractName = c.contractName →
        ∀ g' ∈ c'.diagnostics, g'.code = role.shapeCode →
          ∀ f' ∈ g'.fixes, ¬ (f'.declaration = f.declaration ∧ f'.method = f.method) := by
  intro d'
  have canonical := isCanonical_of_ofData read
  have canonical' : d'.IsCanonical := canonical.applyFix (blames.applyFix_iff.mpr unmet)
  have alike : d.Alike d' := alike_replace canonical.distinct blames.declared_self rfl
  refine ⟨alike.exists_contract canonical.distinct canonical'.distinct found, ?_⟩
  rintro c' compiled same g' reported code f' inside ⟨declaration, method⟩
  obtain ⟨k', found', w, mem, refused, report⟩ := exists_method_of_reported compiled reported code
  obtain ⟨e, marker, declared, name, -, contract⟩ := exists_client canonical'.distinct found'
  obtain ⟨decl', declared', -, first⟩ := exists_declaration_of_mem_methodsOf contract (name ▸ declared)
    (canonical'.of_get? declared) mem
  have fixes : g'.fixes = [Rule.shapeFix role w] :=
    (congrArg Finding.fixes report).trans (Contract.fixes_offence_shape role w)
  obtain rfl := List.mem_singleton.mp (fixes ▸ inside)
  rw [Rule.declaration_shapeFix] at declaration
  rw [Rule.method_shapeFix, blames.signature] at method
  -- its declaration is the one that was changed
  have changed : d'.get? decl.name = some
      { decl with methods := before ++ m.returning (role.fitted m.returns) :: after } :=
    get?_replace blames.declared_self
  rw [declaration, ← get?_name blames.declared] at declared'
  obtain rfl := Option.some.inj (declared'.symm.trans changed)
  have plays := alike.plays canonical.distinct canonical'.distinct found (same ▸ found')
  rw [plays, method] at first
  have itself := Option.some.inj ((blames.first_returning unmet _).symm.trans first)
  rw [← itself, m.returns_returning, role.allows_fitted] at refused
  cases refused

-- A hub client without sides, of which both methods have one signature.
def chat (methods : List Method) : Document :=
  ⟨[{ name := "IChat", methods, hubClient := some { uri := "chat" } }], []⟩

def pushed (r : ReturnType) : Method := { name := "Count", returns := r, owner := "IChat" }

def invoked (r : ReturnType) : Method := { name := "Count", returns := r, owner := "IChat", invoke := true }

def int : ReturnType := ⟨.value, some "int"⟩

def chatContract (methods : List Method) : Contract := { name := "IChat", uri := "chat", methods }

def countWalked : WalkedMethod := ⟨invoked int, .invoke, "IChat"⟩

def countFix : Fix := Rule.invokeFix countWalked

theorem chat_clients (methods : List Method) :
    (chat methods).discover.clients = [("IChat", .ok (chatContract methods))] := by
  let bridge : Declaration := { name := "IChat", methods, hubClient := some { uri := "chat" } }
  have found : (chat methods).get? bridge.name = some bridge := rfl
  have contract : (chat methods).IsContract bridge { uri := "chat" } (chatContract methods) :=
    ⟨rfl, rfl, rfl, rfl, .none, .none, .nil⟩
  have clients : (chat methods).discover.clients =
      [("IChat", (chat methods).resolveClient bridge { uri := "chat" })] := by
    have claimed : claimModule [] "IChat" none = .ok [("chat_client", "IChat")] := rfl
    simp only [discover, chat, outcomes, claimed]
    rfl
  rw [clients, resolveClient_eq_ok_iff.mpr ((resolveContract_eq_ok_iff found).mpr contract)]

theorem chat_reports (methods : List Method)
    (error : Contract.offence .invokeReturnShape Rule.invokeViolation countWalked ∈
      (chatContract methods).errors) :
    ∃ c ∈ ((chat methods).compile {}).contracts, c.contractName = "IChat" ∧
      ∃ g ∈ c.diagnostics, g.code = .invokeReturnShape ∧ g.fixes = [countFix] := by
  have found : ("IChat", .ok (chatContract methods)) ∈ (chat methods).discover.clients := by
    rw [chat_clients]
    exact List.mem_cons_self
  obtain ⟨c, compiled, named, g, reported, finding⟩ := exists_reported_of_mem_errors {} found error
  exact ⟨c, compiled, named, g, reported, congrArg Finding.code finding, congrArg Finding.fixes finding⟩

theorem ofData_chat {methods : List Method}
    (each : ∀ m ∈ methods, m.owner = "IChat" ∧ m.returns.IsWritten) :
    ofData (chat methods).toData = .ok (chat methods) :=
  ofData_toData ⟨List.nodup_singleton _, List.forall_mem_singleton.mpr
    ⟨fun m inside => (each m inside).1, fun m inside => (each m inside).2⟩⟩

theorem isWritten_int : int.IsWritten := by rfl

-- A fix of a return type changes the method that is reported and nothing else, exactly if no method of
-- the other role with its signature is declared before it. The contract is a contract as before then,
-- and the method is not reported again. Where the contract has sides, every method of the declaration
-- has the one role.
theorem retyping_by_signature {x : Data} {d : Document} (read : ofData x = .ok d) (o : Options)
    (reported : g ∈ (d.compile o).diagnostics) (code : g.code = role.shapeCode) :
    (∃ c ∈ (d.compile o).contracts, g ∈ c.diagnostics) ∧
    ∀ c ∈ (d.compile o).contracts, g ∈ c.diagnostics →
      ∃ k f decl before m after, (c.contractName, .ok k) ∈ d.discover.clients ∧
        d.Blames k role g f decl before m after ∧
        (d.applyFix f = .ok (d.retyped role decl before m after) ↔
          ∀ m' ∈ before, m'.signatureKey ≠ f.method) ∧
        (k.isSeparated → ∀ m' ∈ before, m'.signatureKey ≠ f.method) ∧
        ((∀ m' ∈ before, m'.signatureKey ≠ f.method) →
          let d' := d.retyped role decl before m after
          (∃ k', (c.contractName, .ok k') ∈ d'.discover.clients) ∧
            ∀ c' ∈ (d'.compile o).contracts, c'.contractName = c.contractName →
              ∀ g' ∈ c'.diagnostics, g'.code = g.code →
                ∀ f' ∈ g'.fixes, ¬ (f'.declaration = f.declaration ∧ f'.method = f.method)) := by
  have settled (refusal : g.IsRefusal CompiledFake.refusals) : False :=
    (shapeCode_not_mem_refusals role).2 (code ▸ refusal.code)
  refine ⟨(exists_contract_of_reported reported).resolve_right settled, fun c compiled inside => ?_⟩
  have canonical := isCanonical_of_ofData read
  obtain ⟨k, found, w, mem, refused, report⟩ := exists_method_of_reported compiled inside code
  obtain ⟨e, marker, declared, name, -, contract⟩ := exists_client canonical.distinct found
  obtain ⟨decl, before, after, blames⟩ :=
    blames_of_mem_methodsOf canonical contract (name ▸ declared) mem refused report
  refine ⟨k, _, decl, before, w.method, after, found, blames, blames.applyFix_iff, ?_, ?_⟩
  · intro separated m' earlier same
    have other := blames.others m' earlier same
    rw [Contract.plays, separated] at other
    cases other
  · rw [code]
    exact not_reported_again read found blames

-- The method of the other role stands behind the one that is reported.
theorem retyping_by_signature_invokeFirst :
    let d := chat [invoked int, pushed .unitAsync]
    ofData d.toData = .ok d ∧
      d.applyFix countFix = .ok (chat [invoked (.valueAsync "int"), pushed .unitAsync]) ∧
      ∃ g ∈ (d.compile {}).diagnostics, g.code = Role.invoke.shapeCode ∧
        ∃ c ∈ (d.compile {}).contracts, g ∈ c.diagnostics ∧
          ∃ k f decl before m after, (c.contractName, .ok k) ∈ d.discover.clients ∧
            d.Blames k .invoke g f decl before m after := by
  intro d
  have read : ofData d.toData = .ok d :=
    ofData_chat (by simp [pushed, invoked, ReturnType.isWritten_unitAsync, isWritten_int])
  obtain ⟨c, compiled, -, g, inside, code, -⟩ :=
    chat_reports [invoked int, pushed .unitAsync] (by decide +kernel)
  have code : g.code = Role.invoke.shapeCode := code
  have reported := mem_diagnostics_compile compiled inside
  obtain ⟨k, f, decl, before, m, after, found, blames, -⟩ :=
    (retyping_by_signature read {} reported code).2 c compiled inside
  exact ⟨read, rfl, g, reported, code, c, compiled, inside, k, f, decl, before, m, after, found, blames⟩

-- The fix for the invoke method changes the push method, and the invoke method is reported again with
-- the same fix.
theorem retyping_by_signature_pushFirst :
    let d := chat [pushed .unitAsync, invoked int]
    let d' := chat [pushed (.valueAsync "int"), invoked int]
    ofData d.toData = .ok d ∧
      (∃ c ∈ (d.compile {}).contracts, c.contractName = "IChat" ∧
        ∃ g ∈ c.diagnostics, g.code = .invokeReturnShape ∧ g.fixes = [countFix]) ∧
      d.applyFix countFix = .ok d' ∧
      ∃ c' ∈ (d'.compile {}).contracts, c'.contractName = "IChat" ∧
        ∃ g' ∈ c'.diagnostics, g'.code = .invokeReturnShape ∧ g'.fixes = [countFix] := by
  intro d d'
  refine ⟨?_, ?_, rfl, ?_⟩
  · exact ofData_chat (by simp [pushed, invoked, ReturnType.isWritten_unitAsync, isWritten_int])
  · exact chat_reports _ (by decide +kernel)
  · exact chat_reports _ (by decide +kernel)

end Engine

end HubContract
