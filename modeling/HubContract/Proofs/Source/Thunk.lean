import HubContract.Proofs.Binding.Payload
import HubContract.Proofs.Pipeline.Errors
import HubContract.Proofs.Source.Behavior

namespace HubContract.Source

theorem infix_indented {part lines : List String} (inside : part <:+: lines) (level : Nat) :
    indented level part <:+: indented level lines := by
  unfold indented
  exact inside.map _

-- A thunk is written into the module with all of its lines.
theorem infix_lines {source : ClientModule} {t : Thunk} (inside : t ∈ source.thunks) :
    indented 1 t.lines <:+: source.lines := by
  have among : t.lines <:+: source.thunks.flatMap Thunk.lines :=
    List.infix_of_mem_flatten (List.mem_map_of_mem inside)
  have body : source.thunks.flatMap Thunk.lines <:+: source.slots.map Slot.line ++
      source.registrationLines ++ source.thunks.flatMap Thunk.lines ++
        source.wrappers.flatMap Wrapper.lines := ⟨_, _, rfl⟩
  rw [ClientModule.lines]
  exact (infix_indented (among.trans body) 1).trans (List.suffix_append _ _).isInfix

-- A parameter has the name of the variable if it is declared with it.
theorem exists_callback_iff (cancellationType : String) (ps : List Parameter) :
    (∃ p ∈ payloadParameters ps cancellationType, p.name = "callback") ↔
      ∃ p ∈ withoutCancellation cancellationType ps, p.name = "callback" := by
  rw [← mem_payloadNames_iff cancellationType ps (by decide) (by decide), ← map_name_payloadParameters,
    List.mem_map]

theorem Thunk.handsOn_iff_declared {t : Thunk} {cancellationType : String} {ps : List Parameter}
    (own : t.parameters = payloadParameters ps cancellationType) (held : t.callbackVariable = "callback") :
    (t.HandsOn ↔ ∀ p ∈ t.parameters, p.name ≠ t.callbackVariable) ∧
      (t.HandsOn ↔ ∀ p ∈ withoutCancellation cancellationType ps, p.name ≠ "callback") := by
  have distinct : (t.parameters.map (·.name)).Nodup := own ▸ nodup_name_payloadParameters ..
  have fresh : t.HandsOn ↔ ∀ p ∈ t.parameters, p.name ≠ t.callbackVariable := handsOn_iff distinct
  refine ⟨fresh, fresh.trans ?_⟩
  have declared := not_congr (exists_callback_iff cancellationType ps)
  rw [own, held]
  simpa only [not_exists, not_and] using declared

-- A desk whose event has a callback to ring back.
def reception : Contract where
  name := "IDesk"
  uri := "desk"
  methods := [{ name := "Rung", parameters := [⟨"callback", "str"⟩] }]

-- A client with something in the slot for that.
def receptionClient : Endpoint where
  blueprint := ⟨"", []⟩
  fields := [("on_rung", .callback { label := some "listener", answer := fun _ => .ok .null })]

end HubContract.Source
