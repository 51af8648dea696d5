import AegisCognition.Lab.Transition

/-!
# State changes

Three writers append state changes to the log: typed methods, events that carry a digest
only, and records that carry a payload. The last two take the new state from the caller.
This module says which projected state changes are accepted, in terms of the controller
that the call finds, and what they do.
-/

namespace Aegis.Lab

open Foundation LabController Option
open Replay (Hash)

/-- A change of state that comes through the projection bridge: the event, the state text of
its payload if it has one, and the state that the caller names. -/
structure StateProjection where
  event : LabEvent
  text : Option String
  next : LabRunState

/-- The text under `state` in a payload. -/
def stateText (payload : Json) : Option String :=
  (payload.get? "state").bind Json.asStr

/-- The payload names some state, known or not. -/
def namesState (payload : Json) : Bool :=
  payload.asObject.any fun object => (nonEmpty object "state").toOption.isSome

namespace LabController

variable (externals : Externals) (c : LabController)

/-- The caller may name this state as the next one. -/
def mayProject (next : LabRunState) : Bool :=
  (c.runtime.state == next || c.runtime.state.canTransitionTo next) &&
    (next != .completed || goalCompletionEvidenceIsSuccessful externals c)

/-- The projected state change that the call makes, if it makes one. -/
def stateProjection : Call → Option StateProjection
  | .admitProjectionEvent event (some next) =>
      if event.kind = .stateChanged ∧ c.continuesLog externals event ∧
          c.mayProject externals next then
        some ⟨event, none, next⟩
      else none
  | .admitProjectionRecord event payloadJson (some next) =>
      (externals.fromStr payloadJson).bind fun payload =>
        if event.kind = .stateChanged ∧ c.continuesLog externals event ∧
            c.mayProject externals next ∧
            event.payloadHash = projectionPayloadHash externals payload ∧ namesState payload then
          some ⟨event, stateText payload, next⟩
        else none
  | _ => none

variable {externals c} {projection : StateProjection} {call : Call} {event : LabEvent}
variable {next : LabRunState} {payload : Json} {payloadJson : String}

theorem projectedState_stateChanged_ok_iff {projectionState : Option LabRunState} :
    c.projectedState externals .stateChanged projectionState = .ok next ↔
      projectionState = some next ∧ c.mayProject externals next = true := by
  simp only [projectedState, ne_eq, not_true_eq_false, if_false, bind_eq_ok_iff, okOr_eq_ok_iff,
    refuseWhen_eq_ok_iff, mayProject, Bool.and_eq_true, Bool.or_eq_true, beq_iff_eq,
    bne_iff_ne, ne_eq]
  constructor
  · rintro ⟨state, rfl, _, allowed, _, gate, h⟩
    cases h
    grind
  · rintro ⟨rfl, allowed, gate⟩
    exact ⟨next, rfl, (), by grind, (), by grind, rfl⟩

/-- The controller after a projected change of state. -/
def projectState (c : LabController) (projection : StateProjection) (payload : Option Json) :
    LabController :=
  { c with
    payloads := payload.elim c.payloads fun payload =>
      c.payloads.insert projection.event.sequence payload
    runtime := { c.runtime with
      state := projection.next
      stateEpoch := projection.event.stateEpoch
      events := c.runtime.events ++ [projection.event] } }

theorem continuesLog_sequence (h : c.continuesLog externals event = true) :
    event.sequence = c.runtime.events.length + 1 := by
  simp only [continuesLog, Bool.and_eq_true, beq_iff_eq] at h
  exact h.1.1.1

theorem method_admitProjectionEvent (kind : event.kind = .stateChanged)
    (continues : c.continuesLog externals event = true)
    (allowed : c.mayProject externals next = true) :
    admitProjectionEvent externals event (some next) c =
      .ok () (c.projectState ⟨event, none, next⟩ none) := by
  have fresh : ¬ (event.sequence = 1 ∧ c.runtime.events = [event]) := by
    rintro ⟨first, only⟩
    simp [continuesLog_sequence continues, only] at first
  have entered : c.projectedState externals event.kind (some next) = .ok next := by
    rw [kind]
    exact projectedState_stateChanged_ok_iff.mpr ⟨rfl, allowed⟩
  simp only [admitProjectionEvent, validateProjectionEvent, bind_ok_iff, get_ok_iff]
  refine ⟨c, c, ⟨rfl, rfl⟩, ?_⟩
  rw [if_neg fresh]
  simp only [bind_ok_iff, refuse_ok_iff, checked_ok_iff, set_ok_iff, modify_ok_iff,
    refuseWhen_eq_ok_iff]
  exact ⟨(), c, ⟨by simp [kind, needsPayload], rfl⟩, (), c, ⟨by simp [continues], rfl⟩, next, c,
    ⟨entered, rfl⟩, (), c.withState next, rfl, c.finalization, c.withState next,
    ⟨by simp [kind, projectedFinalization], rfl⟩, rfl⟩

theorem validateProjectionPayload_stateChanged (names : namesState payload = true) :
    validateProjectionPayload externals c .stateChanged payload = .ok c.index := by
  simp only [namesState, any_eq_true] at names
  obtain ⟨object, read, text⟩ := names
  obtain ⟨text, read_text⟩ := isSome_iff_exists.mp text
  have named : nonEmpty object "state" = .ok text := by
    cases h : nonEmpty object "state" with
    | ok value => simpa [h, Except.toOption] using read_text
    | error e => simp [h, Except.toOption] at read_text
  simp [validateProjectionPayload, read, named, okOr, bind, Except.bind, pure, Except.pure]

theorem validateProjectionBinding_stateChanged (kind : event.kind = .stateChanged)
    (names : namesState payload = true) :
    validateProjectionBinding externals c event payload = .ok none := by
  simp only [namesState, any_eq_true] at names
  obtain ⟨object, read, -⟩ := names
  simp [validateProjectionBinding, validateGoalEventBinding, isGoalBoundEventKind, kind, read,
    okOr, bind, Except.bind, pure, Except.pure]

theorem method_admitProjectionRecord (parsed : externals.fromStr payloadJson = some payload)
    (kind : event.kind = .stateChanged) (continues : c.continuesLog externals event = true)
    (allowed : c.mayProject externals next = true)
    (hashed : event.payloadHash = projectionPayloadHash externals payload)
    (names : namesState payload = true) :
    admitProjectionRecord externals event payloadJson (some next) c =
      .ok () (c.projectState ⟨event, stateText payload, next⟩ (some payload)) := by
  have entered : c.projectedState externals .stateChanged (some next) = .ok next :=
    projectedState_stateChanged_ok_iff.mpr ⟨rfl, allowed⟩
  have applied : c.admitProjectionRecordMut externals event payloadJson (some next) =
      .ok (c.projectState ⟨event, stateText payload, next⟩ (some payload)) := by
    simp only [admitProjectionRecordMut, validateProjectionEvent, bind_eq_ok_iff,
      refuseWhen_eq_ok_iff, okOr_eq_ok_iff]
    refine ⟨(), ?_, payload, parsed, (), by simp [hashed], (), by simp [continues], (), ?_, (), ?_,
      c.index, ?_, none, ?_, c, rfl, c.runtime, ?_, next, ?_, c.finalization, ?_, rfl⟩
    · simp [externalAttemptBudgetAllows, kind, isExternalAdmissionKind]
    · simp [kind]
    · simp [kind, projectionStateAllows]
    · rw [kind]
      exact validateProjectionPayload_stateChanged names
    · exact validateProjectionBinding_stateChanged kind names
    · rw [kind]
      rfl
    · rw [kind]
      exact entered
    · rw [kind]
      rfl
  simp only [admitProjectionRecord, bind_ok_iff, get_ok_iff, checked_ok_iff, set_ok_iff]
  exact ⟨c, c, ⟨rfl, rfl⟩, _, c, ⟨applied, rfl⟩, rfl⟩

/-- An accepted state projection moves the mission to the state that the caller names. -/
theorem method_of_stateProjection (h : c.stateProjection externals call = some projection) :
    ∃ payload : Option Json, projection.text = payload.bind stateText ∧
      method externals call c = .ok () (c.projectState projection payload) := by
  unfold stateProjection at h
  split at h
  · split at h
    · rename_i accepted
      obtain ⟨kind, continues, allowed⟩ := accepted
      cases h
      exact ⟨none, rfl, method_admitProjectionEvent kind continues allowed⟩
    · cases h
  · obtain ⟨payload, parsed, h⟩ := bind_eq_some_iff.mp h
    split at h
    · rename_i accepted
      obtain ⟨kind, continues, allowed, hashed, names⟩ := accepted
      cases h
      exact ⟨some payload, rfl,
        method_admitProjectionRecord parsed kind continues allowed hashed names⟩
    · cases h
  · cases h

theorem step_of_stateProjection (h : c.stateProjection externals call = some projection) :
    ∃ payload : Option Json, projection.text = payload.bind stateText ∧
      step externals c call = c.projectState projection payload := by
  obtain ⟨payload, text, done⟩ := method_of_stateProjection h
  exact ⟨payload, text, by simp [step, after, done]⟩

/-! The moves of the projection bridge that carry a state change are state projections. -/

theorem stateProjection_of_event {projectionState : Option LabRunState}
    (kind : event.kind = .stateChanged) (continues : c.continuesLog externals event = true)
    (entered : c.projectedState externals event.kind projectionState = .ok next) :
    c.stateProjection externals (.admitProjectionEvent event projectionState) =
      some ⟨event, none, next⟩ := by
  rw [kind] at entered
  obtain ⟨rfl, allowed⟩ := projectedState_stateChanged_ok_iff.mp entered
  simp [stateProjection, kind, continues, allowed]

end LabController

namespace Admission

variable {externals : Externals} {c : LabController} {event : LabEvent} {payload : Json}
variable {projectionState : Option LabRunState} {payloadJson : String}

section

variable (a : Admission externals c event payload projectionState)
include a

theorem namesState_of_stateChanged
    (kind : event.kind = .stateChanged) : namesState payload = true := by
  have indexed := a.indexed
  rw [kind, validateProjectionPayload] at indexed
  simp only [bind_eq_ok_iff, okOr_eq_ok_iff] at indexed
  obtain ⟨object, read, text, named, -⟩ := indexed
  simp [namesState, read, named, Except.toOption]

/-- A projected state change brings nothing but its state and its payload. -/
theorem eq_of_stateChanged
    (kind : event.kind = .stateChanged) :
    a.index = c.index ∧ a.binding = none ∧ a.runtime = c.runtime ∧
      a.finalization = c.finalization := by
  have names := a.namesState_of_stateChanged kind
  have indexed := a.indexed
  have bindings := a.bindings
  have synced := a.synced
  have finalized := a.finalized
  rw [validateProjectionBinding_stateChanged kind names] at bindings
  rw [kind] at indexed synced finalized
  rw [validateProjectionPayload_stateChanged names] at indexed
  exact ⟨(Except.ok.inj indexed).symm, (Except.ok.inj bindings).symm,
    (Except.ok.inj synced).symm, (Except.ok.inj finalized).symm⟩

theorem state_eq
    (kind : event.kind ≠ .stateChanged) : a.state = c.runtime.state := by
  have entered := a.entered
  rw [projectedState, if_pos kind] at entered
  exact (Except.ok.inj entered).symm.trans (syncProjectionRecordToRuntime_adds a.synced).state

theorem stateProjection
    (parsed : externals.fromStr payloadJson = some payload) (kind : event.kind = .stateChanged) :
    c.stateProjection externals (.admitProjectionRecord event payloadJson projectionState) =
      some ⟨event, stateText payload, a.state⟩ := by
  obtain ⟨index, binding, runtime, -⟩ := a.eq_of_stateChanged kind
  have entered := a.entered
  simp only [kind, index, binding, runtime, none_or] at entered
  obtain ⟨given, may⟩ := projectedState_stateChanged_ok_iff.mp entered
  have allowed : c.mayProject externals a.state = true := may
  have names := a.namesState_of_stateChanged kind
  have continues := a.continues
  have hashed := a.hashed
  generalize a.state = next at given allowed ⊢
  subst given
  simp [stateProjection, parsed, kind, continues, hashed, allowed, names]

end

end Admission

/-- Calls that move the mission on before they record are neither transitions nor state
projections. -/
theorem prepared_eq_or_typed (externals : Externals) (c : LabController) (call : Call) :
    prepared externals c call = c ∨
      (∀ d : LabController, d.stateProjection externals call = none) ∧
        ∀ next, call ≠ .transition next := by
  cases call with
  | recordSource source | scheduleExperiment experiment | reviewAndComplete =>
      exact .inr ⟨fun _ => rfl, nofun⟩
  | _ => exact .inl rfl

/-! ### New controllers -/

theorem LabController.new_ok {externals : Externals} {mission : LabMissionSpec}
    {start : LabController} (h : LabController.new externals mission = .ok start) :
    mission.validate externals = .ok () ∧
      ∃ budget, BudgetLedger.new mission.budgetPolicy = .ok budget ∧
        start =
          { runtime := LabRuntime.appendEvent externals .missionCreated
              (externals.canonicalHash (.mission mission))
              { mission, state := .planned, stateEpoch := 0, events := [], sources := ∅,
                claims := ∅, hypotheses := ∅, experiments := ∅, observations := ∅ }
            budget, finalization := .initial, steps := 0, index := .empty
            executionBinding := none, payloads := ∅ } := by
  simp only [LabController.new, LabRuntime.new, bind_eq_ok_iff, mapError_eq_ok_iff] at h
  obtain ⟨budget, funded, runtime, ⟨_, valid, h⟩, done⟩ := h
  cases h
  cases done
  exact ⟨valid, budget, funded, rfl⟩

/-- A mission without a goal contract, with a small budget of tokens. -/
def legacyMission : LabMissionSpec where
  missionId := "mission-1"
  objective := "test a hypothesis"
  scope := "local deterministic fixture"
  contractHash := Hash.fill 7
  budgetPolicy :=
    { total := .ofTokens 100, finalizationReserve := .ofTokens 20, recoveryReserve := .ofTokens 10 }
  requiredEvidence := true
  maxSteps := 20
  maxExternalAttempts := none
  schema := labSchema
  goalContractJson := none

/-- A new controller of a mission with the budget of the one above. -/
def smallStart (externals : Externals) (mission : LabMissionSpec) : LabController where
  runtime := LabRuntime.appendEvent externals .missionCreated
    (externals.canonicalHash (.mission mission))
    { mission, state := .planned, stateEpoch := 0, events := [], sources := ∅
      claims := ∅, hypotheses := ∅, experiments := ∅, observations := ∅ }
  budget :=
    { total := mission.budgetPolicy.total
      explorationRemaining := .ofTokens 70
      finalizationRemaining := mission.budgetPolicy.finalizationReserve
      recoveryRemaining := mission.budgetPolicy.recoveryReserve
      explorationSpent := .zero
      stateEpoch := 0 }
  finalization := .initial
  steps := 0
  index := .empty
  executionBinding := none
  payloads := ∅

def stateDigest : LabRunState → Hash
  | .planned => .ofNat 0x89f443fd861a57dedf8256b770487b8a93f526cead6e09f236ecd54d2e009593
  | .researching => .ofNat 0x6d0ad7809a081958752fd59a4596a76508fbacbb876f81a0ecb8661d51e7260c
  | .experimenting => .ofNat 0x74ca31ed1031228dfb4af413f78dd57ee7105d4e75d986c1dd6545b00448aab7
  | .reviewing => .ofNat 0x2102e81710121530f9983853093d6cceeb8dbf104300bcb22e4e76e73ab29987
  | .completed => .ofNat 0x15af6607ae2b33e4446ac16dd3442eb461848bb06df84d3cb00595b65aede8ac
  | .blocked => .ofNat 0x15c01c5a19ac3d31e110de63127d91805d120daccb67c348a79d7e2752e16775
  | .aborted => .ofNat 0x46f52c5903f9835ce40fcac8b398f2d466855a37b34ea468fa0ccdf433ea26fb

theorem stateDigest_injective : Function.Injective stateDigest := by
  intro a b
  cases a <;> cases b <;> decide +kernel

/-- The digests that a legacy mission meets on its way to a review, and that of a second
event whose payload digest has every byte 6. -/
def legacyExternals : Externals where
  fromStr _ := none
  canonicalHash
    | .state state => stateDigest state
    | .mission _ => .ofNat 0x87e9a74be9ad48fb07cc8bccca732c5a777d0371ced70cd2f6f742824271ba34
    | .event event =>
        match event.sequence with
        | 1 => .ofNat 0x2f881500be97336f3d1ce983048f13aba41b122db6e1c919483fa7e272b8f9f1
        | 2 =>
            if event.payloadHash = .fill 6 then
              .ofNat 0xbb7428a889d682c712c5ace3a508bf02f030d8905591dc4eed950114a8ec0489
            else .ofNat 0xac264947545235427d67afb3bcb76b388db34a7d8b32e8969f29cb3e0a336b55
        | 3 => .ofNat 0x3996fccf5a9ef8907ea6236b05eb30a21386a31cff1fd0a1afdf5a4f9340bd17
        | _ => .zero
    | _ => .zero
  projectionPayloadDigest _ := .zero
  goalContractDigest _ := .zero
  executionBindingDigest _ := .zero

theorem legacyMission_starts :
    ∃ start, LabController.new legacyExternals legacyMission = .ok start :=
  ⟨_, rfl⟩

def legacyCalls : List Call := [.transition .researching, .transition .reviewing]

end Aegis.Lab
