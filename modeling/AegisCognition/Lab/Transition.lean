import Mathlib.Logic.Relation
import AegisCognition.Lab.Controller

/-!
# What a call can do

Every call is a sequence of moves, and every move appends one event. A typed method that
finds the mission in an earlier state first moves it on and then records; no other call
makes two moves. A failed call makes none: every method is atomic.
-/

namespace Aegis.Lab

open Foundation LabRuntime LabController Option
open Replay (Hash)

/-! ### Typed methods -/

/-- A call that brings a typed record, accepted in the state that takes it, and the reducer
that holds the record. -/
inductive TypedRecord (r : LabRuntime) :
    Call → LabEventKind → Canonical → LabRuntime → Prop
  | source {source : SourceRecord} (state : r.state = .researching)
      (valid : source.validate = .ok ()) (fresh : source.sourceId ∉ r.sources) :
      TypedRecord r (.recordSource source) .sourceCaptured (.source source)
        { r with sources := r.sources.insert source.sourceId source }
  | claim {claim : ClaimRecord} (state : acceptsFindings r.state = true)
      (valid : claim.validate r.sources = .ok ()) (fresh : claim.claimId ∉ r.claims) :
      TypedRecord r (.recordClaim claim) .claimRecorded (.claim claim)
        { r with claims := r.claims.insert claim.claimId claim }
  | hypothesis {hypothesis : HypothesisRecord}
      (state : acceptsFindings r.state = true)
      (valid : hypothesis.validate r.claims = .ok ())
      (fresh : hypothesis.hypothesisId ∉ r.hypotheses) :
      TypedRecord r (.recordHypothesis hypothesis) .hypothesisRecorded (.hypothesis hypothesis)
        { r with hypotheses := r.hypotheses.insert hypothesis.hypothesisId hypothesis }
  | experiment {experiment : ExperimentSpec}
      (state : acceptsFindings r.state = true)
      (valid : experiment.validate r.hypotheses = .ok ())
      (fresh : experiment.experimentId ∉ r.experiments) :
      TypedRecord r (.scheduleExperiment experiment) .experimentScheduled (.experiment experiment)
        { r with experiments := r.experiments.insert experiment.experimentId experiment }
  | observation {observation : ObservationRecord}
      (state : r.state = .experimenting ∨ r.state = .reviewing)
      (valid : observation.validate r.experiments r.observations = .ok ())
      (fresh : observation.observationId ∉ r.observations) :
      TypedRecord r (.recordObservation observation) .observationRecorded (.observation observation)
        { r with observations := r.observations.insert observation.observationId observation }
  | researchProgram {receipt : ResearchProgramReceipt} (valid : receipt.validate = .ok ())
      (state : r.state ≠ .completed ∧ r.state ≠ .aborted) :
      TypedRecord r (.recordResearchProgram receipt) .researchProgramExecuted
        (.researchProgram receipt) r
  | securityEvent {event : SecurityEventRecord} (valid : event.validate = .ok ()) :
      TypedRecord r (.recordSecurityEvent event) .securityEventRecorded (.securityEvent event) r

/-- One valid record joins its table, or none does. -/
inductive AddsRecord (r : LabRuntime) : LabRuntime → Prop
  | none : AddsRecord r r
  | source {source : SourceRecord} (valid : source.validate = .ok ())
      (fresh : source.sourceId ∉ r.sources) :
      AddsRecord r { r with sources := r.sources.insert source.sourceId source }
  | claim {claim : ClaimRecord} (valid : claim.validate r.sources = .ok ())
      (fresh : claim.claimId ∉ r.claims) :
      AddsRecord r { r with claims := r.claims.insert claim.claimId claim }
  | hypothesis {hypothesis : HypothesisRecord} (valid : hypothesis.validate r.claims = .ok ())
      (fresh : hypothesis.hypothesisId ∉ r.hypotheses) :
      AddsRecord r { r with
        hypotheses := r.hypotheses.insert hypothesis.hypothesisId hypothesis }
  | experiment {experiment : ExperimentSpec} (valid : experiment.validate r.hypotheses = .ok ())
      (fresh : experiment.experimentId ∉ r.experiments) :
      AddsRecord r { r with
        experiments := r.experiments.insert experiment.experimentId experiment }
  | observation {observation : ObservationRecord}
      (valid : observation.validate r.experiments r.observations = .ok ())
      (fresh : observation.observationId ∉ r.observations) :
      AddsRecord r { r with
        observations := r.observations.insert observation.observationId observation }

namespace AddsRecord

variable {r s : LabRuntime}

theorem mission (h : AddsRecord r s) : s.mission = r.mission := by
  cases h <;> rfl

theorem state (h : AddsRecord r s) : s.state = r.state := by
  cases h <;> rfl

theorem stateEpoch (h : AddsRecord r s) : s.stateEpoch = r.stateEpoch := by
  cases h <;> rfl

theorem events (h : AddsRecord r s) : s.events = r.events := by
  cases h <;> rfl

end AddsRecord

theorem TypedRecord.adds {r s : LabRuntime} {call : Call} {kind : LabEventKind}
    {payload : Canonical} (h : TypedRecord r call kind payload s) : AddsRecord r s := by
  cases h with
  | source state valid fresh => exact .source valid fresh
  | claim state valid fresh => exact .claim valid fresh
  | hypothesis state valid fresh => exact .hypothesis valid fresh
  | experiment state valid fresh => exact .experiment valid fresh
  | observation state valid fresh => exact .observation valid fresh
  | researchProgram valid state => exact .none
  | securityEvent valid => exact .none

theorem syncProjectionRecordToRuntime_adds {r s : LabRuntime} {kind : LabEventKind}
    {payload : Json} (h : syncProjectionRecordToRuntime r kind payload = .ok s) :
    AddsRecord r s := by
  unfold syncProjectionRecordToRuntime at h
  split at h
  · obtain ⟨object, -, h⟩ := bind_eq_ok_iff.mp h
    unfold syncSource at h
    split at h
    · exact Except.ok.inj h ▸ .none
    · simp only [bind_eq_ok_iff, refuseWhen_eq_ok_iff] at h
      obtain ⟨source, -, _, valid, _, fresh, h⟩ := h
      exact Except.ok.inj h ▸ .source valid (by simpa using fresh)
  · obtain ⟨object, -, h⟩ := bind_eq_ok_iff.mp h
    obtain ⟨ids, -, h⟩ := bind_eq_ok_iff.mp h
    split at h
    · exact Except.ok.inj h ▸ .none
    · simp only [bind_eq_ok_iff, refuseWhen_eq_ok_iff] at h
      obtain ⟨claim, -, _, valid, _, fresh, h⟩ := h
      exact Except.ok.inj h ▸ .claim valid (by simpa using fresh)
  · obtain ⟨object, -, h⟩ := bind_eq_ok_iff.mp h
    unfold syncHypothesis at h
    split at h
    · exact Except.ok.inj h ▸ .none
    · simp only [bind_eq_ok_iff, refuseWhen_eq_ok_iff] at h
      obtain ⟨hypothesis, -, _, valid, _, fresh, h⟩ := h
      exact Except.ok.inj h ▸ .hypothesis valid (by simpa using fresh)
  · obtain ⟨object, -, h⟩ := bind_eq_ok_iff.mp h
    obtain ⟨id, -, h⟩ := bind_eq_ok_iff.mp h
    split at h
    · exact Except.ok.inj h ▸ .none
    · simp only [bind_eq_ok_iff, refuseWhen_eq_ok_iff] at h
      obtain ⟨experiment, -, _, valid, _, fresh, h⟩ := h
      exact Except.ok.inj h ▸ .experiment valid (by simpa using fresh)
  · obtain ⟨object, -, h⟩ := bind_eq_ok_iff.mp h
    obtain ⟨id, -, h⟩ := bind_eq_ok_iff.mp h
    split at h
    · exact Except.ok.inj h ▸ .none
    · split at h
      · exact Except.ok.inj h ▸ .none
      · simp only [bind_eq_ok_iff, refuseWhen_eq_ok_iff] at h
        obtain ⟨observation, -, _, valid, _, fresh, h⟩ := h
        exact Except.ok.inj h ▸ .observation valid (by simpa using fresh)
  · exact Except.ok.inj h ▸ .none

namespace LabRuntime

variable {externals : Externals} {r r' : LabRuntime} {next : LabRunState} {u : Unit} {e : LabError}

/-- The reducer after a typed change of its state. -/
def enter (externals : Externals) (next : LabRunState) (r : LabRuntime) : LabRuntime :=
  record externals .stateChanged (.state next) { r with state := next }

theorem transitionAfterCompletionGate_ok_iff :
    transitionAfterCompletionGate externals next r = .ok u r' ↔
      r.state = next ∧ r' = r ∨
        r.state ≠ next ∧ r.state.canTransitionTo next = true ∧ r' = enter externals next r := by
  simp only [transitionAfterCompletionGate, bind_ok_iff, get_ok_iff]
  constructor
  · rintro ⟨_, _, ⟨rfl, rfl⟩, h⟩
    split at h
    · rename_i same
      exact .inl ⟨same, (pure_ok_iff.mp h).2.symm⟩
    · rename_i other
      simp only [bind_ok_iff, refuse_ok_iff, set_ok_iff] at h
      obtain ⟨_, _, ⟨allowed, rfl⟩, rfl⟩ := h
      exact .inr ⟨other, by simpa using allowed, rfl⟩
  · rintro (⟨same, rfl⟩ | ⟨other, allowed, rfl⟩)
    · exact ⟨_, _, ⟨rfl, rfl⟩, by simp [same]⟩
    · exact ⟨_, _, ⟨rfl, rfl⟩, by simp [other, bind_ok_iff, allowed, enter]⟩

theorem transitionAfterCompletionGate_error_iff :
    transitionAfterCompletionGate externals next r = .error e r' ↔
      r.state ≠ next ∧ r.state.canTransitionTo next = false ∧ .invalidTransition = e ∧ r = r' := by
  simp only [transitionAfterCompletionGate, bind_error_iff, get_ne_error, false_or, get_ok_iff]
  constructor
  · rintro ⟨_, _, ⟨rfl, rfl⟩, h⟩
    split at h
    · simp at h
    · rename_i other
      simpa [bind_error_iff, other] using h
  · rintro ⟨other, refused, rfl, rfl⟩
    exact ⟨_, _, ⟨rfl, rfl⟩, by simp [bind_error_iff, other, refused]⟩

/-- The typed transition is the gated one, except that it never enters a contracted
`Completed`. -/
theorem transition_ok_iff :
    transition externals next r = .ok u r' ↔
      ¬ (next = .completed ∧ r.mission.goalContractJson.isSome) ∧
        transitionAfterCompletionGate externals next r = .ok u r' := by
  simp [transition, bind_ok_iff]

/-- The reducer records what the call brings. -/
def Records (externals : Externals) (r : LabRuntime) (call : Call) (r' : LabRuntime) : Prop :=
  ∃ kind payload held, TypedRecord r call kind payload held ∧
    r' = record externals kind payload held

theorem recordClaim_ok {claim : ClaimRecord} (h : recordClaim externals claim r = .ok u r') :
    Records externals r (.recordClaim claim) r' := by
  simp only [recordClaim, bind_ok_iff, get_ok_iff, refuse_ok_iff, checked_ok_iff, set_ok_iff] at h
  obtain ⟨_, _, ⟨rfl, rfl⟩, _, _, ⟨state, rfl⟩, _, _, ⟨valid, rfl⟩, _, _, ⟨fresh, rfl⟩, rfl⟩ := h
  exact ⟨_, _, _, .claim (by simpa using state) valid (by simpa using fresh), rfl⟩

theorem recordHypothesis_ok {hypothesis : HypothesisRecord}
    (h : recordHypothesis externals hypothesis r = .ok u r') :
    Records externals r (.recordHypothesis hypothesis) r' := by
  simp only [recordHypothesis, bind_ok_iff, get_ok_iff, refuse_ok_iff, checked_ok_iff,
    set_ok_iff] at h
  obtain ⟨_, _, ⟨rfl, rfl⟩, _, _, ⟨state, rfl⟩, _, _, ⟨valid, rfl⟩, _, _, ⟨fresh, rfl⟩, rfl⟩ := h
  exact ⟨_, _, _, .hypothesis (by simpa using state) valid (by simpa using fresh), rfl⟩

theorem recordObservation_ok {observation : ObservationRecord}
    (h : recordObservation externals observation r = .ok u r') :
    Records externals r (.recordObservation observation) r' := by
  simp only [recordObservation, bind_ok_iff, get_ok_iff, refuse_ok_iff, checked_ok_iff,
    set_ok_iff] at h
  obtain ⟨_, _, ⟨rfl, rfl⟩, _, _, ⟨state, rfl⟩, _, _, ⟨valid, rfl⟩, _, _, ⟨fresh, rfl⟩, rfl⟩ := h
  refine ⟨_, _, _, .observation ?_ valid (by simpa using fresh), rfl⟩
  cases hs : r.state <;> simp_all

theorem recordResearchProgram_ok {receipt : ResearchProgramReceipt}
    (h : recordResearchProgram externals receipt r = .ok u r') :
    Records externals r (.recordResearchProgram receipt) r' := by
  simp only [recordResearchProgram, bind_ok_iff, get_ok_iff, refuse_ok_iff, checked_ok_iff,
    set_ok_iff] at h
  obtain ⟨_, _, ⟨rfl, rfl⟩, _, _, ⟨state, rfl⟩, _, _, ⟨valid, rfl⟩, rfl⟩ := h
  exact ⟨_, _, _, .researchProgram valid (not_or.mp state), rfl⟩

theorem recordSecurityEvent_ok {event : SecurityEventRecord}
    (h : recordSecurityEvent externals event r = .ok u r') :
    Records externals r (.recordSecurityEvent event) r' := by
  simp only [recordSecurityEvent, bind_ok_iff, get_ok_iff, refuse_ok_iff, checked_ok_iff,
    set_ok_iff] at h
  obtain ⟨_, _, ⟨rfl, rfl⟩, _, _, ⟨-, rfl⟩, _, _, ⟨valid, rfl⟩, rfl⟩ := h
  exact ⟨_, _, _, .securityEvent valid, rfl⟩

/-- The reducer in which a planned mission has been moved on before the record. -/
def started (externals : Externals) (first second : LabRunState) (r : LabRuntime) : LabRuntime :=
  if r.state = first then enter externals second r else r

theorem recordSource_ok {source : SourceRecord}
    (h : recordSource externals source r = .ok u r') :
    Records externals (started externals .planned .researching r) (.recordSource source) r' := by
  simp only [recordSource, bind_ok_iff, get_ok_iff, refuse_ok_iff, checked_ok_iff, set_ok_iff] at h
  obtain ⟨_, _, ⟨rfl, rfl⟩, _, _, ⟨state, rfl⟩, _, _, ⟨valid, rfl⟩, _, _, ⟨fresh, rfl⟩, _, _, rfl,
    h⟩ := h
  by_cases planned : r.state = .planned
  · simp only [planned, if_true, bind_ok_iff, transition_ok_iff,
      transitionAfterCompletionGate_ok_iff, modify_ok_iff] at h
    obtain ⟨_, _, ⟨-, ⟨⟨⟩, -⟩ | ⟨-, -, rfl⟩⟩, rfl⟩ := h
    refine ⟨_, _, _, .source ?_ valid ?_, ?_⟩
    · simp [started, planned, enter, record, appendEvent]
    · simpa [started, planned, enter, record, appendEvent] using fresh
    · simp [started, planned, enter, record, appendEvent]
  · simp only [planned, if_false, modify_ok_iff] at h
    obtain rfl := h
    refine ⟨_, _, _, .source ?_ valid ?_, ?_⟩
    · simpa [started, planned] using state
    · simpa [started, planned] using fresh
    · simp [started, planned]

theorem scheduleExperiment_ok {experiment : ExperimentSpec}
    (h : scheduleExperiment externals experiment r = .ok u r') :
    Records externals (started externals .researching .experimenting r)
      (.scheduleExperiment experiment) r' := by
  simp only [scheduleExperiment, bind_ok_iff, get_ok_iff, refuse_ok_iff, checked_ok_iff,
    set_ok_iff] at h
  obtain ⟨_, _, ⟨rfl, rfl⟩, _, _, ⟨state, rfl⟩, _, _, ⟨valid, rfl⟩, _, _, ⟨fresh, rfl⟩, _, _, rfl,
    h⟩ := h
  by_cases researching : r.state = .researching
  · simp only [researching, if_true, bind_ok_iff, transition_ok_iff,
      transitionAfterCompletionGate_ok_iff, modify_ok_iff] at h
    obtain ⟨_, _, ⟨-, ⟨⟨⟩, -⟩ | ⟨-, -, rfl⟩⟩, rfl⟩ := h
    refine ⟨_, _, _, .experiment ?_ ?_ ?_, ?_⟩
    · simp [started, researching, enter, record, appendEvent, acceptsFindings]
    · simpa [started, researching, enter, record, appendEvent] using valid
    · simpa [started, researching, enter, record, appendEvent] using fresh
    · simp [started, researching, enter, record, appendEvent]
  · simp only [researching, if_false, modify_ok_iff] at h
    obtain rfl := h
    refine ⟨_, _, _, .experiment ?_ ?_ ?_, ?_⟩
    · simpa [started, researching] using state
    · simpa [started, researching] using valid
    · simpa [started, researching] using fresh
    · simp [started, researching]

/-! Failures of typed methods leave the reducer alone. -/

theorem atomic_transitionAfterCompletionGate :
    Atomic (transitionAfterCompletionGate externals next) :=
  fun _ _ _ h => (transitionAfterCompletionGate_error_iff.mp h).2.2.2.symm

theorem atomic_transition : Atomic (transition externals next) :=
  Reads.get.bind fun _ => Reads.refuse.bind fun _ => atomic_transitionAfterCompletionGate

/-- A mission in this state can always be moved on, so the record behind it cannot fail. -/
theorem transition_ne_error (state : r.state.canTransitionTo next = true)
    (h : next ≠ .completed) : transition externals next r ≠ .error e r' := by
  intro failed
  simp only [transition, bind_error_iff, h] at failed
  have refused := (transitionAfterCompletionGate_error_iff.mp (by simpa using failed)).2.1
  rw [state] at refused
  cases refused

theorem moveOn_ne_error {first second state : LabRunState} {g : LabRuntime → LabRuntime}
    (same : r.state = state) (allowed : first.canTransitionTo second = true)
    (h : second ≠ .completed) :
    (if state = first then do
        transition externals second
        modify g
      else modify g : RuntimeUpdate) r ≠ .error e r' := by
  subst same
  split
  · rename_i here
    intro failed
    obtain failed | ⟨_, _, _, failed⟩ := bind_error_iff.mp failed
    · exact transition_ne_error (here ▸ allowed) h failed
    · exact modify_ne_error failed
  · exact modify_ne_error

/-- The two methods that may move the mission on: once the checks are over, they succeed. -/
theorem atomic_set_moveOn {first second : LabRunState} {g : LabRuntime → LabRuntime}
    (held : LabRuntime) (allowed : first.canTransitionTo second = true)
    (h : second ≠ .completed) :
    Atomic (do
      set held
      if held.state = first then
        transition externals second
      modify g : RuntimeUpdate) := by
  intro r e r' failed
  obtain failed | ⟨_, _, written, failed⟩ := bind_error_iff.mp failed
  · exact absurd failed set_ne_error
  · obtain rfl := set_ok_iff.mp written
    exact absurd failed (moveOn_ne_error rfl allowed h)

/-- The states from which a review can be entered lead on to `Completed`. -/
theorem reviewAndCompleteAfterCompletionGate_ok
    (h : reviewAndCompleteAfterCompletionGate externals r = .ok u r') :
    r.isIncomplete = false ∧
      (r.state = .reviewing ∧ r' = enter externals .completed r ∨
        r.state ≠ .reviewing ∧ r.state.canTransitionTo .reviewing = true ∧
          r' = enter externals .completed (enter externals .reviewing r)) := by
  simp only [reviewAndCompleteAfterCompletionGate, bind_ok_iff, get_ok_iff, refuse_ok_iff] at h
  obtain ⟨_, _, ⟨rfl, rfl⟩, _, _, ⟨complete, rfl⟩, h⟩ := h
  refine ⟨by simpa using complete, ?_⟩
  by_cases reviewing : r.state = .reviewing
  · simp only [reviewing, ne_eq, not_true_eq_false, if_false,
      transitionAfterCompletionGate_ok_iff] at h
    obtain ⟨⟨⟩, -⟩ | ⟨-, -, rfl⟩ := h
    exact .inl ⟨reviewing, rfl⟩
  · simp only [ne_eq, reviewing, not_false_eq_true, if_true, bind_ok_iff, transition_ok_iff,
      transitionAfterCompletionGate_ok_iff] at h
    obtain ⟨_, _, ⟨-, h | ⟨-, allowed, rfl⟩⟩, done⟩ := h
    · exact h.1.elim
    · obtain ⟨⟨⟩, -⟩ | ⟨-, -, rfl⟩ := done
      exact .inr ⟨reviewing, allowed, rfl⟩

theorem atomic_reviewAndCompleteAfterCompletionGate :
    Atomic (reviewAndCompleteAfterCompletionGate externals) := by
  refine Reads.get.bind fun r => Reads.refuse.bind fun _ => ?_
  split
  · intro s e t failed
    obtain failed | ⟨_, _, moved, failed⟩ := bind_error_iff.mp failed
    · exact atomic_transition s e t failed
    · -- From `Reviewing` the last step cannot fail.
      have last := transitionAfterCompletionGate_error_iff.mp failed
      obtain ⟨-, ⟨here, rfl⟩ | ⟨-, -, rfl⟩⟩ := by
        simpa only [transition_ok_iff, transitionAfterCompletionGate_ok_iff] using moved
      · rw [here] at last
        cases last.2.1
      · cases last.2.1
  · exact atomic_transitionAfterCompletionGate

end LabRuntime

/-! ### Projected records -/

/-- What an accepted projected record brings with it. -/
structure Admission (externals : Externals) (c : LabController) (event : LabEvent)
    (payload : Json) (projectionState : Option LabRunState) where
  index : ProjectionIndex
  binding : Option ProjectionExecutionBinding
  runtime : LabRuntime
  state : LabRunState
  finalization : FinalizationBoundary
  budgetAllows : c.externalAttemptBudgetAllows event.kind = true
  hashed : event.payloadHash = projectionPayloadHash externals payload
  continues : c.continuesLog externals event = true
  reviewing : c.mission.goalContractJson.isSome → event.kind = .reviewRecorded →
    isGoalVerification payload = true → c.runtime.state = .reviewing
  allows : projectionStateAllows c.runtime.state event.kind = true
  indexed : validateProjectionPayload externals c event.kind payload = .ok index
  bindings : validateProjectionBinding externals { c with index } event payload = .ok binding
  agrees : ∀ new ∈ binding, ∀ old ∈ c.executionBinding, old = new
  synced : syncProjectionRecordToRuntime c.runtime event.kind payload = .ok runtime
  entered : projectedState externals
    { c with index, executionBinding := binding.or c.executionBinding, runtime } event.kind
    projectionState = .ok state
  finalized : projectedFinalization c.finalization event.kind = .ok finalization

namespace Admission

variable {externals : Externals} {c : LabController} {event : LabEvent} {payload : Json}
variable {projectionState : Option LabRunState}

/-- The controller that retains the record. -/
def result (a : Admission externals c event payload projectionState) : LabController :=
  { c with
    index := a.index
    executionBinding := a.binding.or c.executionBinding
    finalization := a.finalization
    payloads := c.payloads.insert event.sequence payload
    runtime := { a.runtime with
      state := a.state, stateEpoch := event.stateEpoch, events := a.runtime.events ++ [event] } }

end Admission

namespace LabController

variable {externals : Externals} {c d : LabController} {event : LabEvent} {payloadJson : String}
variable {projectionState : Option LabRunState} {binding : Option ProjectionExecutionBinding}

theorem bindExecution_ok (h : c.bindExecution binding = .ok d) :
    d = { c with executionBinding := binding.or c.executionBinding } ∧
      ∀ new ∈ binding, ∀ old ∈ c.executionBinding, old = new := by
  unfold bindExecution at h
  split at h
  · cases h
    simp
  · rename_i absent
    cases h
    simp [absent]
  · rename_i new old present
    simp only [bind_eq_ok_iff, refuseWhen_eq_ok_iff, ne_eq, not_not] at h
    obtain ⟨_, rfl, h⟩ := h
    cases h
    refine ⟨?_, by simp [present]⟩
    cases c
    simp_all

theorem admitProjectionRecordMut_ok
    (h : c.admitProjectionRecordMut externals event payloadJson projectionState = .ok d) :
    ∃ payload, externals.fromStr payloadJson = some payload ∧
      ∃ a : Admission externals c event payload projectionState, d = a.result := by
  simp only [admitProjectionRecordMut, validateProjectionEvent, bind_eq_ok_iff,
    refuseWhen_eq_ok_iff, okOr_eq_ok_iff] at h
  obtain ⟨_, allowed, payload, parsed, _, hashed, _, continues, _, reviewing, _, allows, index,
    indexed, binding, bindings, bound, binds, runtime, synced, state, entered, finalization,
    finalized, h⟩ := h
  obtain ⟨rfl, agrees⟩ := bindExecution_ok binds
  cases h
  refine ⟨payload, parsed, ⟨index, binding, runtime, state, finalization, by simpa using allowed,
    by simpa using hashed, by simpa using continues, ?_, by simpa using allows, indexed, bindings,
    agrees, synced, entered, finalized⟩, rfl⟩
  intro contract kind verification
  simpa [contract, kind, verification] using reviewing

end LabController

/-! ### Completion evidence -/

variable {externals : Externals} {c d : LabController} {event : LabEvent} {payload : Json}

/-- The last goal verification of the log was recorded while reviewing and still holds. A
mission without a contract needs none. -/
def HasCompletionEvidence (externals : Externals) (c : LabController) : Prop :=
  c.mission.goalContractJson = none ∨
    ∃ event payload, lastGoalVerification c = some (event, payload) ∧
      goalVerificationWasRecordedWhileReviewing externals c event.sequence = true ∧
      goalVerificationHolds externals c event payload = true

theorem hasCompletionEvidence_of_gate
    (h : goalCompletionEvidenceIsSuccessful externals c = true) :
    HasCompletionEvidence externals c := by
  simp only [goalCompletionEvidenceIsSuccessful, Bool.or_eq_true, isNone_iff_eq_none,
    any_eq_true, Bool.and_eq_true] at h
  obtain h | ⟨⟨event, payload⟩, last, ⟨-, reviewing⟩, holds⟩ := h
  · exact .inl h
  · exact .inr ⟨event, payload, last, reviewing, holds⟩

theorem gate_of_hasCompletionEvidence (h : HasCompletionEvidence externals c)
    (state : c.runtime.state ≠ .completed) :
    goalCompletionEvidenceIsSuccessful externals c = true := by
  simp only [goalCompletionEvidenceIsSuccessful, Bool.or_eq_true, isNone_iff_eq_none,
    any_eq_true, Bool.and_eq_true]
  obtain h | ⟨event, payload, last, reviewing, holds⟩ := h
  · exact .inl h
  · refine .inr ⟨(event, payload), last, ⟨?_, reviewing⟩, holds⟩
    simp [precedesCompletion, state]

theorem lastGoalVerification_mem (h : lastGoalVerification c = some (event, payload)) :
    event ∈ c.runtime.events ∧ goalVerificationPayload c event = some payload := by
  obtain ⟨found, mem, h⟩ := List.exists_of_findSome?_eq_some h
  obtain ⟨value, read, same⟩ := map_eq_some_iff.mp h
  cases same
  exact ⟨List.mem_reverse.mp mem, read⟩

theorem goalVerificationPayload_eq_some_iff :
    goalVerificationPayload c event = some payload ↔
      event.kind = .reviewRecorded ∧ c.payloads[event.sequence]? = some payload ∧
        isGoalVerification payload = true := by
  unfold goalVerificationPayload
  split
  · simp_all
  · rename_i kind
    simp [not_not.mp kind, filter_eq_some_iff]

/-- `d` retains the evidence that `c` retains, for the same mission. -/
structure SameEvidence (c d : LabController) : Prop where
  mission : d.mission = c.mission
  index : d.index = c.index
  sources : d.runtime.sources = c.runtime.sources
  claims : d.runtime.claims = c.runtime.claims
  hypotheses : d.runtime.hypotheses = c.runtime.hypotheses
  experiments : d.runtime.experiments = c.runtime.experiments
  observations : d.runtime.observations = c.runtime.observations

namespace SameEvidence

theorem knowsSource (h : SameEvidence c d) : d.knowsSource = c.knowsSource := by
  funext id
  simp only [LabController.knowsSource, h.index, h.sources]

theorem retains (h : SameEvidence c d) : d.retains = c.retains := by
  funext id
  simp only [LabController.retains, LabController.knowsSource, LabController.knowsClaim,
    LabController.knowsHypothesis, LabController.knowsExperiment, LabController.knowsObservation,
    h.index, h.sources, h.claims, h.hypotheses, h.experiments, h.observations]

theorem validateGoalVerificationRecord (h : SameEvidence c d) (object : JsonObject) :
    Lab.validateGoalVerificationRecord externals d object =
      Lab.validateGoalVerificationRecord externals c object := by
  have types : d.retainsRecordType = c.retainsRecordType := by
    funext type
    simp only [LabController.retainsRecordType, h.index, h.sources, h.claims, h.hypotheses,
      h.experiments, h.observations]
  simp only [Lab.validateGoalVerificationRecord, validateGoalVerificationContract, h.mission,
    h.retains, h.knowsSource, types]

end SameEvidence

/-- The log of `d` is the log of `c` and one more event that neither carries a manifest nor
is bound to the goal; everything else that the gate reads is the same. -/
structure AddsPlainEvent (c d : LabController) (event : LabEvent) : Prop
    extends SameEvidence c d where
  binding : d.executionBinding = c.executionBinding
  payloads : d.payloads = c.payloads
  events : d.runtime.events = c.runtime.events ++ [event]
  unbound : isGoalBoundEventKind event.kind = false
  plain : event.kind ≠ .executionCellManifestRecorded

namespace AddsPlainEvent

section

variable (h : AddsPlainEvent c d event)
include h

theorem manifestPayloads :
    d.manifestPayloads = c.manifestPayloads := by
  simp [LabController.manifestPayloads, h.events, h.payloads, h.plain]

theorem hasUnboundPayload :
    d.hasUnboundPayload = c.hasUnboundPayload := by
  simp [LabController.hasUnboundPayload, h.events, h.payloads, h.unbound]

theorem effectIsDeclared :
    Lab.effectIsDeclared d = Lab.effectIsDeclared c := by
  funext target object
  unfold Lab.effectIsDeclared managedInternalEffectRegistered
  rw [h.payloads]

theorem validateExecutionBinding :
    Lab.validateExecutionBinding externals d = Lab.validateExecutionBinding externals c := by
  funext goal manifestHash raw
  unfold Lab.validateExecutionBinding
  rw [h.mission, h.binding, h.manifestPayloads, h.hasUnboundPayload]

theorem validateGoalEventBinding :
    Lab.validateGoalEventBinding externals d = Lab.validateGoalEventBinding externals c := by
  funext kind object
  unfold Lab.validateGoalEventBinding projectionExecutionCellManifestHash
  rw [h.mission, h.binding, h.manifestPayloads, h.validateExecutionBinding, h.effectIsDeclared]

theorem validateProjectionBinding {other : LabEvent}
    (kind : other.kind = .reviewRecorded) :
    Lab.validateProjectionBinding externals d other payload =
      Lab.validateProjectionBinding externals c other payload := by
  simp only [Lab.validateProjectionBinding, kind, h.validateGoalEventBinding]

theorem lastGoalVerification :
    Lab.lastGoalVerification d = Lab.lastGoalVerification c := by
  have other : event.kind ≠ .reviewRecorded := by
    intro kind
    have := h.unbound
    simp [kind, isGoalBoundEventKind] at this
  simp [Lab.lastGoalVerification, h.events, goalVerificationPayload, h.payloads, other]

theorem recordedWhileReviewing {other : LabEvent}
    (mem : other ∈ c.runtime.events) :
    goalVerificationWasRecordedWhileReviewing externals d other.sequence =
      goalVerificationWasRecordedWhileReviewing externals c other.sequence := by
  have read : followLoggedState externals d = followLoggedState externals c := by
    funext state event
    simp only [followLoggedState, loggedState, projectedStateText, h.payloads]
  -- The reading stops at the verification itself, so a longer log reads the same.
  rw [goalVerificationWasRecordedWhileReviewing, goalVerificationWasRecordedWhileReviewing,
    h.events, takeWhile_append_of_stop mem (by simp), read]

theorem hasCompletionEvidence
    (evidence : HasCompletionEvidence externals c) : HasCompletionEvidence externals d := by
  obtain none | ⟨other, payload, last, reviewing, holds⟩ := evidence
  · exact .inl (h.mission ▸ none)
  · obtain ⟨mem, read⟩ := lastGoalVerification_mem last
    have kind := (goalVerificationPayload_eq_some_iff.mp read).1
    refine .inr ⟨other, payload, h.lastGoalVerification ▸ last, ?_, ?_⟩
    · rw [h.recordedWhileReviewing mem]
      exact reviewing
    · simpa only [goalVerificationHolds, h.toSameEvidence.validateGoalVerificationRecord,
        h.validateProjectionBinding kind] using holds

end

end AddsPlainEvent

/-! ### Moves -/

/-- The call enters this state by a typed state change. -/
inductive Enters : Call → LabRunState → Prop
  | transition {next : LabRunState} : Enters (.transition next) next
  | review : Enters .reviewAndComplete .reviewing
  | complete : Enters .reviewAndComplete .completed
  | research {source : SourceRecord} : Enters (.recordSource source) .researching
  | experiment {experiment : ExperimentSpec} :
      Enters (.scheduleExperiment experiment) .experimenting

/-- One change that a call makes to the controller, together with the event it appends. -/
inductive Move (externals : Externals) : Call → LabController → LabController → Prop
  | entered {call : Call} {c : LabController} {next : LabRunState} (label : Enters call next)
      (other : c.runtime.state ≠ next) (allowed : c.runtime.state.canTransitionTo next = true)
      (evidence : next = .completed → HasCompletionEvidence externals c)
      (complete : call = .reviewAndComplete → c.runtime.isIncomplete = false) :
      Move externals call c { c with runtime := LabRuntime.enter externals next c.runtime }
  | recorded {call : Call} {c : LabController} {kind : LabEventKind} {payload : Canonical}
      {runtime : LabRuntime} (typed : TypedRecord c.runtime call kind payload runtime) :
      Move externals call c
        { c with runtime := LabRuntime.record externals kind payload runtime }
  | explored {c : LabController} {epoch : UInt64} {spend : BudgetVector} {budget : BudgetLedger}
      (explores : c.explores = true) (consumed : c.budget.consumeExploration spend = .ok budget) :
      Move externals (.admitExploration epoch spend) c
        { c with
          budget, steps := saturatingAdd u32Max c.steps 1
          runtime := c.runtime.recordBudgetAdmitted externals spend }
  | finalizing {c : LabController} {finalization : FinalizationBoundary} :
      Move externals .beginFinalization c
        { c with
          finalization
          runtime := c.runtime.recordFinalizationEvent externals .finalizationStarted }
  | reopened {c : LabController} {finalization : FinalizationBoundary} :
      Move externals .reopenForCriticalGap c
        { c with
          finalization
          runtime := c.runtime.recordFinalizationEvent externals .finalizationReopened }
  | projectedExploration {c : LabController} {epoch : UInt64} {spend : BudgetVector}
      {budget : BudgetLedger} {event : LabEvent} (kind : event.kind = .budgetAdmitted)
      (continues : c.continuesLog externals event = true) (explores : c.explores = true)
      (consumed : c.budget.consumeExploration spend = .ok budget) :
      Move externals (.admitProjectionExploration epoch spend event) c
        (LabController.retain { c with budget, steps := saturatingAdd u32Max c.steps 1 } event)
  | projectedEvent {c : LabController} {event : LabEvent} {projectionState : Option LabRunState}
      {state : LabRunState} {finalization : FinalizationBoundary}
      (plain : needsPayload event.kind = false)
      (continues : c.continuesLog externals event = true)
      (next : c.projectedState externals event.kind projectionState = .ok state) :
      Move externals (.admitProjectionEvent event projectionState) c
        (LabController.retain { c.withState state with finalization } event)
  | projectedRecord {c : LabController} {event : LabEvent} {payloadJson : String}
      {payload : Json} {projectionState : Option LabRunState}
      (parsed : externals.fromStr payloadJson = some payload)
      (admission : Admission externals c event payload projectionState) :
      Move externals (.admitProjectionRecord event payloadJson projectionState) c admission.result

/-- The controller as a call finds it after moving the mission on to the state it needs. -/
def prepared (externals : Externals) (c : LabController) (call : Call) : LabController :=
  match call with
  | .recordSource _ =>
      { c with runtime := LabRuntime.started externals .planned .researching c.runtime }
  | .scheduleExperiment _ =>
      { c with runtime := LabRuntime.started externals .researching .experimenting c.runtime }
  | .reviewAndComplete =>
      if c.runtime.state = .reviewing then c else
        { c with runtime := LabRuntime.enter externals .reviewing c.runtime }
  | _ => c

/-- An accepted call changes nothing or makes one or two moves. -/
structure Performed (externals : Externals) (c : LabController) (call : Call) (d : LabController) :
    Prop where
  first : prepared externals c call = c ∨ Move externals call c (prepared externals c call)
  second : d = prepared externals c call ∨ Move externals call (prepared externals c call) d

section Calls

variable {call : Call} {u : Unit}

theorem onRuntime_ok_iff {update : RuntimeUpdate} :
    onRuntime update c = .ok u d ↔
      ∃ runtime, update c.runtime = .ok u runtime ∧ d = { c with runtime } :=
  zoom_ok_iff

theorem Performed.of_move (same : prepared externals c call = c) (move : Move externals call c d) :
    Performed externals c call d :=
  ⟨.inl same, .inr (same.symm ▸ move)⟩

theorem Performed.of_idle (same : prepared externals c call = c) :
    Performed externals c call c :=
  ⟨.inl same, .inl same.symm⟩

theorem performed_transition {next : LabRunState}
    (h : LabController.transition externals next c = .ok u d) :
    Performed externals c (.transition next) d := by
  simp only [LabController.transition, bind_ok_iff, get_ok_iff] at h
  obtain ⟨_, _, ⟨rfl, rfl⟩, h⟩ := h
  split at h
  · rename_i completed
    simp only [bind_ok_iff, refuse_ok_iff, onRuntime_ok_iff,
      transitionAfterCompletionGate_ok_iff] at h
    obtain ⟨_, _, ⟨gate, rfl⟩, _, ⟨-, rfl⟩ | ⟨other, allowed, rfl⟩, rfl⟩ := h
    · exact .of_idle rfl
    · refine .of_move rfl (.entered .transition other allowed (fun _ => ?_)
        fun review => by cases review)
      exact hasCompletionEvidence_of_gate (by simpa using gate)
  · rename_i open_
    simp only [onRuntime_ok_iff, transition_ok_iff, transitionAfterCompletionGate_ok_iff] at h
    obtain ⟨_, ⟨-, ⟨-, rfl⟩ | ⟨other, allowed, rfl⟩⟩, rfl⟩ := h
    · exact .of_idle rfl
    · exact .of_move rfl (.entered .transition other allowed
        (fun completed => absurd completed open_) fun review => by cases review)

theorem performed_reviewAndComplete (h : reviewAndComplete externals c = .ok u d) :
    Performed externals c .reviewAndComplete d := by
  simp only [reviewAndComplete, bind_ok_iff, get_ok_iff, refuse_ok_iff, onRuntime_ok_iff] at h
  obtain ⟨_, _, ⟨rfl, rfl⟩, _, _, ⟨gate, rfl⟩, _, _, ⟨-, rfl⟩, runtime, done, rfl⟩ := h
  have evidence : HasCompletionEvidence externals c :=
    hasCompletionEvidence_of_gate (by simpa using gate)
  obtain ⟨complete, ⟨state, rfl⟩ | ⟨state, allowed, rfl⟩⟩ :=
    reviewAndCompleteAfterCompletionGate_ok done
  · refine .of_move (by simp [prepared, state]) (.entered .complete ?_ ?_ (fun _ => evidence)
      fun _ => complete)
    · simp [state]
    · simp [state, LabRunState.canTransitionTo]
  · have prep : prepared externals c .reviewAndComplete =
        { c with runtime := LabRuntime.enter externals .reviewing c.runtime } := by
      simp [prepared, state]
    refine ⟨.inr ?_, .inr ?_⟩ <;> rw [prep]
    · exact .entered .review state allowed (fun same => by cases same) fun _ => complete
    · refine .entered .complete (fun same => by cases same) rfl (fun _ => ?_) fun _ => complete
      have grown : (LabRuntime.enter externals .reviewing c.runtime).events =
        c.runtime.events ++ [_] := rfl
      exact AddsPlainEvent.hasCompletionEvidence (c := c)
        ⟨⟨rfl, rfl, rfl, rfl, rfl, rfl, rfl⟩, rfl, rfl, grown, rfl, fun kind => by cases kind⟩
        evidence

theorem performed_started {first second : LabRunState} (enters : Enters call second)
    (prep : prepared externals c call =
      { c with runtime := LabRuntime.started externals first second c.runtime })
    (other : first ≠ second) (allowed : first.canTransitionTo second = true)
    (early : second ≠ .completed) (notReview : call ≠ .reviewAndComplete) {update : RuntimeUpdate}
    (h : onRuntime update c = .ok u d) (records : ∀ {r'}, update c.runtime = .ok u r' →
      LabRuntime.Records externals (.started externals first second c.runtime) call r') :
    Performed externals c call d := by
  obtain ⟨runtime, done, rfl⟩ := onRuntime_ok_iff.mp h
  obtain ⟨kind, payload, held, typed, rfl⟩ := records done
  refine ⟨?_, .inr ?_⟩ <;> rw [prep]
  · by_cases here : c.runtime.state = first
    · refine .inr ?_
      rw [LabRuntime.started, if_pos here]
      exact .entered enters (here ▸ other) (here ▸ allowed) (fun h => absurd h early)
        fun h => absurd h notReview
    · left
      rw [LabRuntime.started, if_neg here]
  · exact .recorded typed

theorem performed_typed (same : prepared externals c call = c) {update : RuntimeUpdate}
    (h : onRuntime update c = .ok u d)
    (records : ∀ {r'}, update c.runtime = .ok u r' → Records externals c.runtime call r') :
    Performed externals c call d := by
  obtain ⟨runtime, done, rfl⟩ := onRuntime_ok_iff.mp h
  obtain ⟨kind, payload, held, typed, rfl⟩ := records done
  exact .of_move same (.recorded typed)

theorem mapError_eq_ok_iff {ε ε' α : Type} {f : ε → ε'} {x : Except ε α} {a : α} :
    x.mapError f = .ok a ↔ x = .ok a := by
  cases x <;> simp [Except.mapError]

theorem performed_admitExploration {epoch : UInt64} {spend : BudgetVector}
    (h : admitExploration externals epoch spend c = .ok u d) :
    Performed externals c (.admitExploration epoch spend) d := by
  simp only [admitExploration, bind_ok_iff, get_ok_iff, refuse_ok_iff,
    checked_ok_iff, set_ok_iff, mapError_eq_ok_iff] at h
  obtain ⟨_, _, ⟨rfl, rfl⟩, _, _, ⟨open_, rfl⟩, budget, _, ⟨consumed, rfl⟩, rfl⟩ := h
  exact .of_move rfl (.explored (by simpa using (not_or.mp open_).2) consumed)

theorem performed_admitProjectionExploration {epoch : UInt64} {spend : BudgetVector}
    (h : admitProjectionExploration externals epoch spend event c = .ok u d) :
    Performed externals c (.admitProjectionExploration epoch spend event) d := by
  simp only [admitProjectionExploration, validateProjectionEvent,
    bind_ok_iff, get_ok_iff, refuse_ok_iff, checked_ok_iff, set_ok_iff, mapError_eq_ok_iff,
    refuseWhen_eq_ok_iff, not_or] at h
  obtain ⟨_, _, ⟨rfl, rfl⟩, _, _, ⟨⟨kind, -, -, open_, -⟩, rfl⟩, _, _, ⟨continues, rfl⟩, budget, _,
    ⟨consumed, rfl⟩, rfl⟩ := h
  exact .of_move rfl (.projectedExploration (not_not.mp kind) (by simpa using continues)
    (by simpa using open_) consumed)

theorem performed_beginFinalization (h : beginFinalization externals c = .ok u d) :
    Performed externals c .beginFinalization d := by
  simp only [beginFinalization, bind_ok_iff, get_ok_iff, checked_ok_iff, set_ok_iff] at h
  obtain ⟨_, _, ⟨rfl, rfl⟩, finalization, _, ⟨-, rfl⟩, rfl⟩ := h
  exact .of_move rfl .finalizing

theorem performed_reopenForCriticalGap
    (h : reopenForCriticalGap externals c = .ok u d) :
    Performed externals c .reopenForCriticalGap d := by
  simp only [reopenForCriticalGap, bind_ok_iff, get_ok_iff, checked_ok_iff, set_ok_iff] at h
  obtain ⟨_, _, ⟨rfl, rfl⟩, finalization, _, ⟨-, rfl⟩, rfl⟩ := h
  exact .of_move rfl .reopened

variable {projectionState : Option LabRunState}

theorem performed_admitProjectionEvent
    (h : admitProjectionEvent externals event projectionState c = .ok u d) :
    Performed externals c (.admitProjectionEvent event projectionState) d := by
  simp only [admitProjectionEvent, bind_ok_iff, get_ok_iff] at h
  obtain ⟨_, _, ⟨rfl, rfl⟩, h⟩ := h
  split at h
  · obtain ⟨-, rfl⟩ := pure_ok_iff.mp h
    exact .of_idle rfl
  · simp only [validateProjectionEvent, bind_ok_iff, refuse_ok_iff, checked_ok_iff,
      set_ok_iff, modify_ok_iff, refuseWhen_eq_ok_iff] at h
    obtain ⟨_, _, ⟨plain, rfl⟩, _, _, ⟨continues, rfl⟩, state, _, ⟨next, rfl⟩, _, _, rfl,
      finalization, _, ⟨-, rfl⟩, rfl⟩ := h
    exact .of_move rfl (.projectedEvent (by simpa using plain) (by simpa using continues) next)

theorem performed_admitProjectionRecord {payloadJson : String}
    (h : admitProjectionRecord externals event payloadJson projectionState c =
      .ok u d) :
    Performed externals c (.admitProjectionRecord event payloadJson projectionState) d := by
  simp only [admitProjectionRecord, bind_ok_iff, get_ok_iff, checked_ok_iff, set_ok_iff] at h
  obtain ⟨_, _, ⟨rfl, rfl⟩, candidate, _, ⟨applied, rfl⟩, rfl⟩ := h
  obtain ⟨payload, parsed, admission, rfl⟩ := admitProjectionRecordMut_ok applied
  exact .of_move rfl (.projectedRecord parsed admission)

/-- What an accepted call does. -/
theorem performed_of_ok (h : method externals call c = .ok u d) :
    Performed externals c call d := by
  cases call with
  | transition next => exact performed_transition h
  | reviewAndComplete => exact performed_reviewAndComplete h
  | recordSource source =>
      exact performed_started .research rfl nofun rfl nofun nofun h recordSource_ok
  | recordClaim claim => exact performed_typed rfl h recordClaim_ok
  | recordHypothesis hypothesis => exact performed_typed rfl h recordHypothesis_ok
  | scheduleExperiment experiment =>
      exact performed_started .experiment rfl nofun rfl nofun nofun h scheduleExperiment_ok
  | recordObservation observation => exact performed_typed rfl h recordObservation_ok
  | recordResearchProgram receipt => exact performed_typed rfl h recordResearchProgram_ok
  | recordSecurityEvent event => exact performed_typed rfl h recordSecurityEvent_ok
  | admitExploration epoch spend => exact performed_admitExploration h
  | beginFinalization => exact performed_beginFinalization h
  | reopenForCriticalGap => exact performed_reopenForCriticalGap h
  | admitProjectionExploration epoch spend event => exact performed_admitProjectionExploration h
  | admitProjectionEvent event projectionState => exact performed_admitProjectionEvent h
  | admitProjectionRecord event payloadJson projectionState =>
      exact performed_admitProjectionRecord h

/-! ### Failed calls -/

theorem atomic_onRuntime {update : RuntimeUpdate} (h : Atomic update) :
    Atomic (onRuntime update) :=
  h.zoom fun _ => rfl

/-- The state of a projected event is only changed by a kind that cannot fail afterwards. -/
theorem atomic_admitProjectionEvent :
    Atomic (admitProjectionEvent externals event projectionState) := by
  intro c e d failed
  simp only [admitProjectionEvent, bind_error_iff, get_ne_error, get_ok_iff, false_or] at failed
  obtain ⟨_, _, ⟨rfl, rfl⟩, failed⟩ := failed
  split at failed
  · exact absurd failed pure_ne_error
  · simp only [bind_error_iff, refuse_error_iff, refuse_ok_iff, checked_error_iff, checked_ok_iff,
      set_ok_iff, set_ne_error, modify_ne_error, false_or, and_false, exists_false, or_false]
      at failed
    obtain ⟨-, -, rfl⟩ | ⟨_, _, ⟨-, rfl⟩, ⟨-, rfl⟩ | ⟨_, _, ⟨-, rfl⟩, ⟨-, rfl⟩ |
      ⟨state, _, ⟨next, rfl⟩, _, _, rfl, failed, rfl⟩⟩⟩ := failed
    · rfl
    · rfl
    · rfl
    · -- The boundary refused the event, so the event is no change of state.
      have kind : event.kind ≠ .stateChanged := by
        intro kind
        rw [kind] at failed
        cases failed
      rw [projectedState, if_pos kind] at next
      cases next
      rfl

theorem atomic_transition_call {next : LabRunState} :
    Atomic (LabController.transition externals next) := by
  refine Reads.get.bind fun c => ?_
  split
  · exact Reads.refuse.bind fun _ =>
      atomic_onRuntime atomic_transitionAfterCompletionGate
  · exact atomic_onRuntime atomic_transition

/-- A failed call changes nothing. -/
theorem atomic_method : Atomic (method externals call) := by
  cases call with
  | transition next => exact atomic_transition_call
  | reviewAndComplete =>
      exact Reads.get.bind fun _ => Reads.refuse.bind fun _ => Reads.refuse.bind fun _ =>
        atomic_onRuntime atomic_reviewAndCompleteAfterCompletionGate
  | recordSource source =>
      exact atomic_onRuntime <| Reads.get.bind fun r => Reads.refuse.bind fun _ =>
        Reads.checked.bind fun _ => Reads.refuse.bind fun _ =>
          atomic_set_moveOn { r with sources := r.sources.insert source.sourceId source } rfl nofun
  | scheduleExperiment experiment =>
      exact atomic_onRuntime <| Reads.get.bind fun r => Reads.refuse.bind fun _ =>
        Reads.checked.bind fun _ => Reads.refuse.bind fun _ =>
          atomic_set_moveOn { r with
            experiments := r.experiments.insert experiment.experimentId experiment } rfl nofun
  | recordClaim | recordHypothesis | recordObservation =>
      exact atomic_onRuntime <| Reads.get.bind fun _ => Reads.refuse.bind fun _ =>
        Reads.checked.bind fun _ => Reads.refuse.bind fun _ => Atomic.set
  | recordResearchProgram | recordSecurityEvent =>
      exact atomic_onRuntime <| Reads.get.bind fun _ => Reads.refuse.bind fun _ =>
        Reads.checked.bind fun _ => Atomic.set
  | admitExploration epoch spend =>
      exact Reads.get.bind fun _ => Reads.refuse.bind fun _ => Reads.checked.bind fun _ =>
        Atomic.set
  | beginFinalization => exact Reads.get.bind fun _ => Reads.checked.bind fun _ => Atomic.set
  | reopenForCriticalGap => exact Reads.get.bind fun _ => Reads.checked.bind fun _ => Atomic.set
  | admitProjectionExploration epoch spend event =>
      exact Reads.get.bind fun _ => Reads.refuse.bind fun _ => Reads.checked.bind fun _ =>
        Reads.checked.bind fun _ => Atomic.set
  | admitProjectionEvent event projectionState => exact atomic_admitProjectionEvent
  | admitProjectionRecord event payloadJson projectionState =>
      exact Reads.get.bind fun _ => Reads.checked.bind fun _ => Atomic.set

/-! ### Steps -/

/-- A call is refused and changes nothing, or is accepted and performed. -/
theorem step_cases (externals : Externals) (c : LabController) (call : Call) :
    accepts externals c call = false ∧ step externals c call = c ∨
      accepts externals c call = true ∧ Performed externals c call (step externals c call) := by
  cases result : method externals call c with
  | ok u d =>
      refine .inr ⟨by simp [accepts, Foundation.succeeds, result], ?_⟩
      have reach : step externals c call = d := by simp [step, after, result]
      exact reach ▸ performed_of_ok result
  | error e d =>
      refine .inl ⟨by simp [accepts, Foundation.succeeds, result], ?_⟩
      have reach : step externals c call = d := by simp [step, after, result]
      exact reach.trans (atomic_method c e d result)

theorem step_keeps {P : LabController → Prop}
    (keep : ∀ c d, Move externals call c d → P c → P d) (h : P c) :
    P (step externals c call) := by
  obtain ⟨-, same⟩ | ⟨-, performed⟩ := step_cases externals c call
  · rw [same]
    exact h
  · have middle : P (prepared externals c call) := by
      obtain same | move := performed.first
      · rw [same]
        exact h
      · exact keep _ _ move h
    obtain same | move := performed.second
    · rw [same]
      exact middle
    · exact keep _ _ move middle

/-- What every move keeps, every run keeps. -/
theorem reached_keeps {P : LabController → Prop}
    (keep : ∀ call c d, Move externals call c d → P c → P d) {calls : List Call} (h : P c) :
    P (reached externals c calls) :=
  run_invariant (fun _ call => step_keeps (keep call)) calls h

end Calls

end Aegis.Lab
