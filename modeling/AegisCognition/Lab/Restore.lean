import Mathlib.Data.List.Find
import AegisCognition.Lab.Binding
import AegisCognition.Lab.Completion

/-!
# Restored controllers

A restored controller has to pass about thirty checks. The operations keep all of them but
four: a research program and a bare review come in without the payload that the restore asks
for, a mission may be completed with records or with a log that the restore does not accept,
and the id of a mission with white space around it does not match its skills. A run that
takes none of these steps can be restored from every state that it reaches.
-/

namespace Aegis.Lab

open Foundation LabController List Option
open Replay (Hash)

/-! ### Evidence in a completed mission -/

section Evidence

variable {externals : Externals} {c d : LabController} {event : LabEvent} {call : Call}

/-- The log tells that the mission was completed after its last goal verification. -/
def LogsCompletion (externals : Externals) (c : LabController) : Prop :=
  (lastGoalVerification c).any fun (event, _) =>
    (completedSequence externals c).any (event.sequence < ·)

theorem gate_iff (completed : c.runtime.state = .completed) :
    goalCompletionEvidenceIsSuccessful externals c = true ↔
      HasCompletionEvidence externals c ∧
        (c.mission.goalContractJson.isSome → LogsCompletion externals c) := by
  cases contract : c.mission.goalContractJson with
  | none => simp [goalCompletionEvidenceIsSuccessful, HasCompletionEvidence, contract]
  | some text =>
      cases last : lastGoalVerification c with
      | none =>
          simp [goalCompletionEvidenceIsSuccessful, HasCompletionEvidence, contract, last]
      | some found =>
          obtain ⟨event, payload⟩ := found
          simp only [goalCompletionEvidenceIsSuccessful, HasCompletionEvidence, LogsCompletion,
            precedesCompletion, completed, contract, last, isNone_some, any_some,
            bne_self_eq_false, Bool.false_or, Bool.and_eq_true, isSome_some]
          grind

section

variable (appends : Appends externals c d event)
include appends

theorem Appends.goalVerificationPayload
    (logged : WellLogged c) {old : LabEvent} (mem : old ∈ c.runtime.events) :
    Lab.goalVerificationPayload d old = Lab.goalVerificationPayload c old := by
  rw [Lab.goalVerificationPayload, Lab.goalVerificationPayload, appends.payload_eq logged mem]

theorem Appends.lastGoalVerification
    (logged : WellLogged c) (other : Lab.goalVerificationPayload d event = none) :
    Lab.lastGoalVerification d = Lab.lastGoalVerification c := by
  simp only [Lab.lastGoalVerification, appends.events, reverse_append,
    reverse_singleton, singleton_append, findSome?_cons, other, map_none]
  apply findSome?_congr_mem
  intro old mem
  rw [appends.goalVerificationPayload logged (mem_reverse.mp mem)]

theorem Appends.recordedWhileReviewing
    (logged : WellLogged c) {old : LabEvent} (mem : old ∈ c.runtime.events) :
    goalVerificationWasRecordedWhileReviewing externals d old.sequence =
      goalVerificationWasRecordedWhileReviewing externals c old.sequence := by
  rw [goalVerificationWasRecordedWhileReviewing, goalVerificationWasRecordedWhileReviewing,
    appends.events, takeWhile_append_of_stop mem (by simp)]
  congr 1
  apply foldlM_congr_mem
  intro earlier before state
  have within : earlier ∈ c.runtime.events := (List.takeWhile_prefix _).subset before
  simp only [followLoggedState, loggedState, projectedStateText, appends.payload_eq logged within]

theorem Appends.completedSequence
    (logged : WellLogged c) :
    Lab.completedSequence externals d =
      if logsCompletion externals d event then some event.sequence
      else Lab.completedSequence externals c := by
  simp only [Lab.completedSequence, appends.events, reverse_append,
    reverse_singleton, singleton_append, List.find?_cons]
  cases logsCompletion externals d event with
  | true => rfl
  | false =>
      have same : ∀ old ∈ c.runtime.events.reverse,
          logsCompletion externals d old = logsCompletion externals c old := by
        intro old mem
        simp only [logsCompletion, projectedStateText,
          appends.payload_eq logged (mem_reverse.mp mem)]
      rw [List.find?_congr same]
      rfl

end

/-- A goal verification still holds in a later controller that retains the same evidence. -/
theorem SameEvidence.holds {payload : Json} (same : SameEvidence c d) (bound : Bound externals d)
    (mem : event ∈ d.runtime.events) (held : d.payloads[event.sequence]? = some payload)
    (kind : event.kind = .reviewRecorded)
    (h : goalVerificationHolds externals c event payload = true) :
    goalVerificationHolds externals d event payload = true := by
  obtain ⟨object, read, valid⟩ := bound.reads event mem (by rw [kind]; rfl) payload held
  rw [kind] at valid
  have binding : (validateProjectionBinding externals d event payload).toOption.isSome := by
    simp [validateProjectionBinding, read, valid, kind, okOr, bind, Except.bind, pure,
      Except.pure, Except.toOption]
  simp only [goalVerificationHolds, read, Bool.and_eq_true,
    same.validateGoalVerificationRecord] at h ⊢
  exact ⟨⟨h.1.1, binding⟩, h.2⟩

theorem Move.goalVerificationPayload (move : Move externals call c d)
    (appends : Appends externals c d event) (logged : WellLogged c)
    (contract : c.mission.goalContractJson.isSome) (completed : d.runtime.state = .completed) :
    Lab.goalVerificationPayload d event = none := by
  cases given : Lab.goalVerificationPayload d event with
  | none => rfl
  | some payload =>
      obtain ⟨kind, held, verification⟩ := goalVerificationPayload_eq_some_iff.mp given
      have mem : event ∈ d.runtime.events := by
        rw [appends.events]
        exact mem_append_right _ (mem_singleton_self _)
      obtain ⟨-, old⟩ | ⟨payloadJson, projectionState, rfl, parsed, a, rfl⟩ :=
        move.retained logged mem held
      · rw [appends.sequence, logged.payload_next] at old
        cases old
      · -- The verification needs a mission under review, and a review is no state change.
        have same : a.state = c.runtime.state := a.state_eq (by simp [kind])
        have state : a.state = .completed := completed
        rw [state, a.reviewing contract kind verification] at same
        cases same

/-- The evidence of a completed mission stays in the log. -/
theorem Move.hasCompletionEvidence (move : Move externals call c d) (logged : WellLogged c)
    (bound : Bound externals d) (completed : d.runtime.state = .completed)
    (same : SameEvidence c d) (evidence : HasCompletionEvidence externals c) :
    HasCompletionEvidence externals d := by
  obtain legacy | ⟨event, payload, last, reviewing, holds⟩ := evidence
  · exact .inl (same.mission ▸ legacy)
  by_cases contract : c.mission.goalContractJson.isSome
  · obtain ⟨next, appends⟩ := move.appends
    obtain ⟨mem, read⟩ := lastGoalVerification_mem last
    obtain ⟨kind, held, -⟩ := goalVerificationPayload_eq_some_iff.mp read
    refine .inr ⟨event, payload, ?_, ?_, ?_⟩
    · rw [appends.lastGoalVerification logged
        (move.goalVerificationPayload appends logged contract completed)]
      exact last
    · rw [appends.recordedWhileReviewing logged mem]
      exact reviewing
    · refine same.holds bound ?_ ?_ kind holds
      · rw [appends.events]
        exact mem_append_left _ mem
      · rw [appends.payload_eq logged mem]
        exact held
  · exact .inl (same.mission ▸ by simpa using contract)

/-- The projected state change reads as the completion of the mission. -/
def StateProjection.readsCompleted (externals : Externals) (projection : StateProjection) : Bool :=
  projection.event.payloadHash == externals.canonicalHash (.state .completed) ||
    projection.text == some "completed"

/-- A projected change that completes a mission with a goal contract reads as the completion,
unless the log tells of one already. -/
def CompletesLogged (externals : Externals) (c : LabController) (call : Call) : Prop :=
  ∀ projection, c.stateProjection externals call = some projection →
    projection.next = .completed → c.runtime.state ≠ .completed →
      c.mission.goalContractJson.isSome →
        projection.readsCompleted externals = true ∨ LogsCompletion externals c

theorem Move.logsCompletion (move : Move externals call c d)
    (appends : Appends externals c d event) (ok : CompletesLogged externals c call)
    (contract : c.mission.goalContractJson.isSome) (early : c.runtime.state ≠ .completed)
    (completed : d.runtime.state = .completed) :
    logsCompletion externals d event = true ∨ LogsCompletion externals c := by
  cases move with
  | @entered call c next label other allowed evidence =>
      obtain rfl : next = .completed := completed
      obtain rfl := appends.event_eq appends_enter
      simp [logsCompletion, LabEvent.new]
  | @recorded call c kind payload runtime typed =>
      exact absurd (typed.adds.state.symm.trans completed) early
  | explored | finalizing | reopened | projectedExploration => exact absurd completed early
  | @projectedEvent c other projectionState state finalization plain continues next =>
      obtain rfl : state = .completed := completed
      obtain rfl : event = other :=
        appends.event_eq (.of_continues continues rfl rfl rfl (fun _ _ => rfl) fun _ h => .inl h)
      by_cases kind : event.kind = .stateChanged
      · have projects := stateProjection_of_event kind continues next
        refine (ok _ projects rfl early contract).imp_left fun reads => ?_
        simp only [logsCompletion, kind, beq_self_eq_true, Bool.true_and, Bool.or_eq_true]
        left
        simpa [StateProjection.readsCompleted] using reads
      · rw [projectedState, if_pos kind] at next
        exact absurd (Except.ok.inj next) early
  | @projectedRecord c other payloadJson payload projectionState parsed a =>
      have state : a.state = .completed := completed
      obtain rfl : event = other := appends.event_eq a.appends
      by_cases kind : event.kind = .stateChanged
      · have projects := a.stateProjection parsed kind
        refine (ok _ projects state early contract).imp_left fun reads => ?_
        have held : a.result.payloads[event.sequence]? = some payload := by
          simp [Admission.result]
        simpa [logsCompletion, kind, StateProjection.readsCompleted, projectedStateText, held,
          stateText] using reads
      · exact absurd ((a.state_eq kind).symm.trans state) early

/-- The log of a completed mission goes on telling that it was completed. -/
theorem Move.gate (move : Move externals call c d) (logged : WellLogged c)
    (bound : Bound externals d) (ok : CompletesLogged externals c call)
    (h : c.runtime.state = .completed → goalCompletionEvidenceIsSuccessful externals c = true)
    (completed : d.runtime.state = .completed) :
    goalCompletionEvidenceIsSuccessful externals d = true := by
  obtain ⟨same, before⟩ := move.completed completed
  have evidence : HasCompletionEvidence externals c :=
    before.elim (fun here => ((gate_iff here).mp (h here)).1) id
  refine (gate_iff completed).mpr
    ⟨move.hasCompletionEvidence logged bound completed same evidence, fun contract => ?_⟩
  rw [same.mission] at contract
  obtain ⟨event, appends⟩ := move.appends
  have last := appends.lastGoalVerification logged
    (move.goalVerificationPayload appends logged contract completed)
  have earlier : Lab.logsCompletion externals d event = true ∨ LogsCompletion externals c := by
    by_cases here : c.runtime.state = .completed
    · exact .inr (((gate_iff here).mp (h here)).2 contract)
    · exact move.logsCompletion appends ok contract here completed
  obtain legacy | ⟨verification, payload, found, -⟩ := evidence
  · simp [legacy] at contract
  have within := logged.sequence_le (lastGoalVerification_mem found).1
  simp only [LogsCompletion, last, found, any_some, appends.completedSequence logged]
  by_cases logs : Lab.logsCompletion externals d event = true
  · simp only [logs, if_true, any_some, decide_eq_true_eq, appends.sequence]
    omega
  · rw [if_neg logs]
    have old := earlier.resolve_left logs
    rwa [LogsCompletion, found, any_some] at old

end Evidence

/-! ### Controllers that can be restored -/

section Restorable

variable {externals : Externals} {c d : LabController} {call : Call}

/-- What a restore asks of a controller. -/
structure Restorable (externals : Externals) (c : LabController) : Prop where
  mission : c.mission.validate externals = .ok ()
  logged : WellLogged c
  chain : ChainValid externals c
  funded : Funded c
  records : RecordsValid c.runtime
  index : IndexValid c
  skills : SkillsMatch c
  bound : Bound externals c
  payloads : PayloadsValid externals c
  retains : Retains c
  complete : CompletedIsComplete c
  gate : c.runtime.state = .completed → goalCompletionEvidenceIsSuccessful externals c = true

theorem Restorable.validateSnapshotContents (h : Restorable externals c) :
    c.runtime.validateSnapshotContents externals = .ok () := by
  obtain ⟨first, rest, events, created, hashed⟩ := h.chain.first
  have chain : verifyEventChain externals c.runtime.events = true := by
    rw [verifyEventChain, h.chain.chain, events]
    rfl
  have complete : ¬ (c.runtime.state == .completed && c.runtime.isIncomplete) = true := by
    intro incomplete
    obtain ⟨completed, faulty⟩ := Bool.and_eq_true_iff.mp incomplete
    rw [isComplete_iff.mp (h.complete (beq_iff_eq.mp completed))] at faulty
    cases faulty
  have epoch := h.chain.epoch
  simp only [LabRuntime.validateSnapshotContents, bind_eq_ok_iff, refuseWhen_eq_ok_iff,
    okOr_eq_ok_iff]
  refine ⟨(), h.mission, (), by simp [chain], first, by simp [events], (), ?_, (),
    forM_eq_ok h.records.sources, (), forM_eq_ok h.records.claims, (),
    forM_eq_ok h.records.hypotheses, (), forM_eq_ok h.records.experiments, (),
    forM_eq_ok h.records.observations, complete⟩
  rw [epoch]
  simp [created, hashed]

theorem Funded.budgetIsValid (h : Funded c) : c.budgetIsValid = some true := by
  obtain ⟨exploration, finalization, recovery⟩ := h.conserves.pools_fit
  rw [h.total] at exploration finalization recovery
  simp [LabController.budgetIsValid, h.conserves.snapshotValid, exploration, finalization, recovery]

theorem Restorable.validateProjectionSnapshot (h : Restorable externals c) :
    c.validateProjectionSnapshot externals = .ok () := by
  have gate : ¬ (c.runtime.state == .completed &&
      !goalCompletionEvidenceIsSuccessful externals c) = true := by
    intro fault
    obtain ⟨completed, refused⟩ := Bool.and_eq_true_iff.mp fault
    rw [h.gate (beq_iff_eq.mp completed)] at refused
    cases refused
  simp only [LabController.validateProjectionSnapshot, bind_eq_ok_iff, refuseWhen_eq_ok_iff]
  refine ⟨(), h.index.validateIndex h.skills, (), h.payloads.validateManifest h.logged,
    c.executionBinding, h.bound.snapshotBinding h.retains, (), by simp, (), ?_, gate⟩
  simp [h.index.researchPrograms, h.index.researchProgramAdmissions, h.payloads.payloads]

/-- Such a controller is restored as it is. -/
theorem Restorable.restore (h : Restorable externals c) : c.restore externals = some (.ok c) := by
  have bounds : ¬ (decide (c.mission.maxSteps < c.steps) ||
      !c.externalAttemptBudgetValid) = true := by
    simp [h.funded.attempts, h.funded.steps]
  have contents := h.validateSnapshotContents
  have budget := h.funded.budgetIsValid
  have projection := h.validateProjectionSnapshot
  unfold LabController.restore
  rw [contents]
  simp only [if_neg bounds, budget, map_some, projection]
  rfl

/-! ### Steps that keep a controller restorable -/

/-- The calls that a restore accepts the traces of. -/
structure Retainable (externals : Externals) (c : LabController) (call : Call) : Prop where
  programs : ∀ receipt, call ≠ .recordResearchProgram receipt
  reviews : ∀ event projectionState, call = .admitProjectionEvent event projectionState →
    event.kind ≠ .reviewRecorded
  skills : ∀ event payloadJson projectionState,
    call = .admitProjectionRecord event payloadJson projectionState →
      event.kind = .skillAdmissionRecorded → isTrimmed c.mission.missionId = true
  completes : CompletesWhenComplete externals c call
  logs : CompletesLogged externals c call

/-- An accepted call leaves a trace that a restore accepts. -/
def KeepsRestorable (externals : Externals) (c : LabController) (call : Call) : Prop :=
  accepts externals c call = true → Retainable externals c call

/-- Goal-bound events come with their payloads. -/
theorem Move.retains (move : Move externals call c d) (logged : WellLogged c)
    (ok : Retainable externals c call) (h : Retains c) : Retains d := by
  obtain ⟨event, appends, kind⟩ := move.bare_or_admitted
  intro old mem goalBound
  rw [appends.events, mem_append, mem_singleton] at mem
  obtain mem | rfl := mem
  · have retained := h old mem goalBound
    rw [Std.ExtTreeMap.mem_iff_isSome_getElem?] at retained ⊢
    rw [appends.payload_eq logged mem]
    exact retained
  · obtain bare | ⟨payload, projectionState, ⟨admitted⟩⟩ := kind
    · obtain ⟨receipt, program⟩ | ⟨projectionState, review, kind⟩ := bare.bound goalBound
      · exact absurd program (ok.programs receipt)
      · exact absurd kind (ok.reviews old projectionState review)
    · rw [admitted.result]
      simp [Admission.result]

theorem Move.restorable (move : Move externals call c d)
    (nonzero : ∀ event, externals.canonicalHash (.event event) ≠ Hash.zero)
    (ok : Retainable externals c call) (h : Restorable externals c) : Restorable externals d := by
  obtain ⟨event, appends⟩ := move.appends
  have bound := move.keepsBound h.logged h.bound
  exact {
    mission := appends.mission ▸ h.mission
    logged := h.logged.of_appends appends
    chain := appends.chainValid nonzero h.chain
    funded := move.funded h.funded
    records := move.recordsValid h.records
    index := move.indexValid h.index
    skills := move.skillsMatch h.skills ok.skills
    bound
    payloads := move.payloadsValid h.logged h.payloads
    retains := move.retains h.logged ok h.retains
    complete := move.completedIsComplete h.complete ok.completes
    gate := move.gate h.logged bound ok.logs h.gate }

theorem step_restorable (nonzero : ∀ event, externals.canonicalHash (.event event) ≠ Hash.zero)
    (h : Restorable externals c) (ok : KeepsRestorable externals c call) :
    Restorable externals (step externals c call) := by
  obtain ⟨-, same⟩ | ⟨accepted, performed⟩ := step_cases externals c call
  · rw [same]
    exact h
  have retainable := ok accepted
  obtain same | ⟨typed, other⟩ := prepared_eq_or_typed externals c call
  · have second := performed.second
    rw [same] at second
    obtain same | move := second
    · rw [same]
      exact h
    · exact move.restorable nonzero retainable h
  · have middle : Restorable externals (prepared externals c call) ∧
        (prepared externals c call).mission = c.mission := by
      obtain same | move := performed.first
      · rw [same]
        exact ⟨h, rfl⟩
      · exact ⟨move.restorable nonzero retainable h, move.appends.choose_spec.mission⟩
    obtain same | move := performed.second
    · rw [same]
      exact middle.1
    · -- A call that moves the mission on first leaves an accepted trace in any controller.
      exact move.restorable nonzero { retainable with
        skills := fun event payloadJson projectionState record kind =>
          middle.2 ▸ retainable.skills event payloadJson projectionState record kind
        completes := completesWhenComplete_of_typed (typed _) other
        logs := fun projection projects => by simp [typed] at projects } middle.1

theorem restorable_new {mission : LabMissionSpec} {start : LabController}
    (created : LabController.new externals mission = .ok start)
    (nonzero : ∀ event, externals.canonicalHash (.event event) ≠ Hash.zero) :
    Restorable externals start := by
  have fresh : start.mission.validate externals = .ok () ∧ start.runtime.state = .planned ∧
      start.index = .empty ∧ start.runtime.events.map (·.kind) = [.missionCreated] ∧
      RecordsValid start.runtime := by
    obtain ⟨valid, budget, -, rfl⟩ := new_ok created
    refine ⟨valid, rfl, rfl, rfl, ?_⟩
    constructor <;> exact fun _ mem => nomatch mem
  obtain ⟨valid, planned, empty, kinds, records⟩ := fresh
  exact {
    mission := valid
    logged := .of_new created
    chain := chainValid_new created nonzero
    funded := funded_new created
    records
    index := indexValid_new created
    skills := fun hash admission held => by simp [empty, ProjectionIndex.empty] at held
    bound := bound_new created
    payloads := payloadsValid_new created
    retains := fun event mem goalBound => by
      have kind : event.kind ∈ start.runtime.events.map (·.kind) := mem_map_of_mem mem
      rw [kinds, mem_singleton] at kind
      rw [kind] at goalBound
      cases goalBound
    complete := new_completedIsComplete created
    gate := fun completed => by simp [planned] at completed }

end Restorable

/-! ### Runs -/

/-- Every measured number of the records is finite. -/
def LabController.HasFiniteMeasurements (c : LabController) : Prop :=
  ∀ observation ∈ OrderedMap.valueList c.runtime.observations,
    observation.measurement.isFinite = true ∧
      ∀ value ∈ observation.uncertainty, value.isFinite = true

/-- The text that the codec writes for the controller is read back as this controller. -/
def Codec.RoundTrips (codec : Codec) (c : LabController) : Prop :=
  ∃ snapshot, codec.toString c = some snapshot ∧ codec.fromStr snapshot = some c

section Runs

variable {externals : Externals} {c : LabController}

theorem ObservationRecord.finite {observation : ObservationRecord}
    {experiments : Table ExperimentSpec} {observations : Table ObservationRecord}
    (h : observation.validate experiments observations = .ok ()) :
    observation.measurement.isFinite = true ∧
      ∀ value ∈ observation.uncertainty, value.isFinite = true := by
  simp only [validate, bind_eq_ok_iff, refuseWhen_eq_ok_iff, Bool.or_eq_true, not_or] at h
  obtain ⟨experiment, -, _, sound, -⟩ := h
  obtain ⟨⟨⟨⟨⟨⟨⟨⟨⟨-, -⟩, finite⟩, -⟩, -⟩, -⟩, -⟩, -⟩, certain⟩, -⟩ := sound
  refine ⟨by simpa using finite, fun value given => ?_⟩
  rw [mem_def.mp given] at certain
  simp only [any_some, Bool.or_eq_true, not_or] at certain
  simpa using certain.1

theorem RecordsValid.finite (h : RecordsValid c.runtime) : c.HasFiniteMeasurements :=
  fun observation mem => ObservationRecord.finite (h.observations observation mem)

/-- In a run whose accepted calls all leave a trace that a restore accepts, every controller
is written out and restored as it is. The codec is asked to be faithful on the controllers of
the run, as far as their numbers are finite; no event digest is the zero digest, with which
the chain starts. -/
theorem snapshot_restores {mission : LabMissionSpec} {start : LabController}
    (created : LabController.new externals mission = .ok start)
    (nonzero : ∀ event, externals.canonicalHash (.event event) ≠ Hash.zero)
    (calls : List Call)
    (ok : ∀ before call after, calls = before ++ call :: after →
      KeepsRestorable externals (reached externals start before) call)
    (codec : Codec)
    (faithful : ∀ before after, calls = before ++ after →
      (reached externals start before).HasFiniteMeasurements →
        codec.RoundTrips (reached externals start before)) :
    ∀ before after, calls = before ++ after → ∃ snapshot,
      snapshotJson codec (reached externals start before) = .ok snapshot ∧
        fromSnapshotJson externals codec snapshot =
          some (.ok (reached externals start before)) := by
  rintro before after rfl
  have along : Along (step externals) (KeepsRestorable externals) start before :=
    (along_iff_at_step.mpr ok).append_left
  have restorable : Restorable externals (reached externals start before) :=
    run_invariant_along (fun _ _ => step_restorable nonzero) along
      (restorable_new created nonzero)
  obtain ⟨snapshot, written, read⟩ := faithful before after rfl restorable.records.finite
  refine ⟨snapshot, ?_, ?_⟩
  · simp [snapshotJson, written, okOr]
  · simp only [fromSnapshotJson, read]
    exact restorable.restore

/-- What is restored is as it was and has a payload for every goal-bound event. -/
theorem retains_of_restore {d : LabController} (h : c.restore externals = some (.ok d)) :
    c = d ∧ Retains c := by
  unfold LabController.restore at h
  split at h
  · cases h
  split at h
  · cases h
  obtain ⟨valid, -, checked⟩ := map_eq_some_iff.mp h
  simp only [validateProjectionSnapshot, bind_eq_ok_iff] at checked
  obtain ⟨_, -, _, ⟨_, -, _, -, found, read, -⟩, done⟩ := checked
  refine ⟨Except.ok.inj done, fun event mem goalBound => ?_⟩
  obtain ⟨before, after, done⟩ := foldlM_ok_mem read (mem_filter.mpr ⟨mem, goalBound⟩)
  simp only [readSnapshotBinding, bind_eq_ok_iff, okOr_eq_ok_iff] at done
  obtain ⟨payload, held, -⟩ := done
  exact Std.ExtTreeMap.mem_iff_isSome_getElem?.mpr (by simp [held])

end Runs

/-! ### A research program -/

def researchReceipt : ResearchProgramReceipt where
  programHash := .fill 5
  operationCount := 1
  candidateCount := 1
  provider := "test"

/-- A mission that has recorded one research program cannot be restored, whatever the digests
and the codec are. -/
theorem researchProgram_not_restored :
    ¬ ∃ (externals : Externals) (codec : Codec), ∀ mission start calls,
      LabController.new externals mission = .ok start → ∃ snapshot,
        snapshotJson codec (reached externals start calls) = .ok snapshot ∧
          fromSnapshotJson externals codec snapshot =
            some (.ok (reached externals start calls)) := by
  rintro ⟨externals, codec, always⟩
  obtain ⟨start, created, kinds, bare⟩ : ∃ start,
      LabController.new externals legacyMission = .ok start ∧
      (reached externals start [.recordResearchProgram researchReceipt]).runtime.events.map
          (·.kind) = [.missionCreated, .researchProgramExecuted] ∧
        (reached externals start [.recordResearchProgram researchReceipt]).payloads = ∅ :=
    ⟨_, rfl, rfl, rfl⟩
  obtain ⟨snapshot, -, restored⟩ := always legacyMission start
    [.recordResearchProgram researchReceipt] created
  unfold fromSnapshotJson at restored
  split at restored
  · cases restored
  · obtain ⟨rfl, retains⟩ := retains_of_restore restored
    have program : LabEventKind.researchProgramExecuted ∈
        (reached externals start [.recordResearchProgram researchReceipt]).runtime.events.map
          (·.kind) := by simp [kinds]
    obtain ⟨event, mem, kind⟩ := mem_map.mp program
    have retained := retains event mem (by rw [kind]; rfl)
    rw [bare] at retained
    exact Std.ExtTreeMap.not_mem_empty retained

/-! ### A restored mission -/

/-- A member with a budget of nothing but tokens. -/
def tokensText (member tokens : String) : String :=
  "\"" ++ member ++ "\":\x7b\"tokens\":" ++ tokens ++ ",\"money_minor_units\":0,\"time_ms\":0," ++
    "\"tool_calls\":0,\"api_calls\":0,\"cpu_ms\":0,\"risk_units\":0\x7d"

/-- The members of a snapshot up to the state of the mission. -/
def legacyMissionText : String :=
  "\x7b\"runtime\":\x7b\"mission\":\x7b\"mission_id\":\"mission-1\"," ++
    "\"objective\":\"test a hypothesis\",\"scope\":\"local deterministic fixture\"," ++
    "\"contract_hash\":[7,7,7,7,7,7,7,7,7,7,7,7,7,7,7,7,7,7,7,7,7,7,7,7,7,7,7,7,7,7,7,7]," ++
    "\"budget_policy\":\x7b" ++ tokensText "total" "100" ++ "," ++
    tokensText "finalization_reserve" "20" ++ "," ++ tokensText "recovery_reserve" "10" ++
    "\x7d,\"required_evidence\":true,\"max_steps\":20,\"max_external_attempts\":null," ++
    "\"schema\":\"aegis-lab-runtime-v1\"\x7d"

/-- The first event of the log. -/
def createdText : String :=
  "\x7b\"sequence\":1,\"state_epoch\":0,\"kind\":\"MissionCreated\",\"payload_hash\":[52,186," ++
    "113,66,130,66,247,246,210,12,215,206,113,3,125,119,90,44,115,202,204,139,204,7,251,72,173," ++
    "233,75,167,233,135],\"previous_event_hash\":[0,0,0,0,0,0,0,0,0,0,0,0,0,0,0,0,0,0,0,0,0,0," ++
    "0,0,0,0,0,0,0,0,0,0],\"event_hash\":[241,249,184,114,226,167,63,72,25,201,225,182,45,18," ++
    "27,164,171,19,143,4,131,233,28,61,111,51,151,190,0,21,136,47]\x7d"

/-- The second event of the log. -/
def researchingText : String :=
  "\x7b\"sequence\":2,\"state_epoch\":1,\"kind\":\"StateChanged\",\"payload_hash\":[12,38," ++
    "231,81,29,102,184,236,160,129,111,135,187,172,251,8,101,167,150,69,154,213,47,117,88,25,8," ++
    "154,128,215,10,109],\"previous_event_hash\":[241,249,184,114,226,167,63,72,25,201,225,182," ++
    "45,18,27,164,171,19,143,4,131,233,28,61,111,51,151,190,0,21,136,47],\"event_hash\":[85," ++
    "107,51,10,62,203,41,159,150,232,50,139,125,74,179,141,56,107,183,188,179,175,103,125,66," ++
    "53,82,84,71,73,38,172]\x7d"

/-- The members of a snapshot after the log. -/
def emptyTablesText : String :=
  ",\"sources\":\x7b\x7d,\"claims\":\x7b\x7d,\"hypotheses\":\x7b\x7d," ++
    "\"experiments\":\x7b\x7d,\"observations\":\x7b\x7d\x7d," ++
    "\"budget\":\x7b" ++ tokensText "total" "100" ++ "," ++
    tokensText "exploration_remaining" "70" ++ "," ++
    tokensText "finalization_remaining" "20" ++ "," ++
    tokensText "recovery_remaining" "10" ++ "," ++ tokensText "exploration_spent" "0" ++
    ",\"state_epoch\":0\x7d,\"finalization\":\x7b\"state\":\"Exploring\"," ++
    "\"generation\":0\x7d,\"steps\":0," ++
    "\"projection_sources\":[],\"projection_claims\":[],\"projection_hypotheses\":[]," ++
    "\"projection_experiments\":\x7b\x7d,\"projection_observations\":\x7b\x7d," ++
    "\"projection_experiment_execution_admissions\":\x7b\x7d," ++
    "\"projection_experiment_executions\":[],\"projection_tool_execution_admissions\":\x7b\x7d," ++
    "\"projection_tool_executions\":[],\"projection_cancellation_admissions\":\x7b\x7d," ++
    "\"projection_cancellations\":[],\"projection_browser_action_admissions\":\x7b\x7d," ++
    "\"projection_browser_actions\":[],\"projection_browser_observation_admissions\":\x7b\x7d," ++
    "\"projection_browser_observations\":[],\"projection_skill_admissions\":\x7b\x7d," ++
    "\"projection_skill_executions\":[],\"projection_research_programs\":[]," ++
    "\"projection_research_program_admissions\":\x7b\x7d,\"projection_execution_binding\":null," ++
    "\"projection_payloads\":\x7b\x7d\x7d"

/-- The digests of a legacy mission. Other events get a digest that is not zero. -/
def snapshotExternals : Externals :=
  { legacyExternals with
    canonicalHash := fun value =>
      match value with
      | .event _ =>
          if legacyExternals.canonicalHash value = .zero then .fill 1
          else legacyExternals.canonicalHash value
      | _ => legacyExternals.canonicalHash value }

theorem snapshotExternals_nonzero (event : EventWithoutHash) :
    snapshotExternals.canonicalHash (.event event) ≠ Hash.zero := by
  simp only [snapshotExternals]
  split
  · decide
  · assumption

def plannedSnapshot : String :=
  legacyMissionText ++ ",\"state\":\"Planned\",\"state_epoch\":0,\"events\":[" ++ createdText ++
    "]" ++ emptyTablesText

/-- Its snapshot after the first transition. -/
def researchingSnapshot : String :=
  legacyMissionText ++ ",\"state\":\"Researching\",\"state_epoch\":1,\"events\":[" ++ createdText ++
    "," ++ researchingText ++ "]" ++ emptyTablesText

theorem snapshots_ne : researchingSnapshot ≠ plannedSnapshot := by
  decide +kernel

/-- The codec on the two controllers of the mission. -/
def snapshotCodec : Codec where
  toString c :=
    match c.runtime.events.length with
    | 1 => some plannedSnapshot
    | 2 => some researchingSnapshot
    | _ => none
  fromStr snapshot :=
    let start := (LabController.new snapshotExternals legacyMission).toOption
    if snapshot = plannedSnapshot then start
    else if snapshot = researchingSnapshot then
      start.map fun c => step snapshotExternals c (.transition .researching)
    else none

theorem snapshotCodec_roundTrips {start : LabController}
    (created : LabController.new snapshotExternals legacyMission = .ok start) :
    snapshotCodec.RoundTrips start ∧
      snapshotCodec.RoundTrips (step snapshotExternals start (.transition .researching)) := by
  refine ⟨⟨plannedSnapshot, ?_, ?_⟩, researchingSnapshot, ?_, ?_⟩
  · cases created
    rfl
  · simp [snapshotCodec, created, Except.toOption]
  · cases created
    rfl
  · simp [snapshotCodec, snapshots_ne, created, Except.toOption]

theorem legacyMission_restores :
    (∀ event, snapshotExternals.canonicalHash (.event event) ≠ Hash.zero) ∧
    ∃ start, LabController.new snapshotExternals legacyMission = .ok start ∧
      ∀ before after, [Call.transition .researching] = before ++ after → ∃ snapshot,
        snapshotJson snapshotCodec (reached snapshotExternals start before) =
            .ok snapshot ∧
          fromSnapshotJson snapshotExternals snapshotCodec snapshot =
            some (.ok (reached snapshotExternals start before)) := by
  obtain ⟨start, created⟩ : ∃ start,
      LabController.new snapshotExternals legacyMission = .ok start := ⟨_, rfl⟩
  refine ⟨snapshotExternals_nonzero, start, created, ?_⟩
  apply snapshot_restores created snapshotExternals_nonzero [.transition .researching]
  · rintro before call after split -
    have mem : call ∈ [Call.transition .researching] := by simp [split]
    obtain rfl := mem_singleton.mp mem
    exact {
      programs := fun _ same => by cases same
      reviews := fun _ _ same => by cases same
      skills := fun _ _ _ same => by cases same
      completes := fun completes => by simp [completesUnreviewed] at completes
      logs := fun _ projected => by cases projected }
  · intro before after split finite
    obtain ⟨planned, researching⟩ := snapshotCodec_roundTrips created
    cases before with
    | nil => exact planned
    | cons call before =>
        obtain ⟨rfl, rest⟩ := List.cons.inj split
        obtain ⟨rfl, -⟩ := append_eq_nil_iff.mp rest.symm
        exact researching

end Aegis.Lab
