import AegisCognition.Lab.StateChange

/-!
# Completed missions

A review completes a mission only when its records support a completion, and a completed
mission takes no records. The other three ways into `Completed` do not look at the records:
a run keeps its completed missions complete if and only if none of them is taken while the
records are incomplete.
-/

namespace Aegis.Lab

open Foundation LabController LabRuntime OrderedMap Bool

/-! ### Completeness -/

/-- What a review asks of the records before it completes a mission. -/
structure IsComplete (r : LabRuntime) : Prop where
  hypotheses : r.hypotheses ≠ ∅
  experiments : r.experiments ≠ ∅
  observations : r.observations ≠ ∅
  valid : ∀ observation ∈ valueList r.observations, observation.valid = true
  observed : ∀ experiment ∈ valueList r.experiments,
    experiment.expectedObservations ≤ (r.observationsOf experiment).length
  replicated : ∀ experiment ∈ valueList r.experiments,
    experiment.minCleanReplicates ≤ (r.cleanReplications experiment).length

theorem isComplete_iff {r : LabRuntime} : IsComplete r ↔ r.isIncomplete = false := by
  simp only [isIncomplete, or_eq_false_iff, List.any_eq_false, decide_eq_true_eq,
    Nat.not_lt, not_eq_true', not_eq_false]
  constructor
  · rintro ⟨hypotheses, experiments, observations, valid, observed, replicated⟩
    refine ⟨⟨⟨⟨⟨?_, ?_⟩, ?_⟩, valid⟩, observed⟩, replicated⟩ <;>
      simpa only [← not_eq_true, Std.ExtTreeMap.isEmpty_iff]
  · rintro ⟨⟨⟨⟨⟨hypotheses, experiments⟩, observations⟩, valid⟩, observed⟩, replicated⟩
    refine ⟨?_, ?_, ?_, valid, observed, replicated⟩ <;>
      simpa only [ne_eq, ← Std.ExtTreeMap.isEmpty_iff, not_eq_true]

/-- A completed mission is complete. -/
def CompletedIsComplete (c : LabController) : Prop :=
  c.runtime.state = .completed → IsComplete c.runtime

/-- The call takes the mission to `Completed` without a review of its records. -/
def completesUnreviewed (externals : Externals) (c : LabController) (call : Call) : Bool :=
  c.runtime.state != .completed &&
    match call with
    | .transition next => next == .completed && c.mayProject externals next
    | call => (c.stateProjection externals call).any (·.next == .completed)

/-- The call does not complete the mission unreviewed while its records are incomplete. -/
def CompletesWhenComplete (externals : Externals) (c : LabController) (call : Call) : Prop :=
  completesUnreviewed externals c call = true → IsComplete c.runtime

/-! ### Steps -/

section Steps

variable {externals : Externals} {c d : LabController} {call : Call}

theorem isComplete_enter {next : LabRunState} {r : LabRuntime} :
    IsComplete (LabRuntime.enter externals next r) ↔ IsComplete r := by
  rw [isComplete_iff, isComplete_iff]
  rfl

theorem isComplete_record {kind : LabEventKind} {payload : Canonical} {r : LabRuntime} :
    IsComplete (LabRuntime.record externals kind payload r) ↔ IsComplete r := by
  rw [isComplete_iff, isComplete_iff]
  rfl

theorem isComplete_with {state : LabRunState} {stateEpoch : UInt64} {events : List LabEvent}
    {r : LabRuntime} : IsComplete { r with state, stateEpoch, events } ↔ IsComplete r := by
  rw [isComplete_iff, isComplete_iff]
  rfl

theorem mayProject_of_evidence {next : LabRunState}
    (allowed : c.runtime.state.canTransitionTo next = true)
    (evidence : next = .completed → HasCompletionEvidence externals c) :
    c.mayProject externals next = true := by
  simp only [mayProject, allowed, Bool.or_true, Bool.true_and, Bool.or_eq_true, bne_iff_ne, ne_eq]
  by_cases completed : next = .completed
  · right
    apply gate_of_hasCompletionEvidence (evidence completed)
    intro here
    subst completed
    rw [here] at allowed
    cases allowed
  · exact .inl completed

theorem TypedRecord.eq_of_completed {r s : LabRuntime} {kind : LabEventKind}
    {payload : Canonical} (h : TypedRecord r call kind payload s) (state : r.state = .completed) :
    s = r := by
  cases h with
  | source here => rw [state] at here; cases here
  | claim here => rw [state] at here; cases here
  | hypothesis here => rw [state] at here; cases here
  | experiment here => rw [state] at here; cases here
  | observation here => rw [state] at here; simp at here
  | researchProgram => rfl
  | securityEvent => rfl

/-- A completed mission takes no projected record. -/
theorem Admission.runtime_eq_of_completed {event : LabEvent} {payload : Json}
    {projectionState : Option LabRunState}
    (a : Admission externals c event payload projectionState)
    (state : c.runtime.state = .completed) : a.runtime = c.runtime := by
  have allows := a.allows
  have synced := a.synced
  rw [state] at allows
  cases kind : event.kind <;> rw [kind] at allows synced <;>
    first
    | exact (Except.ok.inj synced).symm
    | cases allows

theorem Move.completedIsComplete (move : Move externals call c d) (h : CompletedIsComplete c)
    (ok : CompletesWhenComplete externals c call) : CompletedIsComplete d := by
  intro completed
  cases move with
  | @entered call c next label other allowed evidence complete =>
      obtain rfl : next = .completed := completed
      rw [isComplete_enter]
      cases label with
      | transition =>
          apply ok
          simp [completesUnreviewed, other, mayProject_of_evidence allowed evidence]
      | complete => exact isComplete_iff.mpr (complete rfl)
  | @recorded call c kind payload runtime typed =>
      have state : c.runtime.state = .completed := typed.adds.state.symm.trans completed
      obtain rfl := typed.eq_of_completed state
      exact isComplete_record.mpr (h state)
  | explored explores =>
      have state : c.runtime.state = .completed := completed
      simp [LabController.explores, state] at explores
  | finalizing => exact isComplete_record.mpr (h completed)
  | reopened => exact isComplete_record.mpr (h completed)
  | projectedExploration kind continues explores =>
      have state : c.runtime.state = .completed := completed
      simp [LabController.explores, state] at explores
  | @projectedEvent c event projectionState state finalization plain continues next =>
      obtain rfl : state = .completed := completed
      have records : IsComplete c.runtime := by
        by_cases here : c.runtime.state = .completed
        · exact h here
        · apply ok
          by_cases kind : event.kind = .stateChanged
          · simp [completesUnreviewed, here, stateProjection_of_event kind continues next]
          · rw [projectedState, if_pos kind] at next
            exact absurd (Except.ok.inj next) here
      exact (isComplete_with (r := c.runtime)).mpr records
  | @projectedRecord c event payloadJson payload projectionState parsed admission =>
      have state : admission.state = .completed := completed
      by_cases here : c.runtime.state = .completed
      · rw [Admission.result, admission.runtime_eq_of_completed here]
        exact isComplete_with.mpr (h here)
      · by_cases kind : event.kind = .stateChanged
        · rw [Admission.result, (admission.eq_of_stateChanged kind).2.2.1]
          refine isComplete_with.mpr (ok ?_)
          simp [completesUnreviewed, here, admission.stateProjection parsed kind, state]
        · exact absurd ((admission.state_eq kind).symm.trans state) here

theorem completesUnreviewed_transition
    (h : completesUnreviewed externals c (.transition .completed) = true) :
    step externals c (.transition .completed) =
      { c with runtime := LabRuntime.enter externals .completed c.runtime } := by
  simp only [completesUnreviewed, mayProject, beq_self_eq_true, Bool.true_and, bne_self_eq_false,
    Bool.false_or, Bool.and_eq_true, bne_iff_ne, ne_eq, Bool.or_eq_true, beq_iff_eq] at h
  obtain ⟨other, allowed, gate⟩ := h
  have moved : transitionAfterCompletionGate externals .completed c.runtime =
      .ok () (LabRuntime.enter externals .completed c.runtime) :=
    transitionAfterCompletionGate_ok_iff.mpr
      (.inr ⟨other, allowed.resolve_left other, rfl⟩)
  have done : method externals (.transition .completed) c =
      .ok () { c with runtime := LabRuntime.enter externals .completed c.runtime } := by
    simp only [method, LabController.transition, bind_ok_iff, get_ok_iff]
    refine ⟨c, c, ⟨rfl, rfl⟩, ?_⟩
    simp only [if_true, bind_ok_iff, refuse_ok_iff, onRuntime_ok_iff]
    exact ⟨(), c, ⟨by simp [gate], rfl⟩, _, moved, rfl⟩
  simp [step, after, done]

/-- A call that completes a mission unreviewed does so with the records it finds. -/
theorem step_of_completesUnreviewed (h : completesUnreviewed externals c call = true) :
    (step externals c call).runtime.state = .completed ∧
      (IsComplete (step externals c call).runtime ↔ IsComplete c.runtime) := by
  by_cases transition : ∃ next, call = .transition next
  · obtain ⟨next, rfl⟩ := transition
    obtain rfl : next = .completed := by
      simp only [completesUnreviewed, and_eq_true, beq_iff_eq] at h
      exact h.2.1
    rw [completesUnreviewed_transition h]
    exact ⟨rfl, isComplete_enter⟩
  · have projected : (c.stateProjection externals call).any (·.next == .completed) = true := by
      unfold completesUnreviewed at h
      split at h
      · exact absurd ⟨_, rfl⟩ transition
      · exact (and_eq_true_iff.mp h).2
    obtain ⟨projection, found, next⟩ := (Option.any_eq_true _ _).mp projected
    obtain ⟨payload, -, reach⟩ := step_of_stateProjection found
    rw [reach]
    exact ⟨beq_iff_eq.mp next, isComplete_with (r := c.runtime)⟩

/-- A call that moves the mission on first does not complete it unreviewed. -/
theorem completesWhenComplete_of_typed (typed : c.stateProjection externals call = none)
    (other : ∀ next, call ≠ .transition next) : CompletesWhenComplete externals c call := by
  intro completes
  unfold completesUnreviewed at completes
  split at completes
  · exact absurd rfl (other _)
  · simp [typed] at completes

theorem step_completedIsComplete (h : CompletedIsComplete c)
    (ok : CompletesWhenComplete externals c call) :
    CompletedIsComplete (step externals c call) := by
  obtain ⟨-, same⟩ | ⟨-, performed⟩ := step_cases externals c call
  · rw [same]
    exact h
  obtain same | ⟨typed, other⟩ := prepared_eq_or_typed externals c call
  · have second := performed.second
    rw [same] at second
    obtain same | move := second
    · rw [same]
      exact h
    · exact move.completedIsComplete h ok
  · -- The mission may be moved on first; no step of it completes the mission unreviewed.
    exact step_keeps (fun d e move keep => move.completedIsComplete keep
      (completesWhenComplete_of_typed (typed d) other)) h

/-- What a step needs to keep completed missions complete. -/
theorem step_completedIsComplete_iff (h : CompletedIsComplete c) :
    CompletedIsComplete (step externals c call) ↔ CompletesWhenComplete externals c call := by
  refine ⟨fun complete unreviewed => ?_, step_completedIsComplete h⟩
  obtain ⟨completed, records⟩ := step_of_completesUnreviewed unreviewed
  exact records.mp (complete completed)

end Steps

/-! ### Runs -/

theorem new_completedIsComplete {externals : Externals} {mission : LabMissionSpec}
    {start : LabController} (created : LabController.new externals mission = .ok start) :
    CompletedIsComplete start := by
  obtain ⟨-, budget, -, rfl⟩ := new_ok created
  intro completed
  cases completed

/-- Completed missions stay complete along a run if and only if no call of the run completes
the mission unreviewed while its records are incomplete. -/
theorem completedIsComplete_iff {externals : Externals} {mission : LabMissionSpec}
    {start : LabController} (created : LabController.new externals mission = .ok start)
    (calls : List Call) :
    (∀ before after, calls = before ++ after →
        (reached externals start before).runtime.state = .completed →
          IsComplete (reached externals start before).runtime) ↔
      ∀ before call after, calls = before ++ call :: after →
        completesUnreviewed externals (reached externals start before) call = true →
          IsComplete (reached externals start before).runtime := by
  have exact : ∀ c call, True → CompletedIsComplete c →
      (CompletedIsComplete (step externals c call) ↔ CompletesWhenComplete externals c call) :=
    fun _ _ _ => step_completedIsComplete_iff
  exact (run_prefixes_iff_along (fun _ _ _ => trivial) exact trivial
    (new_completedIsComplete created)).trans along_iff_at_step

theorem legacyCalls_complete :
    ∃ start, LabController.new legacyExternals legacyMission = .ok start ∧
      ((∀ before after, legacyCalls = before ++ after →
          (reached legacyExternals start before).runtime.state = .completed →
            IsComplete (reached legacyExternals start before).runtime) ↔
        ∀ before call after, legacyCalls = before ++ call :: after →
          completesUnreviewed legacyExternals (reached legacyExternals start before) call = true →
            IsComplete (reached legacyExternals start before).runtime) := by
  obtain ⟨start, created⟩ := legacyMission_starts
  exact ⟨start, created, completedIsComplete_iff created legacyCalls⟩

/-- A mission without records can be taken to `Completed` state by state, whatever the
digests are. -/
theorem emptyMission_completes :
    ¬ ∃ externals : Externals, ∀ mission start calls,
      LabController.new externals mission = .ok start →
        (reached externals start calls).runtime.state = .completed →
          IsComplete (reached externals start calls).runtime := by
  rintro ⟨externals, always⟩
  have complete := always legacyMission _
    [.transition .researching, .transition .reviewing, .transition .completed] rfl rfl
  exact complete.hypotheses rfl

end Aegis.Lab
