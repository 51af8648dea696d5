import AegisCognition.Lab.Retention
import AegisCognition.Lab.Snapshot

/-!
# The index of projected records

An accepted payload adds at most one entry to the index, and the entry passes the check that
a restored index has to pass. What an entry refers to stays known, so the check keeps
passing. The one exception is the mission that a skill is admitted for: the index keeps its
id without the white space around it.
-/

namespace Aegis.Lab

open Foundation OrderedMap LabController Option

/-! ### What a payload adds -/

/-- The index after a payload of this kind: one more entry, which is valid, or none. Only one
kind adds a skill admission. -/
inductive IndexStep (c : LabController) (kind : LabEventKind) : ProjectionIndex → Prop
  | same : IndexStep c kind c.index
  | source {id : String} (text : isBlank id = false) :
      IndexStep c kind { c.index with sources := c.index.sources.insert id }
  | claim {id : String} (text : isBlank id = false) :
      IndexStep c kind { c.index with claims := c.index.claims.insert id }
  | hypothesis {id : String} (text : isBlank id = false) :
      IndexStep c kind { c.index with hypotheses := c.index.hypotheses.insert id }
  | experiment {id : String} {experiment : ProjectionExperiment}
      (valid : c.experimentIsInvalid (id, experiment) = false) :
      IndexStep c kind { c.index with experiments := c.index.experiments.insert id experiment }
  | observation {id : String} {observation : ProjectionObservation}
      (valid : c.observationIsInvalid (id, observation) = false)
      (fresh : id ∉ c.index.observations) :
      IndexStep c kind { c.index with observations := c.index.observations.insert id observation }
  | experimentExecutionAdmission {id : String} {admission : ProjectionExperimentExecutionAdmission}
      (valid : c.experimentExecutionAdmissionIsInvalid (id, admission) = false) :
      IndexStep c kind { c.index with
        experimentExecutionAdmissions :=
          c.index.experimentExecutionAdmissions.insert id admission }
  | experimentExecution {id : String} (text : isBlank id = false) :
      IndexStep c kind { c.index with
        experimentExecutions := c.index.experimentExecutions.insert id }
  | toolExecutionAdmission {id : String} {admission : ProjectionToolExecutionAdmission}
      (valid : toolExecutionAdmissionIsInvalid (id, admission) = false) :
      IndexStep c kind { c.index with
        toolExecutionAdmissions := c.index.toolExecutionAdmissions.insert id admission }
  | toolExecution {id : String} (text : isBlank id = false) :
      IndexStep c kind { c.index with toolExecutions := c.index.toolExecutions.insert id }
  | cancellationAdmission {id admission : String}
      (valid : admissionIsBlank (id, admission) = false) :
      IndexStep c kind { c.index with
        cancellationAdmissions := c.index.cancellationAdmissions.insert id admission }
  | cancellation {id : String} (text : isBlank id = false) :
      IndexStep c kind { c.index with cancellations := c.index.cancellations.insert id }
  | browserActionAdmission {id admission : String}
      (valid : admissionIsBlank (id, admission) = false) :
      IndexStep c kind { c.index with
        browserActionAdmissions := c.index.browserActionAdmissions.insert id admission }
  | browserAction {id : String} (text : isBlank id = false) :
      IndexStep c kind { c.index with browserActions := c.index.browserActions.insert id }
  | browserObservationAdmission {id admission : String}
      (valid : admissionIsBlank (id, admission) = false) :
      IndexStep c kind { c.index with
        browserObservationAdmissions := c.index.browserObservationAdmissions.insert id admission }
  | browserObservation {id : String} (text : isBlank id = false) :
      IndexStep c kind { c.index with browserObservations := c.index.browserObservations.insert id }
  | skillAdmission {hash : String} {admission : ProjectionSkillAdmission}
      (admits : kind = .skillAdmissionRecorded) (digest : isHexDigest hash = true)
      (skill : isBlank admission.skillId = false)
      (version : isBlank admission.version = false) :
      IndexStep c kind { c.index with
        skillAdmissions := c.index.skillAdmissions.insert hash admission }
  | skillExecution {hash : String} (digest : isHexDigest hash = true) :
      IndexStep c kind { c.index with skillExecutions := c.index.skillExecutions.insert hash }
  | researchProgramAdmission {hash admission : String}
      (valid : researchProgramAdmissionIsInvalid (hash, admission) = false) :
      IndexStep c kind { c.index with
        researchProgramAdmissions := c.index.researchProgramAdmissions.insert hash admission }
  | researchProgram {hash : String} (digest : isHexDigest hash = true) :
      IndexStep c kind { c.index with researchPrograms := c.index.researchPrograms.insert hash }

section Fields

variable {object : JsonObject} {key text : String} {ids ids' : IdSet}

theorem nonEmpty_ok (h : nonEmpty object key = .ok text) :
    isBlank text = false ∧ (object.str? key).map trim = some text := by
  simp only [nonEmpty, okOr_eq_ok_iff, filter_eq_some_iff, bne_iff_ne, ne_eq] at h
  obtain ⟨read, present⟩ := h
  obtain ⟨raw, found, rfl⟩ := map_eq_some_iff.mp read
  exact ⟨by rw [isBlank_trim]; exact isBlank_eq_false_of_trim_ne present, read⟩

theorem insertFresh_ok {id : String} (h : insertFresh ids id = .ok ids') :
    ids' = ids.insert id := by
  simp only [insertFresh, bind_eq_ok_iff] at h
  obtain ⟨_, -, done⟩ := h
  exact (Except.ok.inj done).symm

theorem attemptField_ok {attempt : Nat} (h : attemptField object = .ok attempt) : attempt ≠ 0 := by
  simp only [attemptField, okOr_eq_ok_iff, filter_eq_some_iff, Bool.and_eq_true,
    decide_eq_true_eq] at h
  omega

end Fields

section Kinds

variable {c : LabController} {kind : LabEventKind} {object : JsonObject}
variable {index : ProjectionIndex}

theorem sourceCaptured_step (h : sourceCaptured c object = .ok index) : IndexStep c kind index := by
  simp only [sourceCaptured, bind_eq_ok_iff] at h
  obtain ⟨id, named, _, -, _, -, _, -, sources, inserted, done⟩ := h
  cases done
  obtain rfl := insertFresh_ok inserted
  exact .source (nonEmpty_ok named).1

theorem claimRecorded_step (h : claimRecorded c object = .ok index) : IndexStep c kind index := by
  simp only [claimRecorded, bind_eq_ok_iff] at h
  obtain ⟨id, named, _, -, _, -, _, -, _, -, _, -, claims, inserted, done⟩ := h
  cases done
  obtain rfl := insertFresh_ok inserted
  exact .claim (nonEmpty_ok named).1

theorem hypothesisRecorded_step (h : hypothesisRecorded c object = .ok index) :
    IndexStep c kind index := by
  simp only [hypothesisRecorded, bind_eq_ok_iff] at h
  obtain ⟨id, named, _, -, _, -, _, -, _, -, _, -, _, -, _, -, hypotheses, inserted, done⟩ := h
  cases done
  obtain rfl := insertFresh_ok inserted
  exact .hypothesis (nonEmpty_ok named).1

theorem experimentScheduled_step (h : experimentScheduled c object = .ok index) :
    IndexStep c kind index := by
  simp only [experimentScheduled, bind_eq_ok_iff, refuseWhen_eq_ok_iff, Bool.or_eq_true,
    not_or, decide_eq_true_eq, Bool.not_eq_true', Bool.not_eq_false, Nat.not_lt] at h
  obtain ⟨id, named, hypothesisId, tests, _, -, _, -, _, -, _, -, _, -, _, -, _,
    ⟨⟨⟨enough, -⟩, known⟩, -⟩, done⟩ := h
  cases done
  refine .experiment ?_
  simp [experimentIsInvalid, (nonEmpty_ok named).1, (nonEmpty_ok tests).1, enough, known]

theorem experimentExecutionAdmitted_step (h : experimentExecutionAdmitted c object = .ok index) :
    IndexStep c kind index := by
  simp only [experimentExecutionAdmitted, bind_eq_ok_iff, refuseWhen_eq_ok_iff, Bool.or_eq_true,
    not_or, Bool.not_eq_true', Bool.not_eq_false] at h
  obtain ⟨admissionId, admits, executionId, executes, experimentId, named, attempt, counted, _,
    known, inputHash, -, policyHash, -, _, ⟨⟨⟨⟨input, policy⟩, -⟩, -⟩, -⟩, done⟩ := h
  cases done
  refine .experimentExecutionAdmission ?_
  simp [experimentExecutionAdmissionIsInvalid, (nonEmpty_ok admits).1,
    (nonEmpty_ok executes).1, (nonEmpty_ok named).1, attemptField_ok counted, known, input, policy]

theorem experimentExecutionRecorded_step (h : experimentExecutionRecorded c object = .ok index) :
    IndexStep c kind index := by
  simp only [experimentExecutionRecorded, bind_eq_ok_iff] at h
  obtain ⟨_, -, executionId, executes, _, -, _, -, _, -, _, -, _, -, _, -, _, -, executions,
    inserted, done⟩ := h
  cases done
  obtain rfl := insertFresh_ok inserted
  exact .experimentExecution (nonEmpty_ok executes).1

/-- The members of a tool call, as far as a restored index checks them. -/
theorem toolExecution_ok {executionId : String} {admission : ProjectionToolExecutionAdmission}
    (h : toolExecution object = .ok (executionId, admission))
    (actor : ["actor", "observer"].contains admission.actorRole = true) :
    toolExecutionAdmissionIsInvalid (executionId, admission) = false := by
  simp only [toolExecution, bind_eq_ok_iff, okOr_eq_ok_iff, refuseWhen_eq_ok_iff,
    filter_eq_some_iff, decide_eq_true_eq, Bool.or_eq_true, not_or, Bool.not_eq_true',
    Bool.not_eq_false] at h
  obtain ⟨admissionId, admits, id, executes, toolName, named, effectClass, effects, actorRole, -,
    expected, schema, stopRule, stops, attempt, counted, leaseId, ⟨-, leased⟩, inputHash, -,
    policyHash, -, managed, -, _, ⟨input, policy⟩, done⟩ := h
  obtain ⟨rfl, rfl⟩ := Prod.mk.inj (Except.ok.inj done)
  have lease : leaseId ≠ 0 := Nat.pos_iff_ne_zero.mp leased
  simp only [toolExecutionAdmissionIsInvalid, (nonEmpty_ok admits).1,
    (nonEmpty_ok executes).1, (nonEmpty_ok named).1, (nonEmpty_ok effects).1,
    (nonEmpty_ok schema).1, (nonEmpty_ok stops).1, input, policy, actor]
  simp [attemptField_ok counted, lease]

theorem toolExecution_id {executionId : String} {admission : ProjectionToolExecutionAdmission}
    (h : toolExecution object = .ok (executionId, admission)) : isBlank executionId = false := by
  simp only [toolExecution, bind_eq_ok_iff] at h
  obtain ⟨_, -, id, executes, _, -, _, -, _, -, _, -, _, -, _, -, _, -, _, -, _, -, _, -, _, -,
    done⟩ := h
  obtain ⟨rfl, -⟩ := Prod.mk.inj (Except.ok.inj done)
  exact (nonEmpty_ok executes).1

theorem toolExecutionAdmitted_step (h : toolExecutionAdmitted c object = .ok index) :
    IndexStep c kind index := by
  simp only [toolExecutionAdmitted, bind_eq_ok_iff, refuseWhen_eq_ok_iff, Bool.or_eq_true,
    not_or, Bool.not_eq_true', Bool.not_eq_false] at h
  obtain ⟨⟨executionId, admission⟩, read, _, ⟨⟨⟨actor, -⟩, -⟩, -⟩, done⟩ := h
  cases done
  exact .toolExecutionAdmission (toolExecution_ok read actor)

theorem toolExecutionRecorded_step (h : toolExecutionRecorded c object = .ok index) :
    IndexStep c kind index := by
  simp only [toolExecutionRecorded, bind_eq_ok_iff] at h
  obtain ⟨⟨executionId, admission⟩, read, _, -, _, -, executions, inserted, done⟩ := h
  cases done
  obtain rfl := insertFresh_ok inserted
  exact .toolExecution (toolExecution_id read)

theorem observationRecorded_step (h : observationRecorded c object = .ok index) :
    IndexStep c kind index := by
  simp only [observationRecorded, bind_eq_ok_iff, refuseWhen_eq_ok_iff, Bool.or_eq_true, not_or,
    Bool.not_eq_true', Bool.not_eq_false] at h
  obtain ⟨id, named, experimentId, tests, seed, -, _, ⟨-, known⟩, _, -, environmentHash, placed,
    rest⟩ := h
  have entry (replicationOf : Option String) (clean : Bool)
      (valid : c.replicationIsInvalid { experimentId, environmentHash, replicationOf, clean } =
        false) :
      c.observationIsInvalid (id, { experimentId, environmentHash, replicationOf, clean }) =
        false := by
    simp [observationIsInvalid, (nonEmpty_ok named).1, (nonEmpty_ok tests).1,
      (nonEmpty_ok placed).1, known, valid]
  split at rest
  · simp only [bind_eq_ok_iff, refuseWhen_eq_ok_iff] at rest
    obtain ⟨_, fresh, done⟩ := rest
    cases done
    exact .observation (entry _ _ (by simp_all [replicationIsInvalid]))
      (by simpa using fresh)
  · simp only [bind_eq_ok_iff, okOr_eq_ok_iff, refuseWhen_eq_ok_iff, not_or] at rest
    obtain ⟨parent, found, _, ⟨⟨⟨same, other⟩, clean⟩, -⟩, _, fresh, done⟩ := rest
    cases done
    exact .observation (entry _ _ (by simp_all [replicationIsInvalid]))
      (by simpa using fresh)

theorem settleOnce_ok {admissions : Table String} {settled settled' : IdSet}
    {key admissionId : String} (h : settleOnce admissions settled key admissionId = .ok settled') :
    settled' = settled.insert key := by
  simp only [settleOnce, bind_eq_ok_iff] at h
  obtain ⟨_, -, inserted⟩ := h
  exact insertFresh_ok inserted

theorem admitOnce_ok {admissions admissions' : Table String} {key admissionId : String}
    (h : admitOnce admissions key admissionId = .ok admissions') :
    admissions' = admissions.insert key admissionId := by
  simp only [admitOnce, bind_eq_ok_iff] at h
  obtain ⟨_, -, done⟩ := h
  exact (Except.ok.inj done).symm

theorem researchProgramAdmitted_step (h : researchProgramAdmitted c object = .ok index) :
    IndexStep c kind index := by
  simp only [researchProgramAdmitted, bind_eq_ok_iff, refuseWhen_eq_ok_iff, Bool.or_eq_true,
    not_or, Bool.not_eq_true', Bool.not_eq_false] at h
  obtain ⟨admissionId, admits, programHash, -, _, -, _, ⟨⟨⟨⟨-, digest⟩, -⟩, -⟩, -⟩, admissions,
    inserted, done⟩ := h
  cases done
  obtain rfl := admitOnce_ok inserted
  refine .researchProgramAdmission ?_
  simp [researchProgramAdmissionIsInvalid, digest, (nonEmpty_ok admits).1]

theorem researchProgramExecuted_step (h : researchProgramExecuted c object = .ok index) :
    IndexStep c kind index := by
  simp only [researchProgramExecuted, bind_eq_ok_iff, refuseWhen_eq_ok_iff, Bool.or_eq_true,
    not_or, Bool.not_eq_true', Bool.not_eq_false] at h
  obtain ⟨_, -, programHash, -, _, -, _, ⟨⟨⟨⟨⟨⟨-, -⟩, digest⟩, -⟩, -⟩, -⟩, -⟩, programs, settled,
    done⟩ := h
  cases done
  obtain rfl := settleOnce_ok settled
  exact .researchProgram digest

section Browser

variable {digests statuses : List String} {key admissionId : String}

theorem browserAction_ok (h : browserAction object digests statuses = .ok (key, admissionId)) :
    nonEmpty object "admission_id" = .ok admissionId ∧ nonEmpty object "action_id" = .ok key := by
  simp only [browserAction, bind_eq_ok_iff] at h
  obtain ⟨_, admits, _, acts, _, -, _, -, done⟩ := h
  obtain ⟨rfl, rfl⟩ := Prod.mk.inj (Except.ok.inj done)
  exact ⟨admits, acts⟩

theorem browserObservation_ok
    (h : browserObservation object digests statuses = .ok (key, admissionId)) :
    nonEmpty object "admission_id" = .ok admissionId ∧
      nonEmpty object "observation_id" = .ok key := by
  simp only [browserObservation, bind_eq_ok_iff] at h
  obtain ⟨_, admits, _, observes, _, -, _, -, done⟩ := h
  obtain ⟨rfl, rfl⟩ := Prod.mk.inj (Except.ok.inj done)
  exact ⟨admits, observes⟩

theorem not_admissionIsBlank {member member' : String}
    (h : nonEmpty object member = .ok admissionId ∧ nonEmpty object member' = .ok key) :
    admissionIsBlank (key, admissionId) = false := by
  simp [admissionIsBlank, (nonEmpty_ok h.1).1, (nonEmpty_ok h.2).1]

end Browser

theorem browserActionAdmitted_step (h : browserActionAdmitted c object = .ok index) :
    IndexStep c kind index := by
  simp only [browserActionAdmitted, bind_eq_ok_iff] at h
  obtain ⟨⟨key, admissionId⟩, read, admissions, inserted, done⟩ := h
  cases done
  obtain rfl := admitOnce_ok inserted
  exact .browserActionAdmission (not_admissionIsBlank (browserAction_ok read))

theorem browserActionRecorded_step (h : browserActionRecorded c object = .ok index) :
    IndexStep c kind index := by
  simp only [browserActionRecorded, bind_eq_ok_iff] at h
  obtain ⟨⟨key, admissionId⟩, read, actions, settled, done⟩ := h
  cases done
  obtain rfl := settleOnce_ok settled
  exact .browserAction (nonEmpty_ok (browserAction_ok read).2).1

theorem browserObservationAdmitted_step (h : browserObservationAdmitted c object = .ok index) :
    IndexStep c kind index := by
  simp only [browserObservationAdmitted, bind_eq_ok_iff] at h
  obtain ⟨⟨key, admissionId⟩, read, admissions, inserted, done⟩ := h
  cases done
  obtain rfl := admitOnce_ok inserted
  exact .browserObservationAdmission (not_admissionIsBlank (browserObservation_ok read))

theorem browserObservationRecorded_step (h : browserObservationRecorded c object = .ok index) :
    IndexStep c kind index := by
  simp only [browserObservationRecorded, bind_eq_ok_iff] at h
  obtain ⟨⟨key, admissionId⟩, read, observations, settled, done⟩ := h
  cases done
  obtain rfl := settleOnce_ok settled
  exact .browserObservation (nonEmpty_ok (browserObservation_ok read).2).1

/-- The index keeps the mission of a skill as it stands between the white space. -/
theorem skillAdmissionRecorded_ok (h : skillAdmissionRecorded c object = .ok index) :
    ∃ hash admission, isHexDigest hash = true ∧ isBlank admission.skillId = false ∧
      isBlank admission.version = false ∧
      (object.str? "mission_id").map trim = some admission.missionId ∧
      index = { c.index with
        skillAdmissions := c.index.skillAdmissions.insert hash admission } := by
  simp only [skillAdmissionRecorded, bind_eq_ok_iff, refuseWhen_eq_ok_iff, Bool.or_eq_true,
    not_or, Bool.not_eq_true', Bool.not_eq_false] at h
  obtain ⟨hash, -, skillId, skill, version, versioned, missionId, mission, _,
    ⟨⟨⟨⟨digest, -⟩, -⟩, -⟩, -⟩, _, -, _, -, _, -, _, -, done⟩ := h
  cases done
  exact ⟨hash, _, digest, (nonEmpty_ok skill).1, (nonEmpty_ok versioned).1,
    (nonEmpty_ok mission).2, rfl⟩

theorem skillAdmissionRecorded_step (h : skillAdmissionRecorded c object = .ok index) :
    IndexStep c .skillAdmissionRecorded index := by
  obtain ⟨hash, admission, digest, skill, version, -, rfl⟩ := skillAdmissionRecorded_ok h
  exact .skillAdmission rfl digest skill version

theorem skillExecutionRecorded_step (h : skillExecutionRecorded c object = .ok index) :
    IndexStep c kind index := by
  simp only [skillExecutionRecorded, bind_eq_ok_iff, refuseWhen_eq_ok_iff, Bool.or_eq_true,
    not_or, Bool.not_eq_true', Bool.not_eq_false] at h
  obtain ⟨hash, -, _, ⟨⟨⟨⟨⟨⟨digest, -⟩, -⟩, -⟩, -⟩, -⟩, -⟩, executions, inserted, done⟩ := h
  cases done
  obtain rfl := insertFresh_ok inserted
  exact .skillExecution digest

theorem cancellationAdmitted_step (h : cancellationAdmitted c object = .ok index) :
    IndexStep c kind index := by
  simp only [cancellationAdmitted, bind_eq_ok_iff] at h
  obtain ⟨_, admits, _, requests, _, -, _, -, _, -, _, -, _, -, admissions, inserted, done⟩ := h
  cases done
  obtain rfl := admitOnce_ok inserted
  refine .cancellationAdmission ?_
  simp [admissionIsBlank, (nonEmpty_ok admits).1, (nonEmpty_ok requests).1]

theorem cancellationRecorded_step (h : cancellationRecorded c object = .ok index) :
    IndexStep c kind index := by
  simp only [cancellationRecorded, bind_eq_ok_iff] at h
  obtain ⟨_, -, _, requests, _, -, _, -, _, -, _, -, cancellations, settled, done⟩ := h
  cases done
  obtain rfl := settleOnce_ok settled
  exact .cancellation (nonEmpty_ok requests).1

theorem validateProjectionPayload_step {externals : Externals} {payload : Json}
    (h : validateProjectionPayload externals c kind payload = .ok index) :
    IndexStep c kind index := by
  obtain ⟨object, -, h⟩ := bind_eq_ok_iff.mp h
  cases kind with
  | sourceCaptured => exact sourceCaptured_step h
  | claimRecorded => exact claimRecorded_step h
  | hypothesisRecorded => exact hypothesisRecorded_step h
  | experimentScheduled => exact experimentScheduled_step h
  | experimentExecutionAdmitted => exact experimentExecutionAdmitted_step h
  | experimentExecutionRecorded => exact experimentExecutionRecorded_step h
  | toolExecutionAdmitted => exact toolExecutionAdmitted_step h
  | toolExecutionRecorded => exact toolExecutionRecorded_step h
  | observationRecorded => exact observationRecorded_step h
  | researchProgramAdmitted => exact researchProgramAdmitted_step h
  | researchProgramExecuted => exact researchProgramExecuted_step h
  | browserActionAdmitted => exact browserActionAdmitted_step h
  | browserActionRecorded => exact browserActionRecorded_step h
  | browserObservationAdmitted => exact browserObservationAdmitted_step h
  | browserObservationRecorded => exact browserObservationRecorded_step h
  | skillAdmissionRecorded => exact skillAdmissionRecorded_step h
  | skillExecutionRecorded => exact skillExecutionRecorded_step h
  | cancellationAdmitted => exact cancellationAdmitted_step h
  | cancellationRecorded => exact cancellationRecorded_step h
  | executionCellManifestRecorded | reviewRecorded | securityEventRecorded | blockerRecorded
  | blockerResolved | finalizationStarted | finalizationReopened | stateChanged =>
      obtain ⟨_, -, done⟩ := bind_eq_ok_iff.mp h
      exact Except.ok.inj done ▸ .same
  | missionCreated | benchmarkEvaluated | budgetAdmitted => exact Except.ok.inj h ▸ .same

end Kinds

/-! ### Valid indexes -/

/-- Every entry of the index passes the check of a restored index. Of a skill admission this
says nothing about the mission. -/
structure IndexValid (c : LabController) : Prop where
  sources : c.index.sources.toList.any isBlank = false
  claims : c.index.claims.toList.any isBlank = false
  hypotheses : c.index.hypotheses.toList.any isBlank = false
  experiments : c.index.experiments.toList.any c.experimentIsInvalid = false
  observations : c.index.observations.toList.any c.observationIsInvalid = false
  experimentExecutionAdmissions : c.index.experimentExecutionAdmissions.toList.any
    c.experimentExecutionAdmissionIsInvalid = false
  experimentExecutions : c.index.experimentExecutions.toList.any isBlank = false
  toolExecutionAdmissions : c.index.toolExecutionAdmissions.toList.any
    toolExecutionAdmissionIsInvalid = false
  toolExecutions : c.index.toolExecutions.toList.any isBlank = false
  cancellationAdmissions : c.index.cancellationAdmissions.toList.any
    admissionIsBlank = false
  cancellations : c.index.cancellations.toList.any isBlank = false
  browserActionAdmissions : c.index.browserActionAdmissions.toList.any
    admissionIsBlank = false
  browserActions : c.index.browserActions.toList.any isBlank = false
  browserObservationAdmissions : c.index.browserObservationAdmissions.toList.any
    admissionIsBlank = false
  browserObservations : c.index.browserObservations.toList.any isBlank = false
  skillAdmissions : (c.index.skillAdmissions.toList.any fun entry =>
    !isHexDigest entry.1 || isBlank entry.2.skillId || isBlank entry.2.version) = false
  skillExecutions : c.index.skillExecutions.toList.any (!isHexDigest ·) = false
  researchPrograms : c.index.researchPrograms.toList.any (!isHexDigest ·) = false
  researchProgramAdmissions : c.index.researchProgramAdmissions.toList.any
    researchProgramAdmissionIsInvalid = false

/-- What an entry of the index may refer to: `d` knows all that `c` knows. -/
structure Knows (c d : LabController) : Prop where
  hypotheses : ∀ id, c.knowsHypothesis id = true → d.knowsHypothesis id = true
  experiments : ∀ id, c.knowsExperiment id = true → d.knowsExperiment id = true
  observations : TableGrows c.index.observations d.index.observations

section Valid

variable {c d : LabController} {kind : LabEventKind} {index : ProjectionIndex}

theorem any_eq_false_mono {α : Type} {entries : List α} {p q : α → Bool}
    (weaker : ∀ entry, q entry = true → p entry = true) (h : entries.any p = false) :
    entries.any q = false := by
  rw [List.any_eq_false] at h ⊢
  exact fun entry mem fault => h entry mem (weaker entry fault)

namespace Knows

theorem experimentIsInvalid (h : Knows c d) (entry : String × ProjectionExperiment)
    (invalid : d.experimentIsInvalid entry = true) : c.experimentIsInvalid entry = true := by
  have known := h.hypotheses entry.2.hypothesisId
  simp only [LabController.experimentIsInvalid, Bool.or_eq_true, Bool.not_eq_true'] at invalid ⊢
  grind

theorem experimentExecutionAdmissionIsInvalid (h : Knows c d)
    (entry : String × ProjectionExperimentExecutionAdmission)
    (invalid : d.experimentExecutionAdmissionIsInvalid entry = true) :
    c.experimentExecutionAdmissionIsInvalid entry = true := by
  have known := h.experiments entry.2.experimentId
  simp only [LabController.experimentExecutionAdmissionIsInvalid, Bool.or_eq_true,
    Bool.not_eq_true'] at invalid ⊢
  grind

theorem replicationIsInvalid (h : Knows c d) (observation : ProjectionObservation)
    (invalid : d.replicationIsInvalid observation = true) :
    c.replicationIsInvalid observation = true := by
  simp only [LabController.replicationIsInvalid, any_eq_true] at invalid ⊢
  obtain ⟨parentId, replicates, fault⟩ := invalid
  refine ⟨parentId, replicates, ?_⟩
  cases parent : c.index.observations[parentId]? with
  | none => rfl
  | some observed => rwa [h.observations _ _ parent] at fault

theorem observationIsInvalid (h : Knows c d) (entry : String × ProjectionObservation)
    (invalid : d.observationIsInvalid entry = true) : c.observationIsInvalid entry = true := by
  have known := h.experiments entry.2.experimentId
  have replication := h.replicationIsInvalid entry.2
  simp only [LabController.observationIsInvalid, Bool.or_eq_true, Bool.not_eq_true'] at invalid ⊢
  grind

end Knows

theorem insert_knows {ids : IdSet} {held : Bool} {id : String} (other : String)
    (h : (ids.contains other || held) = true) :
    ((ids.insert id).contains other || held) = true := by
  rw [Bool.or_eq_true] at h ⊢
  refine h.imp_left fun mem => ?_
  rw [Std.ExtTreeSet.contains_insert, mem, Bool.or_true]

theorem insert_knows_table {V : Type} {table : Table V} {held : Bool} {id : String} {v : V}
    (other : String) (h : (table.contains other || held) = true) :
    ((table.insert id v).contains other || held) = true := by
  rw [Bool.or_eq_true] at h ⊢
  refine h.imp_left fun mem => ?_
  rw [Std.ExtTreeMap.contains_insert, mem, Bool.or_true]

theorem knows_hypothesis {id : String} :
    Knows c { c with index := { c.index with
      hypotheses := c.index.hypotheses.insert id } } := by
  refine ⟨fun other known => ?_, fun _ known => known, .refl⟩
  rw [knowsHypothesis] at known ⊢
  exact insert_knows other known

theorem knows_experiment {id : String} {experiment : ProjectionExperiment} :
    Knows c { c with index := { c.index with
      experiments := c.index.experiments.insert id experiment } } := by
  refine ⟨fun _ known => known, fun other known => ?_, .refl⟩
  rw [knowsExperiment] at known ⊢
  exact insert_knows_table other known

/-- A payload keeps the index valid. -/
theorem IndexStep.valid (step : IndexStep c kind index) (h : IndexValid c) :
    IndexValid { c with index } := by
  cases step with
  | same => exact h
  | source text => exact { h with sources := any_toList_insert_set h.sources text }
  | claim text => exact { h with claims := any_toList_insert_set h.claims text }
  | hypothesis text =>
      exact { h with
        hypotheses := any_toList_insert_set h.hypotheses text
        experiments := any_eq_false_mono knows_hypothesis.experimentIsInvalid h.experiments }
  | experiment valid =>
      exact { h with
        experiments := any_toList_insert h.experiments valid
        observations := any_eq_false_mono knows_experiment.observationIsInvalid h.observations
        experimentExecutionAdmissions := any_eq_false_mono
          knows_experiment.experimentExecutionAdmissionIsInvalid
          h.experimentExecutionAdmissions }
  | @observation id observation valid fresh =>
      have knows : Knows c { c with index := { c.index with
          observations := c.index.observations.insert id observation } } :=
        ⟨fun _ known => known, fun _ known => known, .insert fresh⟩
      exact { h with
        observations := any_eq_false_mono knows.observationIsInvalid
          (any_toList_insert h.observations valid) }
  | experimentExecutionAdmission valid =>
      exact { h with
        experimentExecutionAdmissions :=
          any_toList_insert h.experimentExecutionAdmissions valid }
  | experimentExecution text =>
      exact { h with
        experimentExecutions := any_toList_insert_set h.experimentExecutions text }
  | toolExecutionAdmission valid =>
      exact { h with
        toolExecutionAdmissions := any_toList_insert h.toolExecutionAdmissions valid }
  | toolExecution text =>
      exact { h with toolExecutions := any_toList_insert_set h.toolExecutions text }
  | cancellationAdmission valid =>
      exact { h with
        cancellationAdmissions := any_toList_insert h.cancellationAdmissions valid }
  | cancellation text =>
      exact { h with cancellations := any_toList_insert_set h.cancellations text }
  | browserActionAdmission valid =>
      exact { h with
        browserActionAdmissions := any_toList_insert h.browserActionAdmissions valid }
  | browserAction text =>
      exact { h with browserActions := any_toList_insert_set h.browserActions text }
  | browserObservationAdmission valid =>
      exact { h with
        browserObservationAdmissions :=
          any_toList_insert h.browserObservationAdmissions valid }
  | browserObservation text =>
      exact { h with
        browserObservations := any_toList_insert_set h.browserObservations text }
  | skillAdmission admits digest skill version =>
      exact { h with
        skillAdmissions :=
          any_toList_insert h.skillAdmissions (by simp [digest, skill, version]) }
  | skillExecution digest =>
      exact { h with
        skillExecutions := any_toList_insert_set h.skillExecutions (by simp [digest]) }
  | researchProgramAdmission valid =>
      exact { h with
        researchProgramAdmissions :=
          any_toList_insert h.researchProgramAdmissions valid }
  | researchProgram digest =>
      exact { h with
        researchPrograms := any_toList_insert_set h.researchPrograms (by simp [digest]) }

/-- The index stays valid when the controller learns more. -/
theorem IndexValid.mono (h : IndexValid c) (index : d.index = c.index) (knows : Knows c d) :
    IndexValid d where
  sources := index ▸ h.sources
  claims := index ▸ h.claims
  hypotheses := index ▸ h.hypotheses
  experiments := index ▸ any_eq_false_mono knows.experimentIsInvalid h.experiments
  observations := index ▸ any_eq_false_mono knows.observationIsInvalid h.observations
  experimentExecutionAdmissions := index ▸ any_eq_false_mono
    knows.experimentExecutionAdmissionIsInvalid h.experimentExecutionAdmissions
  experimentExecutions := index ▸ h.experimentExecutions
  toolExecutionAdmissions := index ▸ h.toolExecutionAdmissions
  toolExecutions := index ▸ h.toolExecutions
  cancellationAdmissions := index ▸ h.cancellationAdmissions
  cancellations := index ▸ h.cancellations
  browserActionAdmissions := index ▸ h.browserActionAdmissions
  browserActions := index ▸ h.browserActions
  browserObservationAdmissions := index ▸ h.browserObservationAdmissions
  browserObservations := index ▸ h.browserObservations
  skillAdmissions := index ▸ h.skillAdmissions
  skillExecutions := index ▸ h.skillExecutions
  researchPrograms := index ▸ h.researchPrograms
  researchProgramAdmissions := index ▸ h.researchProgramAdmissions

/-- Typed records are only added, so what is known stays known. -/
theorem AddsRecord.knows {r : LabRuntime} (adds : AddsRecord c.runtime r)
    (same : SameRecords r d.runtime) (index : d.index = c.index) : Knows c d := by
  refine ⟨fun id known => ?_, fun id known => ?_, fun _ _ held => index ▸ held⟩
  · rw [knowsHypothesis, index, same.hypotheses]
    cases adds with
    | hypothesis =>
        rw [Bool.or_comm]
        exact insert_knows_table id ((Bool.or_comm ..).trans known)
    | _ => exact known
  · rw [knowsExperiment, index, same.experiments]
    cases adds with
    | experiment =>
        rw [Bool.or_comm]
        exact insert_knows_table id ((Bool.or_comm ..).trans known)
    | _ => exact known

end Valid

section Moves

variable {externals : Externals} {c d : LabController} {call : Call}

/-- The index after a move is that of the payload, if the move brings one. -/
theorem Move.indexStep (move : Move externals call c d) : ∃ kind, IndexStep c kind d.index := by
  cases move with
  | projectedRecord parsed admission => exact ⟨_, validateProjectionPayload_step admission.indexed⟩
  | _ => exact ⟨.missionCreated, .same⟩

theorem Move.indexValid (move : Move externals call c d) (h : IndexValid c) : IndexValid d := by
  obtain ⟨r, adds, same⟩ := move.records
  obtain ⟨kind, step⟩ := move.indexStep
  refine (step.valid h).mono rfl ?_
  exact AddsRecord.knows (c := { c with index := d.index }) adds same rfl

theorem indexValid_new {mission : LabMissionSpec} {start : LabController}
    (created : LabController.new externals mission = .ok start) : IndexValid start := by
  obtain ⟨-, budget, -, rfl⟩ := new_ok created
  constructor <;> simp [ProjectionIndex.empty]

/-- Every skill of the index was admitted for this mission. -/
def SkillsMatch (c : LabController) : Prop :=
  ∀ (hash : String) (admission : ProjectionSkillAdmission),
    c.index.skillAdmissions[hash]? = some admission → admission.missionId = c.mission.missionId

theorem IndexStep.skillAdmissions {kind : LabEventKind} {index : ProjectionIndex}
    (step : IndexStep c kind index) (other : kind ≠ .skillAdmissionRecorded) :
    index.skillAdmissions = c.index.skillAdmissions := by
  cases step with
  | skillAdmission admits => exact absurd admits other
  | _ => rfl

/-- The index keeps the id of the mission without the white space around it. -/
theorem Admission.skillsMatch {event : LabEvent} {payload : Json}
    {projectionState : Option LabRunState}
    (a : Admission externals c event payload projectionState)
    (kind : event.kind = .skillAdmissionRecorded) (h : SkillsMatch c)
    (trimmed : isTrimmed c.mission.missionId = true) : SkillsMatch { c with index := a.index } := by
  have indexed := a.indexed
  have bindings := a.bindings
  simp only [kind, validateProjectionPayload, validateProjectionBinding, validateReplayParent,
    bind_eq_ok_iff, okOr_eq_ok_iff, refuseWhen_eq_ok_iff, not_or, ne_eq, not_not]
    at indexed bindings
  obtain ⟨object, read, admitted⟩ := indexed
  obtain ⟨object', read', _, -, _, -, _, ⟨missionId, named, _, -, rfl, -⟩, -⟩ := bindings
  obtain rfl := Option.some.inj (read.symm.trans read')
  obtain ⟨hash, admission, -, -, -, stored, same⟩ := skillAdmissionRecorded_ok admitted
  intro other kept held
  rw [same] at held
  obtain ⟨-, rfl⟩ | ⟨-, old⟩ := getElem?_insert_eq_some_iff.mp held
  · rw [named] at stored
    have id : trim c.mission.missionId = admission.missionId := Option.some.inj stored
    rw [← id]
    exact beq_iff_eq.mp trimmed
  · exact h other kept old

theorem Move.skillsMatch (move : Move externals call c d) (h : SkillsMatch c)
    (trimmed : ∀ event payloadJson projectionState,
      call = .admitProjectionRecord event payloadJson projectionState →
        event.kind = .skillAdmissionRecorded → isTrimmed c.mission.missionId = true) :
    SkillsMatch d := by
  have mission := move.appends.choose_spec.mission
  intro hash admission held
  rw [mission]
  cases move with
  | @projectedRecord c event payloadJson payload projectionState parsed a =>
      by_cases kind : event.kind = .skillAdmissionRecorded
      · exact a.skillsMatch kind h (trimmed event payloadJson projectionState rfl kind) hash
          admission held
      · have same := (validateProjectionPayload_step a.indexed).skillAdmissions kind
        exact h hash admission (same ▸ held)
  | _ => exact h hash admission held

/-- An index without a fault passes, once the missions of the skills are right. -/
theorem IndexValid.validateIndex (h : IndexValid c)
    (skills : SkillsMatch c) : c.validateIndex = .ok () := by
  have admissions : c.index.skillAdmissions.toList.any c.skillAdmissionIsInvalid = false := by
    have valid := h.skillAdmissions
    rw [List.any_eq_false] at valid ⊢
    rintro ⟨hash, admission⟩ mem
    have mission := skills hash admission (Std.ExtTreeMap.mem_toList_iff_getElem?_eq_some.mp mem)
    simpa [LabController.skillAdmissionIsInvalid, mission] using valid _ mem
  simp [LabController.validateIndex, bind_eq_ok_iff, refuseWhen_eq_ok_iff, h.sources, h.claims,
    h.hypotheses, h.experiments, h.observations, h.experimentExecutionAdmissions,
    h.experimentExecutions, h.toolExecutionAdmissions, h.toolExecutions, h.cancellationAdmissions,
    h.cancellations, h.browserActionAdmissions, h.browserActions, h.browserObservationAdmissions,
    h.browserObservations, h.skillExecutions, admissions]

end Moves

end Aegis.Lab
