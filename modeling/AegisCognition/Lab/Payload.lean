import AegisCognition.Lab.Verification

/-!
# Projected payloads

What a payload of each kind has to hold, which states take it, and the typed records that
are made of it. An effect comes in two events: its admission, under an id that is not in
use, and its record, which has to repeat the admission and can only be made once.
-/

namespace Aegis.Lab

open Foundation LabRuntime OrderedMap
open Replay (Hash)

/-! ### States that take a payload -/

def projectionStateAllows (state : LabRunState) : LabEventKind → Bool
  | .executionCellManifestRecorded => state == .planned
  | .sourceCaptured => state == .researching
  | .claimRecorded | .hypothesisRecorded | .experimentScheduled =>
      acceptsFindings state
  | .observationRecorded => state == .experimenting || state == .reviewing
  | .experimentExecutionAdmitted | .experimentExecutionRecorded =>
      state == .experimenting || state == .reviewing || state == .blocked
  | .toolExecutionAdmitted =>
      state == .planned || state == .researching || state == .experimenting ||
        state == .reviewing
  | .toolExecutionRecorded => state != .completed
  | .cancellationAdmitted => state != .completed && state != .aborted
  | .cancellationRecorded => state != .completed
  | .finalizationStarted => acceptsFindings state
  | .finalizationReopened => acceptsFindings state || state == .blocked
  | .stateChanged => true
  | .reviewRecorded => state != .aborted
  | _ => state != .completed && state != .aborted

/-! ### Admissions and the effects recorded against them -/

/-- A key and an admission id that are both new. -/
def admitOnce (admissions : Table String) (key admissionId : String) :
    Except LabError (Table String) := do
  refuseWhen
    (admissions.contains key || (valueList admissions).contains admissionId)
    .invalidRecord
  pure (admissions.insert key admissionId)

/-- The record of an admitted effect, which is made once. -/
def settleOnce (admissions : Table String) (settled : IdSet) (key admissionId : String) :
    Except LabError IdSet := do
  refuseWhen (admissions[key]? ≠ some admissionId) .invalidRecord
  insertFresh settled key

section Kinds

variable (c : LabController) (object : JsonObject)

def sourceCaptured : Except LabError ProjectionIndex := do
  let id ← nonEmpty object "source_id"
  let uri ← nonEmpty object "uri"
  refuseWhen
    (!"https://".toList.isPrefixOf uri.toList || !hasText object "content_hash" ||
      !hasText object "snapshot_hash" || !(object.u64? "retrieved_at_ms").any (· != 0) ||
      !hasPositive object "trust_tier" u8Max)
    .invalidRecord
  let _ ← nonEmpty object "extractor"
  let sources ← insertFresh c.index.sources id
  pure { c.index with sources }

def claimRecorded : Except LabError ProjectionIndex := do
  let id ← nonEmpty object "claim_id"
  let _ ← nonEmpty object "statement"
  let sources ← stringArray object "source_ids"
  refuseWhen sources.isEmpty .invalidRecord
  let _ ← boundedU64 object "confidence_bps" 10000
  refuseWhen (sources.any (!c.knowsSource ·)) .invalidRecord
  let claims ← insertFresh c.index.claims id
  pure { c.index with claims }

def hypothesisRecorded : Except LabError ProjectionIndex := do
  let id ← nonEmpty object "hypothesis_id"
  let _ ← nonEmpty object "statement"
  let _ ← boundedU64 object "prior_bps" 10000
  let falsifiers ← stringArray object "falsifiers"
  refuseWhen falsifiers.isEmpty .invalidRecord
  let supporting ← stringArray object "supporting_claim_ids"
  let contradicting ← stringArray object "contradicting_claim_ids"
  refuseWhen ((supporting ++ contradicting).any (!c.knowsClaim ·)) .invalidRecord
  let hypotheses ← insertFresh c.index.hypotheses id
  pure { c.index with hypotheses }

def experimentScheduled : Except LabError ProjectionIndex := do
  let id ← nonEmpty object "experiment_id"
  let hypothesisId ← nonEmpty object "hypothesis_id"
  let _ ← nonEmpty object "design"
  let seedValues ← okOr .invalidRecord (object.array? "preregistered_seeds")
  let variableNames ← stringArray object "variables"
  let controls ← stringArray object "controls"
  refuseWhen (variableNames.isEmpty || controls.isEmpty || seedValues.length < 5) .invalidRecord
  let seeds ← seedValues.mapM fun value => okOr .invalidRecord value.asU64
  let preregisteredSeeds := Std.ExtTreeSet.ofList seeds
  refuseWhen
    (preregisteredSeeds.size < 5 || !hasPositive object "expected_observations" u32Max ||
      !c.knowsHypothesis hypothesisId || c.knowsExperiment id)
    .invalidRecord
  pure { c.index with
    experiments := c.index.experiments.insert id { hypothesisId, preregisteredSeeds } }

def experimentExecutionAdmitted : Except LabError ProjectionIndex := do
  let admissionId ← nonEmpty object "admission_id"
  let executionId ← nonEmpty object "execution_id"
  let experimentId ← nonEmpty object "experiment_id"
  let attempt ← attemptField object
  refuseWhen (!c.knowsExperiment experimentId) .invalidRecord
  let inputHash ← nonEmpty object "input_hash"
  let policyHash ← nonEmpty object "policy_hash"
  let admissions := c.index.experimentExecutionAdmissions
  refuseWhen
    (!isHexDigest inputHash || !isHexDigest policyHash || !statusIn object ["ADMITTED"] ||
      admissions.contains executionId ||
      (valueList admissions).any (·.admissionId == admissionId))
    .invalidRecord
  pure { c.index with
    experimentExecutionAdmissions := admissions.insert executionId
      { admissionId, experimentId, attempt, inputHash, policyHash } }

def experimentExecutionRecorded : Except LabError ProjectionIndex := do
  let admissionId ← nonEmpty object "admission_id"
  let executionId ← nonEmpty object "execution_id"
  let experimentId ← nonEmpty object "experiment_id"
  let attempt ← attemptField object
  let _ ← boundedU64 object "observation_count" u32Max
  let inputHash ← nonEmpty object "input_hash"
  let resultHash ← nonEmpty object "result_hash"
  let policyHash ← nonEmpty object "policy_hash"
  refuseWhen
    (!isHexDigest inputHash || !isHexDigest resultHash || !isHexDigest policyHash ||
      !statusIn object ["SUCCESS", "REJECTED", "TIMED_OUT", "CANCELLED"] ||
      c.index.experimentExecutionAdmissions[executionId]? !=
        some { admissionId, experimentId, attempt, inputHash, policyHash })
    .invalidRecord
  let experimentExecutions ← insertFresh c.index.experimentExecutions executionId
  pure { c.index with experimentExecutions }

/-- The members that the admission and the record of a tool call share. -/
def toolExecution : Except LabError (String × ProjectionToolExecutionAdmission) := do
  let admissionId ← nonEmpty object "admission_id"
  let executionId ← nonEmpty object "execution_id"
  let toolName ← nonEmpty object "tool_name"
  let effectClass ← nonEmpty object "effect_class"
  let actorRole ← nonEmpty object "actor_role"
  let expectedObservationSchema ← nonEmpty object "expected_observation_schema"
  let stopRule ← nonEmpty object "stop_rule"
  let attempt ← attemptField object
  let leaseId ← okOr .invalidRecord ((object.u64? "lease_id").filter (0 < ·))
  let inputHash ← nonEmpty object "input_hash"
  let policyHash ← nonEmpty object "policy_hash"
  let managedInternal ← managedInternalField object
  refuseWhen (!isHexDigest inputHash || !isHexDigest policyHash) .invalidRecord
  pure (executionId,
    { admissionId, toolName, attempt, leaseId, effectClass, actorRole
      expectedObservationSchema, stopRule, inputHash, policyHash, managedInternal })

def toolExecutionAdmitted : Except LabError ProjectionIndex := do
  let (executionId, admission) ← toolExecution object
  let admissions := c.index.toolExecutionAdmissions
  refuseWhen
    (!(["actor", "observer"].contains admission.actorRole) || !statusIn object ["ADMITTED"] ||
      admissions.contains executionId ||
      (valueList admissions).any (·.admissionId == admission.admissionId))
    .invalidRecord
  pure { c.index with toolExecutionAdmissions := admissions.insert executionId admission }

def toolExecutionRecorded : Except LabError ProjectionIndex := do
  let (executionId, admission) ← toolExecution object
  let resultHash ← nonEmpty object "result_hash"
  refuseWhen
    (!isHexDigest resultHash ||
      !statusIn object ["SUCCESS", "REJECTED", "TIMED_OUT", "CANCELLED"] ||
      (c.runtime.state == .aborted && !statusIn object ["CANCELLED"]) ||
      c.index.toolExecutionAdmissions[executionId]? != some admission)
    .invalidRecord
  let toolExecutions ← insertFresh c.index.toolExecutions executionId
  pure { c.index with toolExecutions }

/-- The seeds that the experiment was registered with, the index coming first. -/
def registersSeed (experimentId : String) (seed : Nat) : Bool :=
  match c.index.experiments[experimentId]? with
  | some experiment => experiment.preregisteredSeeds.contains seed
  | none => c.runtime.experiments[experimentId]?.any (·.preregisteredSeeds.contains seed)

def observationRecorded : Except LabError ProjectionIndex := do
  let id ← nonEmpty object "observation_id"
  let experimentId ← nonEmpty object "experiment_id"
  let seed ← okOr .invalidRecord (object.u64? "seed")
  refuseWhen
    (!(object.f64? "measurement").any (·.isFinite) || !hasText object "unit" ||
      !hasText object "raw_artifact_hash" || !hasText object "environment_hash" ||
      !(object.str? "epistemic_status").any isEpistemicStatus || !c.knowsExperiment experimentId)
    .invalidRecord
  refuseWhen (!registersSeed c experimentId seed) .invalidRecord
  let replicationOf := object.str? "replication_of"
  let clean := (object.bool? "clean").getD false
  let environmentHash ← nonEmpty object "environment_hash"
  match replicationOf with
  | none => pure ()
  | some parentId =>
      let parent ← okOr .invalidRecord c.index.observations[parentId]?
      refuseWhen
        (parent.experimentId != experimentId || parent.environmentHash == environmentHash ||
          !clean || !hasText object "operator_id")
        .invalidRecord
  refuseWhen (c.index.observations.contains id) .invalidRecord
  pure { c.index with
    observations := c.index.observations.insert id
      { experimentId, environmentHash, replicationOf, clean } }

def researchProgramAdmitted : Except LabError ProjectionIndex := do
  let admissionId ← nonEmpty object "admission_id"
  let programHash ← nonEmpty object "program_hash"
  let _ ← nonEmpty object "provider"
  refuseWhen
    (!hasPositive object "operation_count" u32Max || !isHexDigest programHash ||
      !hasDigest object "input_hash" || !hasDigest object "policy_hash" ||
      !statusIn object ["ADMITTED"])
    .invalidRecord
  let researchProgramAdmissions ←
    admitOnce c.index.researchProgramAdmissions programHash admissionId
  pure { c.index with researchProgramAdmissions }

def researchProgramExecuted : Except LabError ProjectionIndex := do
  let admissionId ← nonEmpty object "admission_id"
  let programHash ← nonEmpty object "program_hash"
  let _ ← nonEmpty object "provider"
  refuseWhen
    (!hasPositive object "operation_count" u32Max ||
      !(object.u64? "candidate_count").any (· ≤ u32Max) || !isHexDigest programHash ||
      !hasDigest object "input_hash" || !hasDigest object "result_hash" ||
      !hasDigest object "policy_hash" || !statusIn object ["SUCCESS", "REJECTED", "CANCELLED"])
    .invalidRecord
  let researchPrograms ← settleOnce c.index.researchProgramAdmissions c.index.researchPrograms
    programHash admissionId
  pure { c.index with researchPrograms }

def isBrowserActionKind (kind : String) : Bool :=
  ["launch", "goto", "click", "fill", "type", "wait"].contains kind

/-- The members that the admission and the record of a browser action share. -/
def browserAction (digests statuses : List String) : Except LabError (String × String) := do
  let admissionId ← nonEmpty object "admission_id"
  let actionId ← nonEmpty object "action_id"
  let actionKind ← nonEmpty object "action_kind"
  refuseWhen
    (!isBrowserActionKind actionKind || !(object.u64? "lease_id").any (· != 0) ||
      object.str? "actor_role" != some "actor" || !statusIn object statuses ||
      digests.any (!hasDigest object ·))
    .invalidRecord
  pure (actionId, admissionId)

def browserActionAdmitted : Except LabError ProjectionIndex := do
  let (actionId, admissionId) ← browserAction object ["input_hash", "policy_hash"] ["ADMITTED"]
  let browserActionAdmissions ← admitOnce c.index.browserActionAdmissions actionId admissionId
  pure { c.index with browserActionAdmissions }

def browserActionRecorded : Except LabError ProjectionIndex := do
  let (actionId, admissionId) ← browserAction object ["input_hash", "result_hash", "policy_hash"]
    ["SUCCESS", "REJECTED", "CANCELLED"]
  let browserActions ← settleOnce c.index.browserActionAdmissions c.index.browserActions actionId
    admissionId
  pure { c.index with browserActions }

def isBrowserObservationKind (kind : String) : Bool :=
  ["read_url", "accessibility", "network_log", "wait"].contains kind

/-- The members that the admission and the record of a browser observation share. -/
def browserObservation (digests statuses : List String) : Except LabError (String × String) := do
  let admissionId ← nonEmpty object "admission_id"
  let observationId ← nonEmpty object "observation_id"
  let observationKind ← nonEmpty object "observation_kind"
  refuseWhen
    (!isBrowserObservationKind observationKind ||
      object.str? "observer_role" != some "observer" || !statusIn object statuses ||
      !(object.u64? "lease_id").any (· != 0) || !(object.u64? "observation_count").any (· != 0) ||
      digests.any (!hasDigest object ·))
    .invalidRecord
  pure (observationId, admissionId)

def browserObservationAdmitted : Except LabError ProjectionIndex := do
  let (observationId, admissionId) ←
    browserObservation object ["input_hash", "policy_hash"] ["ADMITTED"]
  let browserObservationAdmissions ←
    admitOnce c.index.browserObservationAdmissions observationId admissionId
  pure { c.index with browserObservationAdmissions }

def browserObservationRecorded : Except LabError ProjectionIndex := do
  let (observationId, admissionId) ←
    browserObservation object ["input_hash", "result_hash", "policy_hash"]
      ["SUCCESS", "REJECTED", "CANCELLED"]
  let browserObservations ← settleOnce c.index.browserObservationAdmissions
    c.index.browserObservations observationId admissionId
  pure { c.index with browserObservations }

def preconditionName (result : Json) : Except LabError String := do
  let pair ← okOr .invalidRecord result.asArray
  match pair with
  | [name, held] =>
      refuseWhen (held.asBool ≠ some true) .invalidRecord
      okOr .invalidRecord (name.asStr.filter (!isBlank ·))
  | _ => throw .invalidRecord

def skillAdmissionRecorded : Except LabError ProjectionIndex := do
  let admissionHash ← nonEmpty object "admission_hash"
  let skillId ← nonEmpty object "skill_id"
  let version ← nonEmpty object "version"
  let missionId ← nonEmpty object "mission_id"
  refuseWhen
    (!isHexDigest admissionHash || !hasDigest object "manifest_hash" ||
      !hasDigest object "replay_parent_hash" || (object.u64? "mission_epoch").isNone ||
      (stringArray object "granted_capabilities").toOption.isNone)
    .invalidRecord
  let results ← okOr .invalidRecord (object.array? "precondition_results")
  let names ← results.mapM preconditionName
  refuseWhen (¬ names.IsChain (· < ·)) .invalidRecord
  refuseWhen (c.index.skillAdmissions.contains admissionHash) .invalidRecord
  pure { c.index with
    skillAdmissions := c.index.skillAdmissions.insert admissionHash
      { skillId, version, missionId } }

def skillExecutionRecorded : Except LabError ProjectionIndex := do
  let executionHash ← nonEmpty object "execution_hash"
  refuseWhen
    (!isHexDigest executionHash || !hasDigest object "admission_hash" ||
      !hasDigest object "input_hash" || !hasDigest object "result_hash" ||
      !hasDigest object "artifact_hash" ||
      ["skill_id", "version", "mission_id", "replay_parent_hash", "validator_version"].any
        (!hasText object ·) ||
      !statusIn object ["SUCCESS", "REJECTED", "CANCELLED"])
    .invalidRecord
  let skillExecutions ← insertFresh c.index.skillExecutions executionHash
  pure { c.index with skillExecutions }

def cancellationAdmitted : Except LabError ProjectionIndex := do
  let admissionId ← nonEmpty object "admission_id"
  let requestId ← nonEmpty object "request_id"
  let _ ← nonEmpty object "mission_id"
  let _ ← nonEmpty object "reason"
  let inputHash ← nonEmpty object "input_hash"
  let policyHash ← nonEmpty object "policy_hash"
  refuseWhen
    (!isHexDigest inputHash || !isHexDigest policyHash || !statusIn object ["ADMITTED"])
    .invalidRecord
  let cancellationAdmissions ← admitOnce c.index.cancellationAdmissions requestId admissionId
  pure { c.index with cancellationAdmissions }

def cancellationRecorded : Except LabError ProjectionIndex := do
  let admissionId ← nonEmpty object "admission_id"
  let requestId ← nonEmpty object "request_id"
  let _ ← nonEmpty object "mission_id"
  let _ ← nonEmpty object "reason"
  let resultHash ← nonEmpty object "result_hash"
  refuseWhen (!isHexDigest resultHash || !statusIn object ["SUCCESS", "REJECTED"]) .invalidRecord
  let cancellations ← settleOnce c.index.cancellationAdmissions c.index.cancellations requestId
    admissionId
  pure { c.index with cancellations }

end Kinds

def validateProjectionPayload (externals : Externals) (c : LabController) (kind : LabEventKind)
    (payload : Json) : Except LabError ProjectionIndex := do
  let object ← okOr .invalidRecord payload.asObject
  match kind with
  | .executionCellManifestRecorded =>
      validateManifestPayload externals object
      pure c.index
  | .sourceCaptured => sourceCaptured c object
  | .claimRecorded => claimRecorded c object
  | .hypothesisRecorded => hypothesisRecorded c object
  | .experimentScheduled => experimentScheduled c object
  | .experimentExecutionAdmitted => experimentExecutionAdmitted c object
  | .experimentExecutionRecorded => experimentExecutionRecorded c object
  | .toolExecutionAdmitted => toolExecutionAdmitted c object
  | .toolExecutionRecorded => toolExecutionRecorded c object
  | .observationRecorded => observationRecorded c object
  | .researchProgramAdmitted => researchProgramAdmitted c object
  | .researchProgramExecuted => researchProgramExecuted c object
  | .browserActionAdmitted => browserActionAdmitted c object
  | .browserActionRecorded => browserActionRecorded c object
  | .browserObservationAdmitted => browserObservationAdmitted c object
  | .browserObservationRecorded => browserObservationRecorded c object
  | .skillAdmissionRecorded => skillAdmissionRecorded c object
  | .skillExecutionRecorded => skillExecutionRecorded c object
  | .cancellationAdmitted => cancellationAdmitted c object
  | .cancellationRecorded => cancellationRecorded c object
  | .reviewRecorded =>
      validateGoalVerificationRecord externals c object
      pure c.index
  | .securityEventRecorded | .blockerRecorded | .blockerResolved | .finalizationStarted
  | .finalizationReopened =>
      let _ ← nonEmpty object "reason"
      pure c.index
  | .stateChanged =>
      let _ ← nonEmpty object "state"
      pure c.index
  | .missionCreated | .benchmarkEvaluated | .budgetAdmitted => pure c.index

/-! ### Typed records made of payloads -/

section Reading

variable (object : JsonObject)

def stringField (key : String) : Except LabError String :=
  okOr .invalidRecord (object.str? key)

def natField (key : String) (maximum : Nat) : Except LabError Nat :=
  okOr .invalidRecord ((object.u64? key).filter (· ≤ maximum))

def boolField (key : String) : Except LabError Bool :=
  okOr .invalidRecord (object.bool? key)

def stringsField (key : String) : Except LabError (List String) := do
  let values ← okOr .invalidRecord (object.array? key)
  values.mapM fun value => okOr .invalidRecord value.asStr

/-- A member that is missing, null or read by `read`. -/
def optionalField {α : Type} (key : String) (read : Json → Option α) :
    Except LabError (Option α) :=
  match object.get? key with
  | none | some .null => .ok none
  | some value => some <$> okOr .invalidRecord (read value)

def readSourceRecord (contentHash snapshotHash : Hash) : Except LabError SourceRecord := do
  let provenanceCluster ←
    match object.get? "provenance_cluster" with
    | none => pure ""
    | some value => okOr .invalidRecord value.asStr
  pure
    { sourceId := ← stringField object "source_id"
      uri := ← stringField object "uri"
      retrievedAtMs := ← natField object "retrieved_at_ms" u64Max
      contentHash, snapshotHash
      trustTier := ← natField object "trust_tier" u8Max
      extractor := ← stringField object "extractor"
      provenanceCluster }

def readClaimStatus (status : String) : Except LabError ClaimStatus :=
  match (trim status).map Char.toLower with
  | "supported" => .ok .supported
  | "contradicted" => .ok .contradicted
  | "unresolved" | "inconclusive" => .ok .unresolved
  | _ => .error .invalidRecord

def readClaimRecord : Except LabError ClaimRecord := do
  let status ← readClaimStatus (← stringField object "status")
  pure
    { claimId := ← stringField object "claim_id"
      statement := ← stringField object "statement"
      sourceIds := ← stringsField object "source_ids"
      confidenceBps := ← natField object "confidence_bps" (2 ^ 16 - 1)
      status }

def readHypothesisRecord : Except LabError HypothesisRecord := do
  pure
    { hypothesisId := ← stringField object "hypothesis_id"
      statement := ← stringField object "statement"
      priorBps := ← natField object "prior_bps" (2 ^ 16 - 1)
      falsifiers := ← stringsField object "falsifiers"
      supportingClaimIds := ← stringsField object "supporting_claim_ids"
      contradictingClaimIds := ← stringsField object "contradicting_claim_ids" }

def readExperimentSpec : Except LabError ExperimentSpec := do
  let seeds ← okOr .invalidRecord (object.array? "preregistered_seeds")
  pure
    { experimentId := ← stringField object "experiment_id"
      hypothesisId := ← stringField object "hypothesis_id"
      design := ← stringField object "design"
      variableNames := ← stringsField object "variables"
      controls := ← stringsField object "controls"
      preregisteredSeeds := ← seeds.mapM fun value => okOr .invalidRecord value.asU64
      expectedObservations := ← natField object "expected_observations" u32Max
      measurementUnit := ← stringField object "measurement_unit"
      uncertaintyRequired := ← boolField object "uncertainty_required"
      minCleanReplicates := ← natField object "min_clean_replicates" u32Max }

def readObservationRecord (rawArtifactHash environmentHash : Hash) :
    Except LabError ObservationRecord := do
  pure
    { observationId := ← stringField object "observation_id"
      experimentId := ← stringField object "experiment_id"
      seed := ← natField object "seed" u64Max
      measurement := ← okOr .invalidRecord (object.f64? "measurement")
      unit := ← stringField object "unit"
      rawArtifactHash, environmentHash
      valid := ← boolField object "valid"
      uncertainty := ← optionalField object "uncertainty" Json.asF64
      replicationOf := ← optionalField object "replication_of" Json.asStr
      operatorId := ← stringField object "operator_id"
      clean := ← boolField object "clean"
      epistemicStatus := ← stringField object "epistemic_status" }

/-- Two members that are both digests; records with opaque labels stay untyped. -/
def digestPair (first second : String) : Option (Hash × Hash) := do
  let first ← (object.str? first).bind decodeHexDigest
  let second ← (object.str? second).bind decodeHexDigest
  pure (first, second)

end Reading

section Sync

variable (runtime : LabRuntime) (object : JsonObject)

def syncSource : Except LabError LabRuntime :=
  match digestPair object "content_hash" "snapshot_hash" with
  | none => .ok runtime
  | some (contentHash, snapshotHash) => do
      let source ← readSourceRecord object contentHash snapshotHash
      source.validate
      refuseWhen (runtime.sources.contains source.sourceId) .invalidRecord
      pure { runtime with sources := runtime.sources.insert source.sourceId source }

def syncClaim : Except LabError LabRuntime := do
  let sourceIds ← okOr .invalidRecord (object.array? "source_ids")
  if sourceIds.any fun id => !id.asStr.any runtime.sources.contains then
    pure runtime
  else
    let claim ← readClaimRecord object
    claim.validate runtime.sources
    refuseWhen (runtime.claims.contains claim.claimId) .invalidRecord
    pure { runtime with claims := runtime.claims.insert claim.claimId claim }

/-- The claims that a hypothesis refers to, as far as they are texts. -/
def referencedClaims : List String :=
  (((object.array? "supporting_claim_ids").getD []) ++
    ((object.array? "contradicting_claim_ids").getD [])).filterMap Json.asStr

def syncHypothesis : Except LabError LabRuntime :=
  if (referencedClaims object).any fun id => !runtime.claims.contains id then
    .ok runtime
  else do
    let hypothesis ← readHypothesisRecord object
    hypothesis.validate runtime.claims
    refuseWhen (runtime.hypotheses.contains hypothesis.hypothesisId) .invalidRecord
    pure { runtime with
      hypotheses := runtime.hypotheses.insert hypothesis.hypothesisId hypothesis }

def syncExperiment : Except LabError LabRuntime := do
  let hypothesisId ← okOr .invalidRecord (object.str? "hypothesis_id")
  if !runtime.hypotheses.contains hypothesisId then
    pure runtime
  else
    let experiment ← readExperimentSpec object
    experiment.validate runtime.hypotheses
    refuseWhen (runtime.experiments.contains experiment.experimentId) .invalidRecord
    pure { runtime with
      experiments := runtime.experiments.insert experiment.experimentId experiment }

def syncObservation : Except LabError LabRuntime := do
  let experimentId ← okOr .invalidRecord (object.str? "experiment_id")
  if !runtime.experiments.contains experimentId then
    pure runtime
  else
    match digestPair object "raw_artifact_hash" "environment_hash" with
    | none => pure runtime
    | some (rawArtifactHash, environmentHash) =>
        let observation ← readObservationRecord object rawArtifactHash environmentHash
        observation.validate runtime.experiments runtime.observations
        refuseWhen (runtime.observations.contains observation.observationId) .invalidRecord
        pure { runtime with
          observations := runtime.observations.insert observation.observationId observation }

end Sync

/-- The typed record that a payload stands for, where it refers to typed records only. -/
def syncProjectionRecordToRuntime (runtime : LabRuntime) (kind : LabEventKind) (payload : Json) :
    Except LabError LabRuntime := do
  match kind with
  | .sourceCaptured => syncSource runtime (← okOr .invalidRecord payload.asObject)
  | .claimRecorded => syncClaim runtime (← okOr .invalidRecord payload.asObject)
  | .hypothesisRecorded => syncHypothesis runtime (← okOr .invalidRecord payload.asObject)
  | .experimentScheduled => syncExperiment runtime (← okOr .invalidRecord payload.asObject)
  | .observationRecorded => syncObservation runtime (← okOr .invalidRecord payload.asObject)
  | _ => pure runtime

end Aegis.Lab
