import AegisCognition.Lab.Projection

/-!
# Goal verifications and goal bindings

A goal verification is the record in which a verifier reports on the predicates of the
mission's contract. It is accepted when it names the contract, comes from somebody the
contract allows, passes every required predicate and rests on evidence that the controller
retains.

Every effect of a mission with a contract names the contract in its payload, and the whole
run is bound to one plan and task once an effect has named them.
-/

namespace Aegis.Lab

open Foundation Json
open Replay (Hash)

/-! ### Goal verifications -/

def goalVerificationKeys : List String :=
  ["schema", "contract_hash", "generation", "verifier_id", "independent", "predicate_results",
    "evidence_refs", "evidence_complete", "verification_hash"]

/-- A predicate of a contract, as the check of a verification reads it. -/
structure GoalPredicate where
  predicateId : String
  required : Bool
  evidenceRefs : List String

def readGoalPredicate (known : List GoalPredicate) (raw : Json) :
    Except LabError (List GoalPredicate) := do
  let predicate ← okOr .invalidRecord raw.asObject
  let predicateId ← goalRequiredString predicate "predicate_id"
  let severity ← goalRequiredString predicate "severity"
  let evidenceRefs ← goalStringArray predicate "evidence_refs"
  refuseWhen (known.any (·.predicateId == predicateId)) .invalidRecord
  pure (known ++ [{ predicateId, required := severity == "required", evidenceRefs }])

/-- One reported result, a pair of a predicate and whether it passed. -/
def readPredicateResult (predicates : List GoalPredicate) (results : List (String × Bool))
    (raw : Json) : Except LabError (List (String × Bool)) := do
  let pair ← okOr .invalidRecord raw.asArray
  match pair with
  | [id, verdict] =>
      let passed ← okOr .invalidRecord verdict.asBool
      let predicateId ← okOr .invalidRecord (id.asStr.filter (!isBlank ·))
      refuseWhen
        (!predicates.any (·.predicateId == predicateId) || results.any (·.1 == predicateId))
        .invalidRecord
      pure (results ++ [(predicateId, passed)])
  | _ => throw .invalidRecord

def readEvidenceRef (refs : List String) (raw : Json) : Except LabError (List String) := do
  let evidenceId ← okOr .invalidRecord (raw.asStr.filter (!isBlank ·))
  refuseWhen (refs.contains evidenceId) .invalidRecord
  pure (refs ++ [evidenceId])

def LabController.retainsRecordType (c : LabController) : String → Bool
  | "source" => !c.index.sources.isEmpty || !c.runtime.sources.isEmpty
  | "claim" => !c.index.claims.isEmpty || !c.runtime.claims.isEmpty
  | "hypothesis" => !c.index.hypotheses.isEmpty || !c.runtime.hypotheses.isEmpty
  | "experiment" => !c.index.experiments.isEmpty || !c.runtime.experiments.isEmpty
  | "observation" => !c.index.observations.isEmpty || !c.runtime.observations.isEmpty
  | _ => false

def validateGoalVerificationContract (externals : Externals) (c : LabController)
    (verification : JsonObject) : Except LabError Unit := do
  let contractJson ← okOr .invalidRecord c.mission.goalContractJson
  let contract ← okOr .invalidRecord (externals.fromStr contractJson)
  let contract ← okOr .invalidRecord contract.asObject
  let contractHash ← okOr .invalidRecord (contract.str? "contract_hash")
  let generation ← okOr .invalidRecord (contract.u64? "generation")
  refuseWhen
    (verification.str? "contract_hash" ≠ some contractHash ∨
      verification.u64? "generation" ≠ some generation)
    .invalidRecord
  let policy ← okOr .invalidRecord (contract.object? "evidence_policy")
  let requireIndependent ← okOr .invalidRecord (policy.bool? "require_independent_verifier")
  let requiredRecordTypes ← goalStringArray policy "required_record_types"
  let trustedVerifiers ← goalStringArray policy "trusted_verifier_ids"
  let verifierId ← okOr .invalidRecord (verification.str? "verifier_id")
  let independent ← okOr .invalidRecord (verification.bool? "independent")
  let authorId ← okOr .invalidRecord (contract.str? "author_id")
  refuseWhen
    (verifierId == authorId ||
      (requireIndependent && (!independent || !trustedVerifiers.contains verifierId)))
    .invalidRecord
  let acceptance ← okOr .invalidRecord (contract.array? "acceptance")
  let predicates ← acceptance.foldlM readGoalPredicate []
  let results ← okOr .invalidRecord (verification.array? "predicate_results")
  let results ← results.foldlM (readPredicateResult predicates) []
  let evidenceRefs ← okOr .invalidRecord (verification.array? "evidence_refs")
  let evidenceIds ← evidenceRefs.foldlM readEvidenceRef []
  let evidenceComplete ← okOr .invalidRecord (verification.bool? "evidence_complete")
  refuseWhen (!evidenceComplete) .invalidRecord
  refuseWhen (requiredRecordTypes.any (!c.retainsRecordType ·)) .invalidRecord
  let required := predicates.filter (·.required)
  refuseWhen
    (required.any (fun predicate => !results.any (·.1 == predicate.predicateId)) ||
      required.any (fun predicate => !results.contains (predicate.predicateId, true)) ||
      required.any fun predicate => predicate.evidenceRefs.any (!evidenceIds.contains ·))
    .invalidRecord
  refuseWhen
    (results.any fun result => predicates.any fun predicate =>
      predicate.predicateId == result.1 && predicate.evidenceRefs.any (!evidenceIds.contains ·))
    .invalidRecord
  refuseWhen (required.any fun predicate => predicate.evidenceRefs.any (!c.retains ·))
    .invalidRecord
  let minimumSources ← okOr .invalidRecord (policy.u64? "minimum_sources")
  refuseWhen ((evidenceIds.filter c.knowsSource).length < minimumSources) .invalidRecord

/-- The payload is a goal verification, whatever it goes on to say. -/
def isGoalVerification (payload : Json) : Bool :=
  (payload.get? "record_type").bind asStr == some "goal_verification"

/-- The item is a pair of a predicate id and a verdict. -/
def isPredicateResult (item : Json) : Bool :=
  match item.asArray with
  | some [id, verdict] => id.asStr.any (!isBlank ·) && verdict.asBool.isSome
  | _ => false

def goalVerificationHash (externals : Externals) (unsigned : JsonObject) : Hash :=
  externals.goalContractDigest (Json.object unsigned).canonical

def validateGoalVerificationRecord (externals : Externals) (c : LabController)
    (object : JsonObject) : Except LabError Unit :=
  if object.str? "record_type" ≠ some "goal_verification" then .ok () else do
    let verification ← okOr .invalidRecord (object.object? "verification")
    refuseWhen
      (!hasExactJsonKeys verification goalVerificationKeys ||
        verification.str? "schema" != some "aegis-goal-verification-v1" ||
        !hasDigest verification "contract_hash" || verification.u64? "generation" == some 0 ||
        !hasText verification "verifier_id" || (verification.bool? "independent").isNone ||
        (verification.bool? "evidence_complete").isNone ||
        !hasDigest verification "verification_hash")
      .invalidRecord
    let predicateResults ← okOr .invalidRecord (verification.array? "predicate_results")
    refuseWhen (predicateResults.any (!isPredicateResult ·)) .invalidRecord
    let evidenceRefs ← okOr .invalidRecord (verification.array? "evidence_refs")
    refuseWhen (evidenceRefs.any fun item => !item.asStr.any (!isBlank ·)) .invalidRecord
    let suppliedHash ← okOr .invalidRecord (verification.str? "verification_hash")
    refuseWhen
      (suppliedHash ≠
        digestHex (goalVerificationHash externals (verification.erase "verification_hash")))
      .invalidRecord
    validateGoalVerificationContract externals c verification

/-! ### Goal bindings -/

section

variable (c : LabController)

/-- The retained payloads of the manifest events. -/
def LabController.manifestPayloads : List (Option Json) :=
  (c.runtime.events.filter (·.kind == .executionCellManifestRecorded)).map
    fun event => c.payloads[event.sequence]?

/-- The hash of one more manifest; a second manifest is refused. -/
def readManifestHash (manifestHash : Option String) (payload : Option Json) :
    Except LabError (Option String) := do
  let payload ← okOr .invalidRecord payload
  let hash ← okOr .invalidRecord
    (((payload.get? "manifest_hash").bind asStr).filter isHexDigest)
  refuseWhen manifestHash.isSome .invalidRecord
  pure (some hash)

def projectionExecutionCellManifestHash : Except LabError (Option String) :=
  c.manifestPayloads.foldlM readManifestHash none

/-- The array member holds this text. -/
def arrayHas (object : JsonObject) (key text : String) : Bool :=
  (object.array? key).any fun items => items.any (·.asStr == some text)

/-- The cell runs this selection on this backend under this policy. -/
def cellMatches (externals : Externals) (executionCellId executionActionKind : Option String)
    (backendKind resourcePolicyHash : String) (entry : Json) : Bool :=
  match entry.asObject with
  | none => false
  | some cell =>
      executionCellId.all (fun id => cell.str? "cell_id" == some id) &&
        executionActionKind.all (arrayHas cell "action_kinds") &&
        cell.str? "backend_kind" == some backendKind &&
        cell.str? "resource_policy_hash" == some resourcePolicyHash &&
        (cell.get? "resource_policy").any fun policy =>
          (executionCellResourcePolicyHash externals policy).toOption == some resourcePolicyHash

/-- The search stops at the first manifest with exactly one matching cell. -/
def projectionExecutionCellIdentityMatches (externals : Externals)
    (executionCellId executionActionKind : Option String)
    (backendKind resourcePolicyHash : String) : List (Option Json) → Except LabError Bool
  | [] => .ok false
  | payload :: payloads => do
      let payload ← okOr .invalidRecord payload
      let manifest ← okOr .invalidRecord ((payload.get? "manifest").bind asArray)
      let matching := manifest.countP
        (cellMatches externals executionCellId executionActionKind backendKind resourcePolicyHash)
      if matching = 1 then
        pure true
      else
        refuseWhen (1 < matching) .invalidRecord
        projectionExecutionCellIdentityMatches externals executionCellId executionActionKind
          backendKind resourcePolicyHash payloads

/-- A cell that may write to the memory after a completion. -/
def isMemoryCell (entry : Json) : Bool :=
  match entry.asObject with
  | none => false
  | some cell =>
      arrayHas cell "action_kinds" "post_completion_effect" &&
        arrayHas cell "capabilities" "memory_write" && arrayHas cell "effect_classes" "memory_write"

def registersMemoryCell (payload : Json) : Bool :=
  (payload.get? "schema").bind asStr == some "aegis-execution-cell-manifest-v1" &&
    ((payload.get? "manifest").bind asArray).any (·.any isMemoryCell)

def managedInternalEffectRegistered : Bool :=
  (OrderedMap.valueList c.payloads).any registersMemoryCell

/-- The effect classes that need no declaration in the target. -/
def isLocalEffect (effectClass : String) : Bool :=
  ["read_only", "network_read", "compute", "model_inference", "local_reversible"].contains
    effectClass

/-- The effect of a tool call is local, internal or declared in the target. -/
def effectIsDeclared (target : Json) (payload : JsonObject) : Bool :=
  match payload.str? "tool_name", payload.str? "effect_class" with
  | some toolName, some effectClass =>
      isLocalEffect effectClass ||
        ((payload.bool? "managed_internal").getD false && toolName == "memory.index_session" &&
          effectClass == "memory_write" && managedInternalEffectRegistered c) ||
        ((target.get? "external_side_effects").bind asArray).any
          (·.any (·.asStr == some (toolName ++ "::" ++ effectClass)))
  | _, _ => true

/-- Some earlier goal-bound payload was admitted without an execution binding. -/
def LabController.hasUnboundPayload : Bool :=
  c.runtime.events.any fun event =>
    isGoalBoundEventKind event.kind &&
      (c.payloads[event.sequence]?).any fun prior =>
        !prior.asObject.any (·.containsKey "execution_binding")

end

/-- The goal contract of the mission, read for a binding. -/
structure GoalReading where
  goalId : String
  generation : Nat
  contractHash : String
  target : Json

section

variable (externals : Externals)

def readGoal (contractJson : String) : Except LabError GoalReading := do
  let contract ← okOr .invalidRecord (externals.fromStr contractJson)
  let contract ← okOr .invalidRecord contract.asObject
  let goalId ← okOr .invalidRecord (contract.str? "goal_id")
  let generation ← okOr .invalidRecord (contract.u64? "generation")
  let contractHash ← okOr .invalidRecord (contract.str? "contract_hash")
  let target ← okOr .invalidRecord (contract.get? "target")
  pure { goalId, generation, contractHash, target }

def GoalReading.targetDigest (goal : GoalReading) : String :=
  digestHex (projectionPayloadHash externals goal.target)

/-- The payload names the manifest exactly when there is one. -/
def namesManifest (manifestHash : Option String) (named : Option Json) : Bool :=
  match manifestHash, named with
  | some expected, some actual => actual.asStr == some expected
  | none, none => true
  | _, _ => false

/-- An execution binding of the payload, checked against the goal and the run. -/
def validateExecutionBinding (c : LabController) (goal : GoalReading) (manifestHash : Option String)
    (raw : Json) : Except LabError ProjectionExecutionBinding := do
  let binding ← ProjectionExecutionBinding.validateWire externals raw
  let owner ← okOr .invalidRecord
    (((goal.target.get? "owner").bind asStr).filter (!isBlank ·))
  refuseWhen
    (binding.goalContractHash != goal.contractHash || binding.generation != goal.generation ||
      binding.missionId != c.mission.missionId ||
      binding.targetDigest != goal.targetDigest externals || binding.ownerId != owner ||
      binding.executionCellManifestHash != manifestHash || binding.evidenceDigest.isSome ||
      binding.completionDigest.isSome)
    .invalidRecord
  match binding.backendKind, binding.resourcePolicyHash with
  | some backendKind, some resourcePolicyHash =>
      refuseWhen (binding.executionCellId.isNone || binding.executionActionKind.isNone)
        .invalidRecord
      let found ← projectionExecutionCellIdentityMatches externals binding.executionCellId
        binding.executionActionKind backendKind resourcePolicyHash c.manifestPayloads
      refuseWhen (!found) .invalidRecord
  | _, _ => pure ()
  refuseWhen (c.executionBinding.isNone && c.hasUnboundPayload) .invalidRecord
  refuseWhen (c.executionBinding.any (· != binding)) .invalidRecord
  pure binding

def validateGoalEventBinding (c : LabController) (kind : LabEventKind) (payload : JsonObject) :
    Except LabError (Option ProjectionExecutionBinding) :=
  if !isGoalBoundEventKind kind then .ok none else
    match c.mission.goalContractJson with
    | none => do
        refuseWhen (payload.containsKey "execution_binding") .invalidRecord
        pure none
    | some contractJson => do
        let goal ← readGoal externals contractJson
        let manifestHash ← projectionExecutionCellManifestHash c
        refuseWhen (!namesManifest manifestHash (payload.get? "execution_cell_manifest_hash"))
          .invalidRecord
        refuseWhen
          (payload.str? "goal_id" != some goal.goalId ||
            payload.u64? "goal_generation" != some goal.generation ||
            payload.str? "goal_contract_hash" != some goal.contractHash ||
            payload.str? "target_digest" != some (goal.targetDigest externals))
          .invalidRecord
        let executionBinding ←
          match payload.get? "execution_binding" with
          | some raw => some <$> validateExecutionBinding externals c goal manifestHash raw
          | none => do
              refuseWhen c.executionBinding.isSome .invalidRecord
              pure none
        refuseWhen
          ((kind == .toolExecutionAdmitted || kind == .toolExecutionRecorded) &&
            !effectIsDeclared c goal.target payload)
          .invalidRecord
        pure executionBinding

/-- The payload names the mission and the event before its own. -/
def validateReplayParent (c : LabController) (event : LabEvent) (object : JsonObject) :
    Except LabError Unit := do
  let missionId ← okOr .invalidRecord (object.str? "mission_id")
  let replayParentHash ← okOr .invalidRecord (object.str? "replay_parent_hash")
  refuseWhen
    (missionId ≠ c.mission.missionId ∨ replayParentHash ≠ digestHex event.previousEventHash)
    .invalidRecord

def validateProjectionBinding (c : LabController) (event : LabEvent) (payload : Json) :
    Except LabError (Option ProjectionExecutionBinding) := do
  let object ← okOr .invalidRecord payload.asObject
  let executionBinding ← validateGoalEventBinding externals c event.kind object
  match event.kind with
  | .executionCellManifestRecorded =>
      refuseWhen
        (event.sequence != 2 || event.stateEpoch != 1 ||
          !c.runtime.events.head?.any (·.kind == .missionCreated))
        .invalidRecord
  | .experimentExecutionAdmitted | .experimentExecutionRecorded | .toolExecutionAdmitted
  | .toolExecutionRecorded | .cancellationAdmitted | .cancellationRecorded =>
      validateReplayParent c event object
  | .skillAdmissionRecorded =>
      let missionEpoch ← okOr .invalidRecord (object.u64? "mission_epoch")
      validateReplayParent c event object
      refuseWhen (saturatingAdd u64Max missionEpoch 1 ≠ event.stateEpoch.toNat) .invalidRecord
  | .skillExecutionRecorded =>
      let admissionHash ← okOr .invalidRecord (object.str? "admission_hash")
      let admission ← okOr .invalidRecord c.index.skillAdmissions[admissionHash]?
      let skillId ← okOr .invalidRecord (object.str? "skill_id")
      let version ← okOr .invalidRecord (object.str? "version")
      let missionId ← okOr .invalidRecord (object.str? "mission_id")
      refuseWhen
        (skillId ≠ admission.skillId ∨ version ≠ admission.version ∨
          missionId ≠ admission.missionId)
        .invalidRecord
      validateReplayParent c event object
  | _ => pure ()
  pure executionBinding

end

end Aegis.Lab
