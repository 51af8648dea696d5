import AegisCognition.Lab.Runtime

/-!
# Records admitted through the projection bridge

A language adapter hands in an event together with a JSON payload. The controller keeps an
index of what came in that way: the ids of the typed records, the admissions of effects and
the effects that were recorded against them. A payload is checked for the shape of its kind
and against the index before it is indexed itself.

The check runs on a copy of the controller that is dropped when it fails, so it is given
here as a function from the old index to the new one.
-/

namespace Aegis.Lab

open Foundation
open Replay (Hash)

structure ProjectionExperiment where
  hypothesisId : String
  preregisteredSeeds : Std.ExtTreeSet Nat

structure ProjectionObservation where
  experimentId : String
  environmentHash : String
  replicationOf : Option String
  clean : Bool

structure ProjectionExperimentExecutionAdmission where
  admissionId : String
  experimentId : String
  attempt : Nat
  inputHash : String
  policyHash : String
  deriving DecidableEq

structure ProjectionToolExecutionAdmission where
  admissionId : String
  toolName : String
  attempt : Nat
  leaseId : Nat
  effectClass : String
  actorRole : String
  expectedObservationSchema : String
  stopRule : String
  inputHash : String
  policyHash : String
  managedInternal : Bool
  deriving DecidableEq

structure ProjectionSkillAdmission where
  skillId : String
  version : String
  missionId : String

/-- The `projection_*` indexes of the controller. -/
structure ProjectionIndex where
  sources : IdSet
  claims : IdSet
  hypotheses : IdSet
  experiments : Table ProjectionExperiment
  observations : Table ProjectionObservation
  experimentExecutionAdmissions : Table ProjectionExperimentExecutionAdmission
  experimentExecutions : IdSet
  toolExecutionAdmissions : Table ProjectionToolExecutionAdmission
  toolExecutions : IdSet
  cancellationAdmissions : Table String
  cancellations : IdSet
  browserActionAdmissions : Table String
  browserActions : IdSet
  browserObservationAdmissions : Table String
  browserObservations : IdSet
  skillAdmissions : Table ProjectionSkillAdmission
  skillExecutions : IdSet
  researchPrograms : IdSet
  researchProgramAdmissions : Table String

def ProjectionIndex.empty : ProjectionIndex where
  sources := ∅
  claims := ∅
  hypotheses := ∅
  experiments := ∅
  observations := ∅
  experimentExecutionAdmissions := ∅
  experimentExecutions := ∅
  toolExecutionAdmissions := ∅
  toolExecutions := ∅
  cancellationAdmissions := ∅
  cancellations := ∅
  browserActionAdmissions := ∅
  browserActions := ∅
  browserObservationAdmissions := ∅
  browserObservations := ∅
  skillAdmissions := ∅
  skillExecutions := ∅
  researchPrograms := ∅
  researchProgramAdmissions := ∅

/-! ### Fields of a payload -/

section Fields

variable (object : JsonObject)

section

variable (key : String)

/-- A text that is not blank, without the white space around it. -/
def nonEmpty : Except LabError String :=
  okOr .invalidRecord (((object.str? key).map trim).filter (· != ""))

def stringArray : Except LabError (List String) := do
  let values ← okOr .invalidRecord (object.array? key)
  values.mapM fun value => okOr .invalidRecord ((value.asStr.map trim).filter (· != ""))

def boundedU64 (maximum : Nat) : Except LabError Nat := do
  let value ← okOr .invalidRecord (object.u64? key)
  refuseWhen (maximum < value) .invalidRecord
  pure value

/-- A positive `u32`. -/
def attemptField : Except LabError Nat :=
  okOr .invalidRecord ((object.u64? "attempt").filter fun value => 0 < value && value ≤ u32Max)

/-- The member is a text with something in it. -/
def hasText : Bool :=
  (object.str? key).any (!isBlank ·)

def hasPositive (maximum : Nat) : Bool :=
  (object.u64? key).any fun value => value != 0 && value ≤ maximum

def hasDigest : Bool :=
  (object.str? key).any isHexDigest

end

def statusIn (allowed : List String) : Bool :=
  (object.str? "status").any allowed.contains

def managedInternalField : Except LabError Bool :=
  match object.get? "managed_internal" with
  | none => .ok false
  | some value => okOr .invalidRecord value.asBool

end Fields

/-- A new id joins a set of ids. -/
def insertFresh (ids : IdSet) (id : String) : Except LabError IdSet := do
  refuseWhen (ids.contains id) .invalidRecord
  pure (ids.insert id)

/-! ### The manifest of execution cells -/

section

variable (externals : Externals)

def projectionPayloadHash (value : Json) : Hash :=
  externals.projectionPayloadDigest value.canonical

def resourcePolicyKeys : List String :=
  ["schema", "cpu_time_limit_ms", "memory_bytes", "process_limit", "thread_limit", "fd_limit",
    "input_bytes", "output_bytes", "timeout_ms"]

def executionCellResourcePolicyHash (value : Json) : Except LabError String := do
  let object ← okOr .invalidRecord value.asObject
  refuseWhen
    (!hasExactJsonKeys object resourcePolicyKeys ||
      object.str? "schema" != some "aegis-execution-cell-resource-policy-v1")
    .invalidRecord
  resourcePolicyKeys.tail.forM fun key => do
    let amount ← okOr .invalidRecord (object.u64? key)
    refuseWhen
      (!(["cpu_time_limit_ms", "input_bytes", "output_bytes"].contains key) && amount == 0)
      .invalidRecord
  pure (digestHex (projectionPayloadHash externals value))

/-- The case that the items of an array have to be written in. -/
inductive LetterCase
  | any | lower | upper

def LetterCase.accepts : LetterCase → String → Bool
  | .any, _ => true
  | .lower, item => item == item.map Char.toLower
  | .upper, item => item == item.map Char.toUpper

def normalizedArray (cell : JsonObject) (key : String) (requireNonEmpty : Bool)
    (letterCase : LetterCase) : Except LabError (List String) := do
  let values ← okOr .invalidRecord (cell.array? key)
  refuseWhen (requireNonEmpty && values.isEmpty) .invalidRecord
  values.mapM fun value => do
    let item ← okOr .invalidRecord value.asStr
    refuseWhen (isBlank item || !isTrimmed item || !letterCase.accepts item) .invalidRecord
    pure item

def manifestCellKeys : List String :=
  ["cell_id", "action_kinds", "capabilities", "effect_classes", "trust_levels",
    "trust_policy_hash", "backend_kind", "resource_policy", "resource_policy_hash"]

def manifestActionKinds : List String :=
  ["context_retrieval", "search_program", "browser_action", "experiment_action",
    "simulation_action", "tool_call", "benchmark_validation", "skill_execution",
    "post_completion_effect", "progress_checkpoint"]

/-- An optional text member that has to meet a condition when it is there. -/
def optionalText (object : JsonObject) (key : String) (accepts : String → Bool) :
    Except LabError (Option String) :=
  match object.get? key with
  | none => .ok none
  | some value => some <$> okOr .invalidRecord (value.asStr.filter accepts)

/-- One cell of the manifest. The state is the list of identities seen so far. -/
def validateManifestCell (identities : List (String × List String)) (entry : Json) :
    Except LabError (List (String × List String)) := do
  let cell ← okOr .invalidRecord entry.asObject
  refuseWhen (cell.keys.any (!manifestCellKeys.contains ·)) .invalidRecord
  let cellId ← okOr .invalidRecord (cell.str? "cell_id")
  refuseWhen (isBlank cellId || !isTrimmed cellId) .invalidRecord
  let actionKinds ← normalizedArray cell "action_kinds" true .lower
  refuseWhen (actionKinds.any (!manifestActionKinds.contains ·)) .invalidRecord
  let _ ← normalizedArray cell "capabilities" false .any
  let _ ← normalizedArray cell "effect_classes" false .any
  let _ ← normalizedArray cell "trust_levels" true .upper
  refuseWhen
    ((cell.get? "trust_policy_hash").any fun value => !value.asStr.any isHexDigest)
    .invalidRecord
  let backendKind ← optionalText cell "backend_kind" fun item =>
    !isBlank item && isTrimmed item && LetterCase.lower.accepts item
  let resourcePolicyHash ← optionalText cell "resource_policy_hash" isHexDigest
  let resourcePolicy := cell.get? "resource_policy"
  refuseWhen
    (backendKind.isNone && (resourcePolicy.isSome || resourcePolicyHash.isSome)) .invalidRecord
  refuseWhen (backendKind.isSome && resourcePolicy.isNone) .invalidRecord
  match resourcePolicy, resourcePolicyHash with
  | some policy, some policyHash =>
      let computed ← executionCellResourcePolicyHash externals policy
      refuseWhen (computed ≠ policyHash) .invalidRecord
  | _, _ => pure ()
  refuseWhen (backendKind.isSome != resourcePolicyHash.isSome) .invalidRecord
  refuseWhen (identities.contains (cellId, actionKinds)) .invalidRecord
  pure ((cellId, actionKinds) :: identities)

def validateManifestPayload (object : JsonObject) : Except LabError Unit := do
  let schema ← nonEmpty object "schema"
  let manifestHash ← nonEmpty object "manifest_hash"
  let manifest ← okOr .invalidRecord (object.array? "manifest")
  let cellCount ← okOr .invalidRecord (object.u64? "cell_count")
  refuseWhen
    (schema != "aegis-execution-cell-manifest-v1" || !isHexDigest manifestHash ||
      cellCount != manifest.length ||
      digestHex (projectionPayloadHash externals (.array manifest)) != manifestHash)
    .invalidRecord
  let _ ← manifest.foldlM (validateManifestCell externals) []

end

/-! ### Execution bindings -/

/-- The goal, plan and task that the effects of a run are bound to. -/
structure ProjectionExecutionBinding where
  goalContractHash : String
  generation : Nat
  targetDigest : String
  planDigest : String
  missionId : String
  taskId : Nat
  attemptId : Nat
  ownerId : String
  principalId : String
  evidenceDigest : Option String
  completionDigest : Option String
  executionCellManifestHash : Option String
  executionCellId : Option String
  executionActionKind : Option String
  backendKind : Option String
  resourcePolicyHash : Option String
  bindingHash : String
  deriving DecidableEq

namespace ProjectionExecutionBinding

def schema : String := "aegis-execution-binding-v1"

def optionalJson : Option String → Json
  | none => .null
  | some text => .string text

/-- The members that a binding hash covers. -/
def unsignedValue (binding : ProjectionExecutionBinding) : Json :=
  .object <|
    [("schema", .string schema),
      ("goal_contract_hash", .string binding.goalContractHash),
      ("generation", .nat binding.generation),
      ("target_digest", .string binding.targetDigest),
      ("plan_digest", .string binding.planDigest),
      ("mission_id", .string binding.missionId),
      ("task_id", .nat binding.taskId),
      ("attempt_id", .nat binding.attemptId),
      ("owner_id", .string binding.ownerId),
      ("principal_id", .string binding.principalId),
      ("evidence_digest", optionalJson binding.evidenceDigest),
      ("completion_digest", optionalJson binding.completionDigest)] ++
    (match binding.executionCellManifestHash with
      | none => []
      | some hash => [("execution_cell_manifest_hash", .string hash)]) ++
    (match binding.executionCellId with
      | none => []
      | some id =>
          [("execution_cell_id", .string id),
            ("execution_action_kind", optionalJson binding.executionActionKind)]) ++
    match binding.backendKind with
    | none => []
    | some kind =>
        [("backend_kind", .string kind),
          ("resource_policy_hash", optionalJson binding.resourcePolicyHash)]

def legacyKeys : List String :=
  ["schema", "goal_contract_hash", "generation", "target_digest", "plan_digest", "mission_id",
    "task_id", "attempt_id", "owner_id", "principal_id", "evidence_digest", "completion_digest",
    "binding_hash"]

def manifestKeys : List String := legacyKeys ++ ["execution_cell_manifest_hash"]

def identityKeys : List String := manifestKeys ++ ["backend_kind", "resource_policy_hash"]

def selectedIdentityKeys : List String :=
  identityKeys ++ ["execution_cell_id", "execution_action_kind"]

section Wire

variable (object : JsonObject)

def digest (key : String) : Except LabError String :=
  okOr .invalidRecord ((object.str? key).filter isHexDigest)

def positive (key : String) : Except LabError Nat :=
  okOr .invalidRecord ((object.u64? key).filter (0 < ·))

/-- A member that has to be there and is null or a digest. -/
def optionalDigest (key : String) : Except LabError (Option String) :=
  match object.get? key with
  | some .null => .ok none
  | some value => some <$> okOr .invalidRecord (value.asStr.filter isHexDigest)
  | none => .error .invalidRecord

/-- A member that may be missing and is null or a digest. -/
def missingOrDigest (key : String) : Except LabError (Option String) :=
  match object.get? key with
  | none | some .null => .ok none
  | some value => some <$> okOr .invalidRecord (value.asStr.filter isHexDigest)

def trimmedText (key : String) : Except LabError (Option String) :=
  optionalText object key fun item => !isBlank item && isTrimmed item

end Wire

def asciiLower (text : String) : String := text.map Char.toLower

/-- The optional members come in the groups that the four sets of keys allow. -/
def isConsistent (binding : ProjectionExecutionBinding) : Bool :=
  binding.backendKind.isSome == binding.resourcePolicyHash.isSome &&
    !(binding.backendKind.isSome && binding.executionCellManifestHash.isNone) &&
    binding.executionCellId.isSome == binding.executionActionKind.isSome &&
    !(binding.executionCellId.isSome && binding.backendKind.isNone) &&
    !((binding.executionCellId.isSome || binding.backendKind.isSome) &&
      binding.executionCellManifestHash.isNone)

def validateWire (externals : Externals) (value : Json) :
    Except LabError ProjectionExecutionBinding := do
  (validateGoalContractLimits value).mapError fun _ => .invalidRecord
  let object ← okOr .invalidRecord value.asObject
  refuseWhen
    (!(hasExactJsonKeys object legacyKeys || hasExactJsonKeys object manifestKeys ||
        hasExactJsonKeys object identityKeys || hasExactJsonKeys object selectedIdentityKeys) ||
      object.str? "schema" != some schema)
    .invalidRecord
  let binding : ProjectionExecutionBinding :=
    { goalContractHash := ← digest object "goal_contract_hash"
      generation := ← positive object "generation"
      targetDigest := ← digest object "target_digest"
      planDigest := ← digest object "plan_digest"
      missionId := ← goalRequiredString object "mission_id"
      taskId := ← positive object "task_id"
      attemptId := ← positive object "attempt_id"
      ownerId := ← goalRequiredString object "owner_id"
      principalId := ← goalRequiredString object "principal_id"
      evidenceDigest := ← optionalDigest object "evidence_digest"
      completionDigest := ← optionalDigest object "completion_digest"
      executionCellManifestHash := ← missingOrDigest object "execution_cell_manifest_hash"
      executionCellId := ← trimmedText object "execution_cell_id"
      executionActionKind :=
        (← trimmedText object "execution_action_kind").map asciiLower
      backendKind := (← trimmedText object "backend_kind").map asciiLower
      resourcePolicyHash := ← missingOrDigest object "resource_policy_hash"
      bindingHash := ← digest object "binding_hash" }
  refuseWhen (!binding.isConsistent) .invalidRecord
  refuseWhen
    (binding.bindingHash ≠
      digestHex (externals.executionBindingDigest binding.unsignedValue.canonical))
    .invalidRecord
  pure binding

end ProjectionExecutionBinding

/-! ### The controller -/

structure LabController where
  runtime : LabRuntime
  budget : BudgetLedger
  finalization : FinalizationBoundary
  steps : Nat
  index : ProjectionIndex
  executionBinding : Option ProjectionExecutionBinding
  payloads : Std.ExtTreeMap Nat Json

namespace LabController

variable (c : LabController)

abbrev mission : LabMissionSpec := c.runtime.mission

section

variable (id : String)

/-- An id of a source, in the index or among the typed records. -/
def knowsSource : Bool :=
  c.index.sources.contains id || c.runtime.sources.contains id

def knowsClaim : Bool :=
  c.index.claims.contains id || c.runtime.claims.contains id

def knowsHypothesis : Bool :=
  c.index.hypotheses.contains id || c.runtime.hypotheses.contains id

def knowsExperiment : Bool :=
  c.index.experiments.contains id || c.runtime.experiments.contains id

def knowsObservation : Bool :=
  c.index.observations.contains id || c.runtime.observations.contains id

/-- A piece of evidence that the controller retains. -/
def retains : Bool :=
  c.knowsSource id || c.knowsClaim id || c.knowsHypothesis id || c.knowsExperiment id ||
    c.knowsObservation id

end

end LabController

end Aegis.Lab
