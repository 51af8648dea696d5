import AegisCognition.Lab.Record

/-!
# Missions and their goal contracts

A mission may carry a goal contract: a JSON text that names the goal, the predicates that
have to pass, the target, the budget and the evidence that a completion needs. A mission is
only accepted with a contract that has exactly the expected shape, agrees with the mission
and hashes to the mission's contract hash.

Parsing JSON and hashing an encoded value are taken from outside. A digest is a function of
the value that is encoded: typed values are hashed in the domain `aegis-lab-canonical-v1`,
JSON values with their members in key order in one of three other domains.
-/

namespace Aegis.Lab

open Foundation
open Replay (Hash)

structure LabMissionSpec where
  missionId : String
  objective : String
  scope : String
  contractHash : Hash
  budgetPolicy : BudgetPolicy
  requiredEvidence : Bool
  maxSteps : Nat
  maxExternalAttempts : Option Nat
  schema : String
  goalContractJson : Option String

/-- An event without its own hash, the value that this hash is taken of. -/
structure EventWithoutHash where
  sequence : Nat
  stateEpoch : UInt64
  kind : LabEventKind
  payloadHash : Hash
  previousEventHash : Hash
  deriving DecidableEq

/-- The typed values that are hashed. -/
inductive Canonical
  | mission (mission : LabMissionSpec)
  | state (state : LabRunState)
  | event (event : EventWithoutHash)
  | source (source : SourceRecord)
  | claim (claim : ClaimRecord)
  | hypothesis (hypothesis : HypothesisRecord)
  | experiment (experiment : ExperimentSpec)
  | observation (observation : ObservationRecord)
  | researchProgram (receipt : ResearchProgramReceipt)
  | securityEvent (event : SecurityEventRecord)
  | budget (spend : BudgetVector)
  | epoch (epoch : UInt64)

/-- What the lab takes from its libraries. -/
structure Externals where
  fromStr : String → Option Json
  canonicalHash : Canonical → Hash
  projectionPayloadDigest : Json → Hash
  goalContractDigest : Json → Hash
  executionBindingDigest : Json → Hash

/-! ### Digests as texts -/

def isHexDigest (text : String) : Bool :=
  text.utf8ByteSize == 64 && text.toList.all fun c => c.isDigit || ('a' ≤ c && c ≤ 'f')

def hexNibble (c : Char) : UInt8 :=
  UInt8.ofNat (if c.isDigit then c.toNat - '0'.toNat else c.toNat - 'a'.toNat + 10)

def hexBytes : List Char → List UInt8
  | high :: low :: rest => (hexNibble high <<< 4 ||| hexNibble low) :: hexBytes rest
  | _ => []

def decodeHexDigest (text : String) : Option Hash :=
  if isHexDigest text then
    if h : (hexBytes text.toList).length = 32 then some ⟨hexBytes text.toList, h⟩ else none
  else none

def digestHex (digest : Hash) : String :=
  String.ofList (digest.bytes.flatMap fun byte =>
    [Nat.digitChar (byte.toNat / 16), Nat.digitChar (byte.toNat % 16)])

/-! ### Reading a contract -/

def maxGoalContractWireBytes : Nat := 1024 * 1024
def maxGoalContractTextBytes : Nat := 64 * 1024
def maxGoalContractIdentifierBytes : Nat := 128
def maxGoalContractScopeBytes : Nat := 4096
def maxGoalContractSequenceItems : Nat := 256
def maxGoalContractTotalSequenceItems : Nat := 2048
def maxGoalContractDepth : Nat := 8
def maxGoalContractNodes : Nat := 4096

def hasExactJsonKeys (object : JsonObject) (expected : List String) : Bool :=
  object.length == expected.length && expected.all object.containsKey &&
    object.keys.all expected.contains

def goalContractStringLimit : Option String → Nat
  | some "read_roots" | some "write_roots" | some "network_allowlist" | some "scope"
  | some "non_goals" => maxGoalContractScopeBytes
  | some "schema" | some "goal_id" | some "kind" | some "stable_id" | some "revision_or_digest"
  | some "owner" | some "policy_digest" | some "predicate_id" | some "evaluator"
  | some "severity" | some "inputs" | some "evidence_refs"
  | some "reproducibility_requirements" | some "required_record_types"
  | some "trusted_verifier_ids" | some "parent_goal_id" | some "parent_contract_hash"
  | some "author_id" | some "external_side_effects" | some "mission_id" | some "owner_id"
  | some "principal_id" | some "execution_cell_id" | some "execution_action_kind"
  | some "backend_kind" => maxGoalContractIdentifierBytes
  | _ => maxGoalContractTextBytes

/-- The walk over a value with a stack of what is left to visit. The first argument is how
many nodes may still be visited, `items` how many array items were seen. -/
def visitGoalContract : Nat → Nat → List (Json × Nat × Option String) → Except LabError Unit
  | _, _, [] => .ok ()
  | 0, _, _ :: _ => .error .invalidMission
  | nodes + 1, items, (current, depth, parentKey) :: stack => do
      refuseWhen (maxGoalContractDepth < depth) .invalidMission
      match current with
      | .object members =>
          refuseWhen
            (members.any fun member => maxGoalContractIdentifierBytes < member.1.utf8ByteSize)
            .invalidMission
          visitGoalContract nodes items
            ((members.map fun member => (member.2, depth + 1, some member.1)).reverse ++ stack)
      | .array values =>
          refuseWhen (maxGoalContractSequenceItems < values.length) .invalidMission
          refuseWhen (maxGoalContractTotalSequenceItems < items + values.length) .invalidMission
          visitGoalContract nodes (items + values.length)
            ((values.map fun value => (value, depth + 1, parentKey)).reverse ++ stack)
      | .string text =>
          refuseWhen (goalContractStringLimit parentKey < text.utf8ByteSize) .invalidMission
          visitGoalContract nodes items stack
      | _ => visitGoalContract nodes items stack

def validateGoalContractLimits (value : Json) : Except LabError Unit :=
  visitGoalContract maxGoalContractNodes 0 [(value, 0, none)]

section

variable (object : JsonObject) (key : String)

def goalRequiredString : Except LabError String := do
  let value ← okOr .invalidMission (object.str? key)
  refuseWhen (isBlank value || !isTrimmed value) .invalidMission
  pure value

/-- An array of texts in strictly increasing order. -/
def goalStringArray : Except LabError (List String) := do
  let values ← okOr .invalidMission (object.array? key)
  let result ← values.mapM fun value => do
    let item ← okOr .invalidMission value.asStr
    refuseWhen (isBlank item || !isTrimmed item) .invalidMission
    pure item
  refuseWhen (¬ result.IsChain (· < ·)) .invalidMission
  pure result

def isCanonicalExternalSideEffectKey (value : String) : Bool :=
  match splitOnce [':', ':'] value.toList with
  | none => false
  | some (toolName, effectClass) =>
      !toolName.isEmpty && !effectClass.isEmpty && !containsText [':', ':'] effectClass &&
        isTrimmed (String.ofList toolName) && isTrimmed (String.ofList effectClass)

/-- What follows the scheme of a network entry, where the scheme is one of the allowed ones. -/
def networkAuthority (value : List Char) : Option (List Char) :=
  let lower := value.map Char.toLower
  if "https://".toList.isPrefixOf lower then some (value.drop 8)
  else if "http://".toList.isPrefixOf lower then some (value.drop 7)
  else if containsText "://".toList value then none
  else some value

def isValidTargetNetworkEntry (value : String) : Bool :=
  let chars := value.toList
  if chars.isEmpty || !isTrimmed value || chars.any (fun c => isWhiteSpace c || isControl c) ||
      "//".toList.isPrefixOf chars then false
  else
    match networkAuthority chars with
    | none => false
    | some authority =>
        let isBoundary := fun c : Char => c == '/' || c == '?' || c == '#'
        let host := authority.takeWhile (!isBoundary ·)
        let suffix := authority.dropWhile (!isBoundary ·)
        !host.isEmpty && !host.any ([':', '@', '[', ']', '*'].contains ·) &&
          (suffix.isEmpty || suffix == ['/'])

/-- A root whose path some adapter could read in another way. -/
def targetScopeIsAmbiguousUri (value : String) : Bool :=
  match splitOnce "://".toList value.toList with
  | none => false
  | some (_, authorityAndPath) =>
      let path :=
        match authorityAndPath.dropWhile (· != '/') with
        | [] => ['/']
        | path => path
      let lower := path.map Char.toLower
      path.contains '\\' || path.contains '?' || path.contains '#' ||
        containsText "%2e".toList lower || containsText "%2f".toList lower ||
        containsText "%5c".toList lower ||
        (path.splitOn '/').any fun segment => segment == ['.'] || segment == ['.', '.']

def goalOptionalNonnegativeU64 : Except LabError Unit :=
  match object.get? key with
  | some .null => .ok ()
  | some value => refuseWhen (value.asU64.isNone) .invalidMission
  | none => .error .invalidMission

end

def goalExactKeys (object : JsonObject) (allowed : List String) : Except LabError Unit :=
  refuseWhen
    (object.keys.any (fun key => !allowed.contains key) ||
      allowed.any fun key => !object.containsKey key)
    .invalidMission

def goalContractKeys : List String :=
  ["schema", "goal_id", "generation", "objective", "acceptance", "target", "scope", "non_goals",
    "policy_digest", "budget", "evidence_policy", "parent_goal_id", "parent_contract_hash",
    "author_id", "effective_epoch", "evolution_reason", "created_at_ms", "contract_hash"]

def goalTargetKeys : List String :=
  ["kind", "stable_id", "revision_or_digest", "read_roots", "write_roots", "network_allowlist",
    "external_side_effects", "owner"]

def goalCriterionKeys : List String :=
  ["predicate_id", "description", "evaluator", "inputs", "expected_result", "severity",
    "evidence_refs", "reproducibility_requirements"]

def goalBudgetKeys : List String :=
  ["token_limit", "attempt_limit", "wall_time_limit_ms", "cost_limit_minor_units",
    "cpu_time_limit_ms", "reserved_tokens"]

def goalEvidencePolicyKeys : List String :=
  ["required_record_types", "minimum_sources", "require_independent_verifier",
    "trusted_verifier_ids"]

/-! ### Accepting a contract -/

/-- The tokens that the mission keeps back for closing and for recovery. -/
def LabMissionSpec.reservedTokens (mission : LabMissionSpec) : Nat :=
  saturatingAdd u64Max mission.budgetPolicy.finalizationReserve.tokens
    mission.budgetPolicy.recoveryReserve.tokens

def validateTargetField (target : JsonObject) (key : String) : Except LabError Unit := do
  let value ← goalRequiredString target key
  refuseWhen ((key = "stable_id" ∨ key = "revision_or_digest") ∧ value = "unbound") .invalidMission

def validateTargetList (target : JsonObject) (key : String) : Except LabError Unit := do
  let values ← goalStringArray target key
  refuseWhen
    (key == "external_side_effects" && values.any (!isCanonicalExternalSideEffectKey ·))
    .invalidMission
  refuseWhen (key == "network_allowlist" && values.any (!isValidTargetNetworkEntry ·))
    .invalidMission
  refuseWhen
    ((key == "read_roots" || key == "write_roots") && values.any targetScopeIsAmbiguousUri)
    .invalidMission

/-- One predicate of the contract. The state is the id of the predicate before it and the
number of required predicates so far. -/
def validateCriterionShape (object : JsonObject) (state : Option String × Nat) (raw : Json) :
    Except LabError (Option String × Nat) := do
  let criterion ← okOr .invalidMission raw.asObject
  goalExactKeys criterion goalCriterionKeys
  let predicateId ← goalRequiredString criterion "predicate_id"
  refuseWhen (state.1.any fun previous => decide (predicateId ≤ previous)) .invalidMission
  let _ ← goalRequiredString criterion "description"
  let _ ← goalRequiredString criterion "evaluator"
  let _ ← goalStringArray criterion "inputs"
  let _ ← goalStringArray criterion "evidence_refs"
  let _ ← goalStringArray criterion "reproducibility_requirements"
  let expected ← okOr .invalidMission (criterion.get? "expected_result")
  refuseWhen (!expected.isScalar) .invalidMission
  let severity ← goalRequiredString criterion "severity"
  match severity with
  | "required" =>
      refuseWhen
        ((criterion.array? "evidence_refs").any List.isEmpty &&
          ((object.object? "evidence_policy").bind
            (JsonObject.bool? · "require_independent_verifier")) == some true)
        .invalidMission
      pure (some predicateId, saturatingAdd u64Max state.2 1)
  | "advisory" => pure (some predicateId, state.2)
  | _ => throw .invalidMission

/-- The record types that a contract may ask for. -/
def isRequiredRecordType (recordType : String) : Bool :=
  ["source", "claim", "hypothesis", "experiment", "observation"].contains recordType

def validateGoalContractShape (object : JsonObject) (mission : LabMissionSpec) :
    Except LabError Unit := do
  goalExactKeys object goalContractKeys
  refuseWhen
    (object.str? "schema" ≠ some "aegis-goal-contract-v1" ∨
      object.str? "objective" ≠ some mission.objective)
    .invalidMission
  let _ ← goalRequiredString object "goal_id"
  let policyDigest ← goalRequiredString object "policy_digest"
  refuseWhen (policyDigest = "unbound") .invalidMission
  let _ ← goalRequiredString object "objective"
  let _ ← goalRequiredString object "author_id"
  refuseWhen
    (!(object.u64? "generation").any (· != 0) || (object.u64? "effective_epoch").isNone ||
      (object.u64? "created_at_ms").isNone)
    .invalidMission
  let _ ← goalStringArray object "scope"
  let _ ← goalStringArray object "non_goals"
  let target ← okOr .invalidMission (object.object? "target")
  goalExactKeys target goalTargetKeys
  ["kind", "stable_id", "revision_or_digest", "owner"].forM (validateTargetField target)
  ["read_roots", "write_roots", "network_allowlist", "external_side_effects"].forM
    (validateTargetList target)
  let acceptance ← okOr .invalidMission (object.array? "acceptance")
  refuseWhen (acceptance.isEmpty) .invalidMission
  let (_, requiredCount) ← acceptance.foldlM (validateCriterionShape object) (none, 0)
  refuseWhen (requiredCount = 0) .invalidMission
  let budget ← okOr .invalidMission (object.object? "budget")
  goalExactKeys budget goalBudgetKeys
  let tokenLimit ← okOr .invalidMission ((budget.u64? "token_limit").filter (0 < ·))
  let attemptLimit ← okOr .invalidMission ((budget.u64? "attempt_limit").filter (0 < ·))
  let reservedTokens ← okOr .invalidMission
    ((budget.u64? "reserved_tokens").filter (· < tokenLimit))
  ["wall_time_limit_ms", "cost_limit_minor_units", "cpu_time_limit_ms"].forM
    (goalOptionalNonnegativeU64 budget)
  refuseWhen
    (tokenLimit != mission.budgetPolicy.total.tokens ||
      reservedTokens != mission.reservedTokens ||
      mission.maxExternalAttempts.any (attemptLimit != ·))
    .invalidMission
  let evidencePolicy ← okOr .invalidMission (object.object? "evidence_policy")
  goalExactKeys evidencePolicy goalEvidencePolicyKeys
  let requiredRecordTypes ← goalStringArray evidencePolicy "required_record_types"
  refuseWhen (requiredRecordTypes.any (!isRequiredRecordType ·)) .invalidMission
  let trustedVerifierIds ← goalStringArray evidencePolicy "trusted_verifier_ids"
  let requireIndependent := evidencePolicy.bool? "require_independent_verifier"
  refuseWhen
    ((evidencePolicy.u64? "minimum_sources").isNone || requireIndependent.isNone ||
      (requireIndependent.getD false && trustedVerifierIds.isEmpty))
    .invalidMission
  let generation ← okOr .invalidMission (object.u64? "generation")
  let parentGoalId ← okOr .invalidMission (object.get? "parent_goal_id")
  let parentContractHash ← okOr .invalidMission (object.get? "parent_contract_hash")
  let evolutionReason ← okOr .invalidMission (object.get? "evolution_reason")
  let hasParent := !parentGoalId.isNull || !parentContractHash.isNull || !evolutionReason.isNull
  checkWhen hasParent do
    let parentGoal ← goalRequiredString object "parent_goal_id"
    let parentHash ← goalRequiredString object "parent_contract_hash"
    refuseWhen
      (!isHexDigest parentHash || (goalRequiredString object "evolution_reason").toOption.isNone ||
        parentGoal.isEmpty)
      .invalidMission
  refuseWhen (1 < generation && !hasParent) .invalidMission

/-- The second pass over a predicate. The state is the set of ids so far and the number of
required predicates so far. -/
def validateCriterion (requireIndependentVerifier : Bool) (state : IdSet × Nat) (raw : Json) :
    Except LabError (IdSet × Nat) := do
  let criterion ← okOr .invalidMission raw.asObject
  refuseWhen (!hasExactJsonKeys criterion goalCriterionKeys) .invalidMission
  let predicateId ← okOr .invalidMission ((criterion.str? "predicate_id").filter (!isBlank ·))
  refuseWhen
    (state.1.contains predicateId || !(criterion.str? "description").any (!isBlank ·) ||
      !(criterion.str? "evaluator").any (!isBlank ·))
    .invalidMission
  let severity ← okOr .invalidMission (criterion.str? "severity")
  let evidenceRefs ← okOr .invalidMission (criterion.array? "evidence_refs")
  refuseWhen (evidenceRefs.any fun value => !value.asStr.any (!isBlank ·)) .invalidMission
  match severity with
  | "required" =>
      refuseWhen (requireIndependentVerifier && evidenceRefs.isEmpty) .invalidMission
      pure (state.1.insert predicateId, saturatingAdd u64Max state.2 1)
  | "advisory" => pure (state.1.insert predicateId, state.2)
  | _ => throw .invalidMission

def isAbsentOrTrimmed (value : Json) : Bool :=
  value.isNull || value.asStr.any fun item => !isBlank item && isTrimmed item

def validateGoalContractJson (externals : Externals) (contractJson : String)
    (mission : LabMissionSpec) : Except LabError Unit := do
  refuseWhen (maxGoalContractWireBytes < contractJson.utf8ByteSize) .invalidMission
  let value ← okOr .invalidMission (externals.fromStr contractJson)
  validateGoalContractLimits value
  let object ← okOr .invalidMission value.asObject
  refuseWhen (!hasExactJsonKeys object goalContractKeys) .invalidMission
  validateGoalContractShape object mission
  refuseWhen
    (object.str? "schema" != some "aegis-goal-contract-v1" ||
      object.str? "objective" != some mission.objective || (object.str? "goal_id").isNone ||
      !(object.str? "policy_digest").any fun digest => digest != "unbound" && isHexDigest digest)
    .invalidMission
  let target ← okOr .invalidMission (object.object? "target")
  refuseWhen (!hasExactJsonKeys target goalTargetKeys) .invalidMission
  refuseWhen
    (!(target.str? "stable_id").any (fun id => !isBlank id && id != "unbound") ||
      !(target.str? "revision_or_digest").any fun id => !isBlank id && id != "unbound")
    .invalidMission
  let acceptance ← okOr .invalidMission (object.array? "acceptance")
  let evidencePolicy ← okOr .invalidMission (object.object? "evidence_policy")
  refuseWhen (!hasExactJsonKeys evidencePolicy goalEvidencePolicyKeys) .invalidMission
  let requireIndependentVerifier ← okOr .invalidMission
    (evidencePolicy.bool? "require_independent_verifier")
  let trustedVerifierIds ← okOr .invalidMission (evidencePolicy.array? "trusted_verifier_ids")
  refuseWhen
    (requireIndependentVerifier && (trustedVerifierIds.isEmpty ||
      trustedVerifierIds.any fun value => !value.asStr.any (!isBlank ·)))
    .invalidMission
  refuseWhen
    ((evidencePolicy.u64? "minimum_sources").isNone ||
      (evidencePolicy.array? "required_record_types").isNone)
    .invalidMission
  let (_, requiredPredicates) ←
    acceptance.foldlM (validateCriterion requireIndependentVerifier) (∅, 0)
  refuseWhen (acceptance.isEmpty || requiredPredicates == 0) .invalidMission
  let budget ← okOr .invalidMission (object.object? "budget")
  refuseWhen (!hasExactJsonKeys budget goalBudgetKeys) .invalidMission
  let tokenLimit ← okOr .invalidMission (budget.u64? "token_limit")
  let attemptLimit ← okOr .invalidMission (budget.u64? "attempt_limit")
  let reservedTokens ← okOr .invalidMission (budget.u64? "reserved_tokens")
  refuseWhen
    (tokenLimit != mission.budgetPolicy.total.tokens ||
      reservedTokens != mission.reservedTokens ||
      mission.maxExternalAttempts.any (attemptLimit != ·) || tokenLimit ≤ reservedTokens)
    .invalidMission
  let generation ← okOr .invalidMission (object.u64? "generation")
  let _ ← okOr .invalidMission (object.u64? "effective_epoch")
  let parentGoalId ← okOr .invalidMission (object.get? "parent_goal_id")
  let parentContractHash ← okOr .invalidMission (object.get? "parent_contract_hash")
  let evolutionReason ← okOr .invalidMission (object.get? "evolution_reason")
  refuseWhen ([parentGoalId, parentContractHash, evolutionReason].any (!isAbsentOrTrimmed ·))
    .invalidMission
  let hasParent := !parentGoalId.isNull || !parentContractHash.isNull || !evolutionReason.isNull
  let parentIsComplete := parentGoalId.asStr.any (!isBlank ·) &&
    parentContractHash.asStr.any isHexDigest && evolutionReason.asStr.any (!isBlank ·)
  refuseWhen
    (generation == 0 || !(object.str? "author_id").any (!isBlank ·) ||
      (hasParent && !parentIsComplete) || (1 < generation && !hasParent))
    .invalidMission
  let contractHash ← okOr .invalidMission (object.str? "contract_hash")
  let contractHashBytes ← okOr .invalidMission (decodeHexDigest contractHash)
  refuseWhen (contractHashBytes ≠ mission.contractHash) .invalidMission
  refuseWhen
    (externals.goalContractDigest (Json.object (object.erase "contract_hash")).canonical ≠
      mission.contractHash)
    .invalidMission

def labSchema : String := "aegis-lab-runtime-v1"

def LabMissionSpec.validate (externals : Externals) (mission : LabMissionSpec) :
    Except LabError Unit := do
  refuseWhen
    (mission.schema != labSchema || isBlank mission.missionId || isBlank mission.objective ||
      isBlank mission.scope || mission.contractHash == Hash.zero || mission.maxSteps == 0 ||
      mission.maxExternalAttempts == some 0)
    .invalidMission
  mission.budgetPolicy.validate.mapError .contract
  match mission.goalContractJson with
  | none => pure ()
  | some contractJson => validateGoalContractJson externals contractJson mission

end Aegis.Lab
