import AegisCognition.LabGoal.Target

/-!
# Goal contracts

The immutable definition of one generation of a goal: its acceptance predicates, its target, its
budget and the evidence that it asks for. A contract that was built carries the checks that it
has passed, so no other contract can be written down.
-/

namespace Aegis.LabGoal

open Foundation

/-! ### Predicates -/

inductive Severity
  | required | advisory
  deriving DecidableEq

def Severity.name : Severity → String
  | .required => "required"
  | .advisory => "advisory"

structure AcceptancePredicate where
  predicateId : RequiredText
  description : RequiredText
  evaluator : RequiredText
  inputs : StringSequence
  expectedResult : Scalar
  severity : Severity
  evidenceRefs : StringSequence
  reproducibilityRequirements : StringSequence

namespace AcceptancePredicate

def required (predicate : AcceptancePredicate) : Bool :=
  predicate.severity == .required

def toDict (predicate : AcceptancePredicate) : Value :=
  .dict [("predicate_id", .text predicate.predicateId),
    ("description", .text predicate.description), ("evaluator", .text predicate.evaluator),
    ("inputs", texts predicate.inputs), ("expected_result", predicate.expectedResult.toValue),
    ("severity", .text predicate.severity.name), ("evidence_refs", texts predicate.evidenceRefs),
    ("reproducibility_requirements", texts predicate.reproducibilityRequirements)]

end AcceptancePredicate

/-! ### Budgets -/

structure GoalBudgetContract where
  tokenLimit : Nat
  attemptLimit : Nat
  wallTimeLimitMs : Option Nat
  costLimitMinorUnits : Option Nat
  cpuTimeLimitMs : Option Nat
  reservedTokens : Nat
  someAttempt : 1 ≤ attemptLimit
  headroom : reservedTokens < tokenLimit

inductive BudgetField
  | tokenLimit | attemptLimit | reservedTokens | wallTimeLimitMs | costLimitMinorUnits
  | cpuTimeLimitMs
  deriving DecidableEq

namespace BudgetField

def all : List BudgetField :=
  [tokenLimit, attemptLimit, reservedTokens, wallTimeLimitMs, costLimitMinorUnits, cpuTimeLimitMs]

def name : BudgetField → String
  | tokenLimit => "token_limit"
  | attemptLimit => "attempt_limit"
  | reservedTokens => "reserved_tokens"
  | wallTimeLimitMs => "wall_time_limit_ms"
  | costLimitMinorUnits => "cost_limit_minor_units"
  | cpuTimeLimitMs => "cpu_time_limit_ms"

/-- A limit that is not set does not bound anything. -/
def limit (budget : GoalBudgetContract) : BudgetField → Option Nat
  | tokenLimit => some budget.tokenLimit
  | attemptLimit => some budget.attemptLimit
  | reservedTokens => some budget.reservedTokens
  | wallTimeLimitMs => budget.wallTimeLimitMs
  | costLimitMinorUnits => budget.costLimitMinorUnits
  | cpuTimeLimitMs => budget.cpuTimeLimitMs

end BudgetField

/-- The value is not negative; then it is the natural number it stands for. -/
def nonnegative (e : GoalError) (value : Int) : Except GoalError Nat :=
  if 0 ≤ value then .ok value.toNat else .error e

namespace GoalBudgetContract

/-- The tokens that exploration may use. -/
def explorationHeadroom (budget : GoalBudgetContract) : Nat :=
  budget.tokenLimit - budget.reservedTokens

def optionalInt : Option Nat → Value
  | none => .null
  | some value => .int value

def toDict (budget : GoalBudgetContract) : Value :=
  .dict [("token_limit", .int budget.tokenLimit), ("attempt_limit", .int budget.attemptLimit),
    ("wall_time_limit_ms", optionalInt budget.wallTimeLimitMs),
    ("cost_limit_minor_units", optionalInt budget.costLimitMinorUnits),
    ("cpu_time_limit_ms", optionalInt budget.cpuTimeLimitMs),
    ("reserved_tokens", .int budget.reservedTokens)]

end GoalBudgetContract

/-! ### Evidence -/

structure EvidencePolicy where
  requiredRecordTypes : StringSequence
  minimumSources : Nat
  requireIndependentVerifier : Bool
  trustedVerifierIds : StringSequence
  trusted : requireIndependentVerifier = true → trustedVerifierIds.1 ≠ []

namespace EvidencePolicy

def toDict (policy : EvidencePolicy) : Value :=
  .dict [("required_record_types", texts policy.requiredRecordTypes),
    ("minimum_sources", .int policy.minimumSources),
    ("require_independent_verifier", .bool policy.requireIndependentVerifier),
    ("trusted_verifier_ids", texts policy.trustedVerifierIds)]

end EvidencePolicy

/-! ### Contracts -/

variable (lib : Library)

structure ContractFields where
  goalId : RequiredText
  objective : RequiredText
  target : TargetDescriptor lib
  acceptance : List AcceptancePredicate
  scope : StringSequence
  nonGoals : StringSequence
  policyDigest : RequiredText
  budget : GoalBudgetContract
  evidencePolicy : EvidencePolicy
  generation : Nat
  parentGoalId : Option RequiredText
  parentContractHash : Option RequiredText
  authorId : RequiredText
  effectiveEpoch : Nat
  evolutionReason : Option RequiredText
  createdAtMs : Nat

def goalContractSchema : String := "aegis-goal-contract-v1"

/-- `_digest`: the hash of the canonical text in its domain, in hexadecimal digits. -/
def digest (value : Value) : Option String :=
  (value.dumps lib.floatRepr).map fun payload =>
    Lab.digestHex (lib.blake3
      ("aegis-goal-contract-canonical-v1\x00" ++ String.ofList payload).toUTF8.data.toList)

namespace ContractFields

variable {lib} (contract : ContractFields lib)

def optionalText : Option RequiredText → Value
  | none => .null
  | some text => .text text

def definitionDict : Value :=
  .dict [("schema", .text goalContractSchema), ("goal_id", .text contract.goalId),
    ("generation", .int contract.generation), ("objective", .text contract.objective),
    ("acceptance", .list (contract.acceptance.map AcceptancePredicate.toDict)),
    ("target", contract.target.toTargetFields.toDict), ("scope", texts contract.scope),
    ("non_goals", texts contract.nonGoals), ("policy_digest", .text contract.policyDigest),
    ("budget", contract.budget.toDict), ("evidence_policy", contract.evidencePolicy.toDict),
    ("parent_goal_id", optionalText contract.parentGoalId),
    ("parent_contract_hash", optionalText contract.parentContractHash),
    ("author_id", .text contract.authorId), ("effective_epoch", .int contract.effectiveEpoch),
    ("evolution_reason", optionalText contract.evolutionReason),
    ("created_at_ms", .int contract.createdAtMs)]

end ContractFields

/-- A parent is named together with its hash and the reason, or not at all. -/
def parentIsComplete (parentGoalId parentContractHash evolutionReason : Option String) : Bool :=
  parentGoalId.isSome && parentContractHash.any isDigest && evolutionReason.isSome

def parentIsAbsent (parentGoalId parentContractHash evolutionReason : Option String) : Bool :=
  parentGoalId.isNone && parentContractHash.isNone && evolutionReason.isNone

/-- A contract that was built, with the checks that it has passed. -/
structure GoalContract extends ContractFields lib where
  ordered : (acceptance.map (·.predicateId.1)).Pairwise (· < ·)
  positive : 1 ≤ generation
  parent : parentIsComplete (parentGoalId.map (·.1)) (parentContractHash.map (·.1))
      (evolutionReason.map (·.1)) = true ∨
    generation = 1 ∧ parentIsAbsent (parentGoalId.map (·.1)) (parentContractHash.map (·.1))
      (evolutionReason.map (·.1)) = true
  fits : GoalContractLimits.default.validateWire lib.floatRepr toContractFields.definitionDict =
    .ok ()

/-- What a contract is built from. -/
structure ContractArguments where
  goalId : String
  objective : String
  target : TargetDescriptor lib
  acceptance : List AcceptancePredicate
  scope : List String
  nonGoals : List String
  policyDigest : String
  budget : GoalBudgetContract
  evidencePolicy : EvidencePolicy
  generation : Int
  parentGoalId : Option String
  parentContractHash : Option String
  authorId : String
  effectiveEpoch : Int
  evolutionReason : Option String
  createdAtMs : Int

def sortPredicates (acceptance : List AcceptancePredicate) : List AcceptancePredicate :=
  acceptance.insertionSort fun first second => first.predicateId.1 ≤ second.predicateId.1

theorem sortPredicates_ordered {acceptance : List AcceptancePredicate}
    (unique : (acceptance.map (·.predicateId.1)).Nodup) :
    ((sortPredicates acceptance).map (·.predicateId.1)).Pairwise (· < ·) := by
  have sorted : (sortPredicates acceptance).Pairwise
      fun first second => first.predicateId.1 ≤ second.predicateId.1 :=
    List.pairwise_insertionSort _ _
  have perm : (sortPredicates acceptance).Perm acceptance := List.perm_insertionSort _ _
  have distinct : ((sortPredicates acceptance).map (·.predicateId.1)).Pairwise (· ≠ ·) :=
    (perm.map _).nodup_iff.mpr unique
  have ordered : ((sortPredicates acceptance).map (·.predicateId.1)).Pairwise (· ≤ ·) :=
    List.pairwise_map.mpr sorted
  exact (ordered.and distinct).imp fun ⟨le, ne⟩ => lt_of_le_of_ne le ne

def optionalRequiredText (label : String) :
    (value : Option String) →
      Except GoalError { text : Option RequiredText // text.map (·.1) = value }
  | none => .ok ⟨none, rfl⟩
  | some value =>
      if h : isRequired value = true then .ok ⟨some ⟨value, h⟩, rfl⟩
      else .error (.value (label ++ " must be a non-empty trimmed string"))

namespace GoalContract

variable {lib}

def new (args : ContractArguments lib) : Except GoalError (GoalContract lib) := do
  let goalId ← requiredText "goal_id" args.goalId
  let objective ← requiredText "objective" args.objective
  let ⟨unique⟩ ← demand (.value "goal acceptance predicate ids must be unique")
    (args.acceptance.map (·.predicateId.1)).Nodup
  let scope ← stringSequence "goal scope" args.scope
  let nonGoals ← stringSequence "goal non_goals" args.nonGoals
  let policyDigest ← requiredText "policy_digest" args.policyDigest
  let generation ←
    nonnegative (.value "goal generation must be a positive integer") args.generation
  let ⟨positive⟩ ← demand (.value "goal generation must be a positive integer") (1 ≤ generation)
  let parentGoalId ← optionalRequiredText "parent_goal_id" args.parentGoalId
  let parentContractHash ← optionalRequiredText "parent_contract_hash" args.parentContractHash
  let authorId ← requiredText "author_id" args.authorId
  let effectiveEpoch ←
    nonnegative (.value "goal effective_epoch must be non-negative") args.effectiveEpoch
  let ⟨child⟩ ← demand
    (.value "child goal requires parent_goal_id, parent_contract_hash and evolution_reason")
    (generation = 1 →
      parentIsAbsent args.parentGoalId args.parentContractHash args.evolutionReason = true ∨
        parentIsComplete args.parentGoalId args.parentContractHash args.evolutionReason = true)
  let ⟨evolved⟩ ← demand
    (.value "evolved goal requires parent_goal_id, parent_contract_hash and evolution_reason")
    (1 < generation →
      parentIsComplete args.parentGoalId args.parentContractHash args.evolutionReason = true)
  let evolutionReason ← optionalRequiredText "evolution_reason" args.evolutionReason
  let createdAtMs ←
    nonnegative (.value "goal created_at_ms must be a non-negative integer") args.createdAtMs
  let fields : ContractFields lib := {
    goalId, objective
    target := args.target
    acceptance := sortPredicates args.acceptance
    scope, nonGoals, policyDigest
    budget := args.budget
    evidencePolicy := args.evidencePolicy
    generation
    parentGoalId := parentGoalId.1
    parentContractHash := parentContractHash.1
    authorId, effectiveEpoch
    evolutionReason := evolutionReason.1
    createdAtMs }
  let ⟨fits⟩ ← pass (GoalContractLimits.default.validateWire lib.floatRepr fields.definitionDict)
  .ok { fields with
    ordered := sortPredicates_ordered unique
    positive
    parent := by
      rw [parentGoalId.2, parentContractHash.2, evolutionReason.2]
      by_cases first : generation = 1
      · exact (child first).symm.imp_right fun absent => ⟨first, absent⟩
      · exact .inl (evolved (Nat.lt_of_le_of_ne positive (Ne.symm first)))
    fits }

/-- The hash of a contract. Its text exists, as the contract fits its limits. -/
def contractHash (contract : GoalContract lib) : String :=
  (digest lib contract.definitionDict).getD ""

end GoalContract

end Aegis.LabGoal
