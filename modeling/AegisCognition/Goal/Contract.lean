import AegisCognition.Goal.Target
import AegisCognition.Replay.Event

/-!
# Goal contracts

A contract binds an objective, its acceptance criteria and its target. It evolves into the next
version, which names the hash of its parent. The hash function is a parameter: it takes the
byte string that the source feeds to its hasher.
-/

namespace Aegis.Goal

open Foundation
open Lab (ContractError BudgetVector BudgetDimension BudgetPolicy)
open Replay (Hash)

def gt96ContractSchemaV1 : String := "aegis-gt96-contracts-v1"

structure AcceptanceCriterion where
  id : String
  description : String

/-- What an effect may touch, in the order of the byte that stands for it. -/
inductive SideEffectClass
  | none | localReversible | externalRead | externalWrite | destructive | financialLegal
  deriving DecidableEq

def SideEffectClass.byte : SideEffectClass → UInt8
  | none => 0
  | localReversible => 1
  | externalRead => 2
  | externalWrite => 3
  | destructive => 4
  | financialLegal => 5

structure GoalContract where
  schema : String
  version : Nat
  objective : String
  acceptanceCriteria : List AcceptanceCriterion
  target : TargetDescriptor
  constraints : List String
  invariants : List String
  nonGoals : List String
  effectPolicy : SideEffectClass
  evidenceRequired : Bool
  budgetPolicy : BudgetPolicy
  authorId : String
  effectiveEpoch : Nat
  parentContractHash : Option Hash
  evolutionReason : Option String
  contractHash : Hash

/-! ### The hash -/

def updateU64 (value : Nat) : List UInt8 :=
  leBytes 8 value

def updateString (value : String) : List UInt8 :=
  updateU64 value.utf8ByteSize ++ utf8Bytes value

def updateStringList (label : String) (values : List String) : List UInt8 :=
  updateString label ++ updateU64 values.length ++ values.flatMap updateString

def updateTarget (target : TargetDescriptor) : List UInt8 :=
  utf8Bytes "AEGIS-GT96-TARGET\x00" ++ updateString target.kind ++ updateString target.stableId ++
    updateString target.revisionOrDigest ++ updateStringList "read-roots" target.readRoots ++
    updateStringList "write-roots" target.writeRoots ++
    updateStringList "network-allowlist" target.networkAllowlist ++
    updateStringList "external-side-effects" target.externalSideEffects ++
    updateString target.owner

def updateBudget (budget : BudgetVector) : List UInt8 :=
  [BudgetDimension.tokens, .moneyMinorUnits, .timeMs, .toolCalls, .apiCalls, .cpuMs,
    .riskUnits].flatMap fun dimension => updateU64 (budget.amount dimension)

namespace GoalContract

def hashedBytes (contract : GoalContract) : List UInt8 :=
  utf8Bytes "AEGIS-GT96-GOAL-CONTRACT\x00" ++ updateString contract.schema ++
    updateU64 contract.version ++ updateString contract.objective ++
    updateTarget contract.target ++ updateU64 contract.acceptanceCriteria.length ++
    (contract.acceptanceCriteria.flatMap fun criterion =>
      updateString criterion.id ++ updateString criterion.description) ++
    updateStringList "constraints" contract.constraints ++
    updateStringList "invariants" contract.invariants ++
    updateStringList "non-goals" contract.nonGoals ++
    [contract.effectPolicy.byte, if contract.evidenceRequired then 1 else 0] ++
    updateBudget contract.budgetPolicy.total ++
    updateBudget contract.budgetPolicy.finalizationReserve ++
    updateBudget contract.budgetPolicy.recoveryReserve ++ updateString contract.authorId ++
    updateU64 contract.effectiveEpoch ++
    match contract.parentContractHash with
    | some parent => [1] ++ parent.bytes ++ updateString (contract.evolutionReason.getD "")
    | none => [0]

variable (blake3 : List UInt8 → Hash)

def computeHash (contract : GoalContract) : Hash :=
  blake3 contract.hashedBytes

/-! ### Construction and evolution -/

/-- Every criterion has an id and a description, and no id comes twice. -/
def validateCriteria (ids : List String) : List AcceptanceCriterion → Except ContractError Unit
  | [] => .ok ()
  | criterion :: rest => do
      refuseWhen (isBlank criterion.id || isBlank criterion.description) .emptyField
      refuseWhen (ids.contains criterion.id) .duplicateCriterion
      validateCriteria (criterion.id :: ids) rest

def newWithTargetMetadata (objective : String) (acceptanceCriteria : List AcceptanceCriterion)
    (target : TargetDescriptor) (constraints invariants nonGoals : List String)
    (effectPolicy : SideEffectClass) (evidenceRequired : Bool) (budgetPolicy : BudgetPolicy)
    (authorId : String) (effectiveEpoch : Nat) : Except ContractError GoalContract := do
  target.validate
  refuseWhen
    (isBlank objective || acceptanceCriteria.isEmpty || constraints.any isBlank ||
      invariants.any isBlank || nonGoals.any isBlank || isBlank authorId)
    .emptyField
  validateCriteria [] acceptanceCriteria
  budgetPolicy.validate
  let contract : GoalContract :=
    { schema := gt96ContractSchemaV1, version := 1, objective, acceptanceCriteria, target
      constraints, invariants, nonGoals, effectPolicy, evidenceRequired, budgetPolicy, authorId
      effectiveEpoch, parentContractHash := none, evolutionReason := none
      contractHash := Hash.zero }
  pure { contract with contractHash := contract.computeHash blake3 }

def new (objective : String) (acceptanceCriteria : List AcceptanceCriterion)
    (constraints invariants nonGoals : List String) (effectPolicy : SideEffectClass)
    (evidenceRequired : Bool) (budgetPolicy : BudgetPolicy) : Except ContractError GoalContract :=
  newWithTargetMetadata blake3 objective acceptanceCriteria .legacy constraints invariants nonGoals
    effectPolicy evidenceRequired budgetPolicy "legacy-constructor" 0

/-- A bound target stays bound to the same thing and only narrows. -/
def validateTargetEvolution (current next : TargetDescriptor) : Except ContractError Unit := do
  if current.isBound then
    refuseWhen
      (!next.isBound || next.kind != current.kind || next.stableId != current.stableId ||
        next.owner != current.owner)
      .invalidTargetEvolution
    refuseWhen
      (TargetField.all.any fun field =>
        !targetValuesAreSubset field (field.values next) (field.values current))
      .invalidTargetEvolution

section

variable (contract : GoalContract) (expectedVersion : Nat) (objective : String)

def evolveWithMetadata (acceptanceCriteria : List AcceptanceCriterion) (target : TargetDescriptor)
    (authorId : String) (effectiveEpoch : Nat) (reason : String) :
    Except ContractError GoalContract := do
  refuseWhen (expectedVersion ≠ contract.version) .invalidVersion
  refuseWhen (isBlank reason || effectiveEpoch ≤ contract.effectiveEpoch) .emptyField
  refuseWhen
    (contract.acceptanceCriteria.any fun existing =>
      !acceptanceCriteria.any fun criterion => criterion.id == existing.id)
    .missingCriterion
  validateTargetEvolution contract.target target
  let next ← new blake3 objective acceptanceCriteria contract.constraints contract.invariants
    contract.nonGoals contract.effectPolicy contract.evidenceRequired contract.budgetPolicy
  let next := { next with target, authorId }
  refuseWhen (!next.target.validate.toOption.isSome || isBlank next.authorId) .emptyField
  refuseWhen (u64Max ≤ contract.version) .invalidVersion
  let next := { next with
    effectiveEpoch
    schema := gt96ContractSchemaV1
    version := contract.version + 1
    parentContractHash := some contract.contractHash
    evolutionReason := some reason }
  pure { next with contractHash := next.computeHash blake3 }

/-- An evolution that keeps the target and the author. -/
def evolveWithReason (acceptanceCriteria : List AcceptanceCriterion) (reason : String) :
    Except ContractError GoalContract :=
  contract.evolveWithMetadata blake3 expectedVersion objective acceptanceCriteria contract.target
    contract.authorId (saturatingAdd u64Max contract.effectiveEpoch 1) reason

def evolve (acceptanceCriteria : List AcceptanceCriterion) : Except ContractError GoalContract :=
  contract.evolveWithReason blake3 expectedVersion objective acceptanceCriteria "contract-evolution"

end

def isSelfConsistent (contract : GoalContract) : Bool :=
  contract.schema == gt96ContractSchemaV1 && 0 < contract.version &&
    (contract.version == 1 && contract.parentContractHash.isNone &&
        contract.evolutionReason.isNone ||
      1 < contract.version && contract.parentContractHash.any (· != Hash.zero) &&
        contract.evolutionReason.any (!isBlank ·)) &&
    contract.contractHash == contract.computeHash blake3 &&
    contract.target.validate.toOption.isSome && !isBlank contract.authorId &&
    contract.budgetPolicy.validate.toOption.isSome

end GoalContract

end Aegis.Goal
