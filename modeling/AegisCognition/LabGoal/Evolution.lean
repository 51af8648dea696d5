import AegisCognition.LabGoal.Contract

/-!
# Evolution and child goals

A contract is followed by its next generation or by a child. Both operations compare the new
definition with the old one: predicates may be added and strengthened, the scope may shrink, the
constraints may grow, the target of a bound contract may narrow. A child may lower its budget.
-/

namespace Aegis.LabGoal

open Foundation

/-! ### Comparisons that both operations make -/

/-- The predicate that a dictionary built from the list holds under the id: the last one. -/
def predicateById (acceptance : List AcceptancePredicate) (id : String) :
    Option AcceptancePredicate :=
  acceptance.reverse.find? fun predicate => predicate.predicateId.1 == id

def isSubset (first second : List String) : Bool :=
  first.all second.contains

/-- The comparisons of one predicate with the one that takes its place. -/
def keepPredicate (subject : String) (previous updated : AcceptancePredicate) :
    Except GoalError Unit := do
  refuseWhen (previous.required && !updated.required)
    (.contract (subject ++ " cannot weaken a required predicate"))
  refuseWhen (updated.evaluator ≠ previous.evaluator)
    (.contract (subject ++ " cannot replace a predicate evaluator"))
  refuseWhen (updated.inputs ≠ previous.inputs)
    (.contract (subject ++ " cannot change predicate inputs"))
  refuseWhen (!updated.expectedResult.pyEq previous.expectedResult)
    (.contract (subject ++ " cannot change a predicate result"))
  refuseWhen (!isSubset previous.evidenceRefs updated.evidenceRefs)
    (.contract (subject ++ " cannot remove predicate evidence"))
  refuseWhen
    (!isSubset previous.reproducibilityRequirements updated.reproducibilityRequirements)
    (.contract (subject ++ " cannot remove reproducibility requirements"))

/-- Every current predicate has one in the next list that takes its place. -/
def keepAcceptance (subject removed : String) (current next : List AcceptancePredicate) :
    Except GoalError Unit := do
  refuseWhen
    (!current.all fun previous => (predicateById next previous.predicateId).isSome)
    (.contract (subject ++ removed))
  current.forM fun previous => do
    let updated ← okOr (.value "no such predicate") (predicateById next previous.predicateId)
    keepPredicate subject previous updated

def narrowFields {lib : Library} (subject : String) (current next : TargetDescriptor lib) :
    Except GoalError Unit :=
  TargetField.all.forM fun field => do
    let narrowed ← targetValuesAreSubset lib field (field.values next.toTargetFields)
      (field.values current.toTargetFields)
    refuseWhen (narrowed = false) (.contract (subject ++ " cannot expand target " ++ field.name))

/-- The texts that are passed, or the current ones. -/
def sequenceOr (label : String) (current : StringSequence) :
    Option (List String) → Except GoalError StringSequence
  | none => .ok current
  | some values => stringSequence label values

/-- The limit is not above the one of the parent. -/
def isWithin (child parent : Option Nat) : Bool :=
  match parent, child with
  | none, _ => true
  | some _, none => false
  | some parent, some child => child ≤ parent

def narrowBudget (parent child : GoalBudgetContract) : Except GoalError Unit :=
  BudgetField.all.forM fun field =>
    refuseWhen (!isWithin (field.limit child) (field.limit parent))
      (.contract ("child goal cannot expand budget " ++ field.name))

section Targets

variable {lib : Library} (current : TargetDescriptor lib)

/-- The next generation keeps what a bound target is and narrows what it allows. -/
def evolveTarget (next : TargetDescriptor lib) : Except GoalError Unit :=
  if current.isBound then do
    refuseWhen
      (!next.isBound || next.kind != current.kind || next.stableId != current.stableId)
      (.contract "contract evolution cannot retarget or unbind a bound goal")
    refuseWhen (next.owner ≠ current.owner)
      (.contract "contract evolution cannot transfer target ownership")
    narrowFields "contract evolution" current next
  else .ok ()

/-- A child keeps the revision, too, and an unbound target stays as it is. -/
def narrowTarget (child : TargetDescriptor lib) : Except GoalError Unit :=
  if current.isBound then do
    refuseWhen
      (child.kind != current.kind || child.stableId != current.stableId ||
        child.revisionOrDigest != current.revisionOrDigest)
      (.contract "child goal cannot retarget the parent target")
    refuseWhen (child.owner ≠ current.owner)
      (.contract "child goal cannot transfer target ownership")
    narrowFields "child goal" current child
  else
    refuseWhen (child ≠ current)
      (.contract "child goal cannot bind or expand an unbound parent target")

end Targets

namespace GoalContract

variable {lib : Library} (contract : GoalContract lib)

/-! ### The next generation -/

structure EvolveArguments (lib : Library) where
  expectedGeneration : Int
  authorId : String
  effectiveEpoch : Int
  reason : String
  objective : Option String
  target : Option (TargetDescriptor lib)
  acceptance : Option (List AcceptancePredicate)
  scope : Option (List String)
  nonGoals : Option (List String)

def evolve (args : EvolveArguments lib) : Except GoalError (GoalContract lib) := do
  refuseWhen (args.expectedGeneration ≠ contract.generation)
    (.stale "goal contract generation is stale")
  let nextAcceptance := args.acceptance.getD contract.acceptance
  keepAcceptance "contract evolution" " cannot silently remove acceptance predicates"
    contract.acceptance nextAcceptance
  refuseWhen (args.effectiveEpoch ≤ contract.effectiveEpoch)
    (.contract "contract evolution epoch must increase")
  let nextScope ← sequenceOr "goal scope" contract.scope args.scope
  refuseWhen (!isSubset nextScope contract.scope)
    (.contract "contract evolution cannot expand goal scope")
  let nextNonGoals ← sequenceOr "goal non_goals" contract.nonGoals args.nonGoals
  refuseWhen (!isSubset contract.nonGoals nextNonGoals)
    (.contract "contract evolution cannot remove non-goal constraints")
  let nextTarget := args.target.getD contract.target
  evolveTarget contract.target nextTarget
  new {
    goalId := contract.goalId
    objective := args.objective.getD contract.objective
    target := nextTarget
    acceptance := nextAcceptance
    scope := nextScope
    nonGoals := nextNonGoals
    policyDigest := contract.policyDigest
    budget := contract.budget
    evidencePolicy := contract.evidencePolicy
    generation := contract.generation + 1
    parentGoalId := some contract.goalId
    parentContractHash := some contract.contractHash
    authorId := args.authorId
    effectiveEpoch := args.effectiveEpoch
    evolutionReason := some args.reason
    createdAtMs := contract.createdAtMs }

/-! ### A child -/

structure SpawnArguments (lib : Library) where
  expectedGeneration : Int
  childGoalId : String
  authorId : String
  effectiveEpoch : Int
  reason : String
  objective : Option String
  target : Option (TargetDescriptor lib)
  acceptance : Option (List AcceptancePredicate)
  scope : Option (List String)
  nonGoals : Option (List String)
  budget : Option GoalBudgetContract

/-- The creation time of a child is read from the clock. -/
def spawnChild (nowMs : Int) (args : SpawnArguments lib) : Except GoalError (GoalContract lib) := do
  refuseWhen (args.expectedGeneration ≠ contract.generation)
    (.stale "parent goal generation is stale")
  let childGoalId ← requiredText "child_goal_id" args.childGoalId
  refuseWhen (childGoalId = contract.goalId)
    (.contract "child goal must have a distinct goal id")
  refuseWhen (args.effectiveEpoch ≤ contract.effectiveEpoch)
    (.contract "child goal epoch must increase")
  let childAcceptance := args.acceptance.getD contract.acceptance
  keepAcceptance "child goal" " cannot remove parent acceptance predicates" contract.acceptance
    childAcceptance
  let childScope ← sequenceOr "child goal scope" contract.scope args.scope
  refuseWhen (!isSubset childScope contract.scope)
    (.contract "child goal cannot expand parent scope")
  let childNonGoals ← sequenceOr "child goal non_goals" contract.nonGoals args.nonGoals
  refuseWhen (!isSubset contract.nonGoals childNonGoals)
    (.contract "child goal cannot remove parent non-goal constraints")
  let childTarget := args.target.getD contract.target
  narrowTarget contract.target childTarget
  let childBudget := args.budget.getD contract.budget
  narrowBudget contract.budget childBudget
  new {
    goalId := childGoalId
    objective := args.objective.getD contract.objective
    target := childTarget
    acceptance := childAcceptance
    scope := childScope
    nonGoals := childNonGoals
    policyDigest := contract.policyDigest
    budget := childBudget
    evidencePolicy := contract.evidencePolicy
    generation := 1
    parentGoalId := some contract.goalId
    parentContractHash := some contract.contractHash
    authorId := args.authorId
    effectiveEpoch := args.effectiveEpoch
    evolutionReason := some args.reason
    createdAtMs := nowMs }

end GoalContract

end Aegis.LabGoal
