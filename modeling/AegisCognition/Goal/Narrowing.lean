import Mathlib.Order.Bounds.Basic
import AegisCognition.Foundation.EarlyReturn
import AegisCognition.Goal.Evolution

/-!
# Narrowing as an order

A URI and an absolute path stand for a scope, and containment is the order of the scopes. A
relative path stands for none and lies in no root, not even in itself. The evolution of a target
is therefore transitive, and a target is an evolution of itself exactly if it has no relative
root. The validation of a target admits relative roots.
-/

namespace Aegis.Goal

open Foundation GoalContract List
open Lab (ContractError)
open Replay (Hash)

/-! ### Scopes -/

/-- What a root stands for, as the containment check reads it. -/
inductive Scope
  | uri (scheme authority path : List Char)
  | file (path : List (PathStep (List Char)))

namespace Scope

def Within : Scope → Scope → Prop
  | uri scheme authority path, uri scheme' authority' path' =>
      scheme = scheme' ∧ authority = authority' ∧ GoesOn '/' path path'
  | file path, file path' => path' <+: path
  | _, _ => False

theorem within_refl (scope : Scope) : scope.Within scope := by
  cases scope with
  | uri scheme authority path => exact ⟨rfl, rfl, .refl path⟩
  | file path => exact prefix_rfl

theorem within_trans {first second third : Scope} (h : first.Within second)
    (h' : second.Within third) : first.Within third := by
  cases first <;> cases second <;> cases third <;> try contradiction
  · obtain ⟨rfl, rfl, below⟩ := h
    obtain ⟨rfl, rfl, below'⟩ := h'
    exact ⟨rfl, rfl, below.trans below'⟩
  · exact List.IsPrefix.trans h' h

instance : Preorder Scope where
  le := Within
  le_refl := within_refl
  le_trans _ _ _ := within_trans

end Scope

def scopeOf (root : String) : Option Scope :=
  match parseUri root with
  | some uri => some (.uri uri.scheme uri.authority uri.path)
  | none => if isAbsolute root then some (.file (components root.toList)) else none

/-- The scopes of the roots that have one. -/
def scopes (roots : List String) : Set Scope :=
  {scope | ∃ root ∈ roots, scopeOf root = some scope}

theorem scopeOf_isSome_iff {root : String} :
    (scopeOf root).isSome = true ↔ (parseUri root).isSome = true ∨ isAbsolute root = true := by
  rw [scopeOf]
  cases parseUri root with
  | some uri => simp
  | none => cases isAbsolute root <;> simp

/-! ### Containment -/

theorem stripPrefix_eq_some_iff {start text rest : List Char} :
    stripPrefix start text = some rest ↔ text = start ++ rest := by
  rw [stripPrefix]
  split
  case isTrue starts =>
    obtain ⟨tail, rfl⟩ := List.isPrefixOf_iff_prefix.mp starts
    simp
  case isFalse other =>
    constructor
    · intro none
      cases none
    · rintro rfl
      exact absurd (List.isPrefixOf_iff_prefix.mpr (prefix_append start rest)) other

theorem goesOn_iff {path start : List Char} : GoesOn '/' path start ↔
    (path == start || (stripPrefix (start.rdropWhile (· == '/')) path).any
      (·.head? == some '/')) = true := by
  rw [GoesOn, Bool.or_eq_true, beq_iff_eq, Option.any_eq_true]
  apply or_congr_right
  constructor
  · rintro ⟨rest, split⟩
    exact ⟨'/' :: rest, stripPrefix_eq_some_iff.mpr split, rfl⟩
  · rintro ⟨tail, stripped, slash⟩
    obtain ⟨rest, rfl⟩ := List.head?_eq_some_iff.mp (beq_iff_eq.mp slash)
    exact ⟨rest, stripPrefix_eq_some_iff.mp stripped⟩

theorem uri_le_iff {uri root : UriScope} :
    Scope.uri uri.scheme uri.authority uri.path ≤ .uri root.scheme root.authority root.path ↔
      (if uri.scheme ≠ root.scheme ∨ uri.authority ≠ root.authority then false
      else uri.path == root.path || (stripPrefix (root.path.rdropWhile (· == '/')) uri.path).any
        (·.head? == some '/')) = true := by
  show uri.scheme = root.scheme ∧ uri.authority = root.authority ∧ GoesOn '/' _ _ ↔ _
  rw [goesOn_iff]
  split
  case isTrue other =>
    constructor
    · rintro ⟨scheme, authority, -⟩
      exact absurd other (not_or.mpr ⟨not_not.mpr scheme, not_not.mpr authority⟩)
    · intro none
      cases none
  case isFalse same =>
    obtain ⟨scheme, authority⟩ := not_or.mp same
    simp only [not_not.mp scheme, not_not.mp authority, true_and]

/-- Containment is the order of the scopes. -/
theorem targetScopeContains_iff {candidate parent : String} :
    targetScopeContains candidate parent = true ↔ ∃ inner outer, scopeOf candidate = some inner ∧
      scopeOf parent = some outer ∧ inner ≤ outer := by
  simp only [targetScopeContains, scopeOf]
  cases parseUri candidate with
  | some uri =>
      cases parseUri parent with
      | some root =>
          rw [← uri_le_iff]
          simp
      | none =>
          -- A URI lies in no path.
          constructor
          · intro none
            cases none
          · rintro ⟨inner, outer, found, found', le⟩
            cases found
            obtain ⟨-, found'⟩ := Option.ite_none_right_eq_some.mp found'
            cases found'
            cases le
  | none =>
      cases parseUri parent with
      | some root =>
          constructor
          · intro none
            cases none
          · rintro ⟨inner, outer, found, found', le⟩
            obtain ⟨-, found⟩ := Option.ite_none_right_eq_some.mp found
            cases found
            cases found'
            cases le
      | none =>
          simp only [Bool.and_eq_true, List.isPrefixOf_iff_prefix, Option.ite_none_right_eq_some,
            Option.some.injEq]
          constructor
          · rintro ⟨⟨absolute, absolute'⟩, starts⟩
            exact ⟨_, _, ⟨absolute, rfl⟩, ⟨absolute', rfl⟩, starts⟩
          · rintro ⟨_, _, ⟨absolute, rfl⟩, ⟨absolute', rfl⟩, starts⟩
            exact ⟨⟨absolute, absolute'⟩, starts⟩

/-! ### Targets -/

section Fields

variable {field : TargetField} {low middle high values : List String}

theorem targetValuesAreSubset_scopes (scope : field.isScope = true) :
    targetValuesAreSubset field low high = true ↔
      (∀ root ∈ low, (scopeOf root).isSome = true) ∧ IsCofinalFor (scopes low) (scopes high) := by
  simp only [targetValuesAreSubset, scope, if_true, all_eq_true, any_eq_true,
    targetScopeContains_iff]
  constructor
  · intro covered
    refine ⟨fun root mem => ?_, ?_⟩
    · obtain ⟨-, -, inner, -, found, -⟩ := covered root mem
      rw [found, Option.isSome_some]
    · rintro scope ⟨root, mem, found⟩
      obtain ⟨parent, mem', inner, outer, found', above, le⟩ := covered root mem
      obtain rfl := Option.some.inj (found.symm.trans found')
      exact ⟨outer, ⟨parent, mem', above⟩, le⟩
  · rintro ⟨all, cofinal⟩ root mem
    obtain ⟨inner, found⟩ := Option.isSome_iff_exists.mp (all root mem)
    obtain ⟨outer, ⟨parent, mem', above⟩, le⟩ := cofinal ⟨root, mem, found⟩
    exact ⟨parent, mem', inner, outer, found, above, le⟩

theorem targetValuesAreSubset_entries (plain : field.isScope = false) :
    targetValuesAreSubset field low high = true ↔ low ⊆ high := by
  simp only [targetValuesAreSubset, plain, Bool.false_eq_true, if_false, all_eq_true,
    any_eq_true, beq_iff_eq, exists_eq_right]
  rfl

theorem targetValuesAreSubset_trans (h : targetValuesAreSubset field low middle = true)
    (h' : targetValuesAreSubset field middle high = true) :
    targetValuesAreSubset field low high = true := by
  cases scope : field.isScope with
  | true =>
      rw [targetValuesAreSubset_scopes scope] at *
      exact ⟨h.1, h.2.trans h'.2⟩
  | false =>
      rw [targetValuesAreSubset_entries scope] at *
      exact List.Subset.trans h h'

theorem targetValuesAreSubset_self_iff : targetValuesAreSubset field values values = true ↔
    (field.isScope = true → ∀ root ∈ values, (scopeOf root).isSome = true) := by
  cases scope : field.isScope with
  | true =>
      rw [targetValuesAreSubset_scopes scope]
      constructor
      · intro h _
        exact h.1
      · intro all
        exact ⟨all rfl, .rfl⟩
  | false =>
      rw [targetValuesAreSubset_entries scope]
      simp

end Fields

/-- The evolution of the first target to the second one passes the check of the targets. -/
def AllowedEvolution (current next : TargetDescriptor) : Prop :=
  validateTargetEvolution current next = .ok ()

section Targets

variable {first second third target : TargetDescriptor}

theorem NarrowsTarget.trans (h : NarrowsTarget first second) (h' : NarrowsTarget second third) :
    NarrowsTarget first third where
  bound := h'.bound
  kind := h'.kind.trans h.kind
  stableId := h'.stableId.trans h.stableId
  owner := h'.owner.trans h.owner
  subset field := targetValuesAreSubset_trans (h'.subset field) (h.subset field)

theorem allowedEvolution_iff :
    AllowedEvolution first second ↔ (first.isBound = true → NarrowsTarget first second) := by
  constructor
  · intro allowed bound
    exact narrowsTarget_of_ok bound allowed
  · intro narrows
    rw [AllowedEvolution, validateTargetEvolution]
    split
    case isTrue bound =>
      have step := narrows bound
      simp only [bind_eq_ok_iff, refuseWhen_eq_ok_iff]
      refine ⟨(), ?_, ?_⟩
      · simp [step.bound, step.kind, step.stableId, step.owner]
      · simp [step.subset]
    case isFalse => rfl

theorem AllowedEvolution.trans (h : AllowedEvolution first second)
    (h' : AllowedEvolution second third) : AllowedEvolution first third := by
  rw [allowedEvolution_iff] at *
  intro bound
  have step := h bound
  exact step.trans (h' step.bound)

/-- A target is an evolution of itself exactly if it is unbound or has no relative root. -/
theorem allowedEvolution_self_iff : AllowedEvolution target target ↔
    (target.isBound = true →
      ∀ root ∈ target.readRoots ++ target.writeRoots, (scopeOf root).isSome = true) := by
  rw [allowedEvolution_iff]
  apply imp_congr_right
  intro bound
  constructor
  · intro narrows root mem
    obtain read | written := mem_append.mp mem
    · exact targetValuesAreSubset_self_iff.mp (narrows.subset .readRoots) rfl root read
    · exact targetValuesAreSubset_self_iff.mp (narrows.subset .writeRoots) rfl root written
  · intro all
    refine ⟨bound, rfl, rfl, rfl, fun field => targetValuesAreSubset_self_iff.mpr ?_⟩
    intro scope root mem
    apply all root
    cases field with
    | readRoots => exact mem_append_left _ mem
    | writeRoots => exact mem_append_right _ mem
    | networkAllowlist | externalSideEffects => cases scope

end Targets

/-! ### Contracts -/

/-- Some evolution of the contract to the target is refused because of the target. -/
def RefusesTarget (blake3 : List UInt8 → Hash) (contract : GoalContract)
    (target : TargetDescriptor) : Prop :=
  ∃ expectedVersion objective acceptanceCriteria authorId effectiveEpoch reason,
    effectiveEpoch ≤ u64Max ∧
      contract.evolveWithMetadata blake3 expectedVersion objective acceptanceCriteria target
        authorId effectiveEpoch reason = .error .invalidTargetEvolution

section Contracts

variable {blake3 : List UInt8 → Hash} {contract : GoalContract} {target : TargetDescriptor}

theorem validateTargetEvolution_eq_error {current next : TargetDescriptor} {error : ContractError}
    (h : validateTargetEvolution current next = .error error) :
    error = .invalidTargetEvolution := by
  rw [validateTargetEvolution] at h
  split at h
  · obtain identity | ⟨_, -, widened⟩ := bind_eq_error_iff.mp h
    · exact (refuseWhen_eq_error_iff.mp identity).2.symm
    · exact (refuseWhen_eq_error_iff.mp widened).2.symm
  · cases h

theorem validateTargetEvolution_eq_error_iff {current next : TargetDescriptor} :
    validateTargetEvolution current next = .error .invalidTargetEvolution ↔
      ¬ AllowedEvolution current next := by
  rw [AllowedEvolution]
  cases h : validateTargetEvolution current next with
  | ok _ => simp
  | error error => simp [validateTargetEvolution_eq_error h]

/-- An error that does not speak of the target. -/
def SparesTarget (error : ContractError) : Prop := error ≠ .invalidTargetEvolution

instance : DecidablePred SparesTarget := fun _ => inferInstanceAs (Decidable (_ ≠ _))

theorem emptyField_spares : SparesTarget .emptyField := by decide

theorem validateCriteria_stops (ids : List String) (criteria : List AcceptanceCriterion) :
    Stops SparesTarget (validateCriteria ids criteria) := by
  have duplicate : SparesTarget .duplicateCriterion := by decide
  induction criteria generalizing ids with
  | nil => exact .ok _
  | cons criterion criteria ih =>
      rw [validateCriteria]
      apply Stops.check emptyField_spares
      apply Stops.check duplicate
      exact ih _

theorem checkedAdd_stops (v w : Lab.BudgetVector) : Stops SparesTarget (v.checkedAdd w) := by
  intro error failed same
  rw [Lab.BudgetVector.checkedAdd] at failed
  split at failed
  · cases failed
  · cases failed
    cases same

theorem budgetPolicy_stops (policy : Lab.BudgetPolicy) : Stops SparesTarget policy.validate := by
  have budget : SparesTarget .invalidBudget := by decide
  apply Stops.bind (checkedAdd_stops _ _)
  intro reserved _
  exact .refuseWhen fun _ => budget

theorem validate_stops (target : TargetDescriptor) : Stops SparesTarget target.validate := by
  rw [TargetDescriptor.validate]
  apply Stops.check emptyField_spares
  apply Stops.check emptyField_spares
  apply Stops.check emptyField_spares
  exact .refuseWhen fun _ => emptyField_spares

/-- The contract that an evolution starts from is made without a look at the target. -/
theorem new_stops (objective : String) (criteria : List AcceptanceCriterion)
    (constraints invariants nonGoals : List String) (effectPolicy : SideEffectClass)
    (evidenceRequired : Bool) (budgetPolicy : Lab.BudgetPolicy) :
    Stops SparesTarget (GoalContract.new blake3 objective criteria constraints invariants nonGoals
      effectPolicy evidenceRequired budgetPolicy) := by
  rw [GoalContract.new, newWithTargetMetadata]
  apply Stops.bind (validate_stops _)
  intro _ _
  apply Stops.check emptyField_spares
  apply Stops.bind (validateCriteria_stops _ _)
  intro _ _
  apply Stops.bind (budgetPolicy_stops _)
  intro _ _
  exact .ok _

/-- An evolution is refused because of the target if the checks before it pass and the target
is none that the contract may evolve to. -/
theorem evolveWithMetadata_refuses_iff {expectedVersion : Nat} {objective : String}
    {criteria : List AcceptanceCriterion} {authorId : String} {effectiveEpoch : Nat}
    {reason : String} :
    contract.evolveWithMetadata blake3 expectedVersion objective criteria target authorId
        effectiveEpoch reason = .error .invalidTargetEvolution ↔
      (expectedVersion = contract.version ∧ isBlank reason = false ∧
        contract.effectiveEpoch < effectiveEpoch ∧
        ∀ existing ∈ contract.acceptanceCriteria,
          ∃ criterion ∈ criteria, criterion.id = existing.id) ∧
        ¬ AllowedEvolution contract.target target := by
  have version : SparesTarget .invalidVersion := by decide
  have missing : SparesTarget .missingCriterion := by decide
  rw [evolveWithMetadata, check_bind_eq_error_iff version,
    check_bind_eq_error_iff emptyField_spares, check_bind_eq_error_iff missing,
    bind_eq_error_iff_left, validateTargetEvolution_eq_error_iff]
  · simp only [ne_eq, not_not, Bool.not_eq_true, Bool.or_eq_false_iff, decide_eq_false_iff_not,
      Nat.not_le, any_eq_true, Bool.not_eq_eq_eq_not, Bool.not_true, not_exists, not_and,
      Bool.not_eq_false, beq_iff_eq, and_assoc]
  · -- Nothing that comes after the check of the targets speaks of them.
    intro _
    refine Stops.ne_error (p := SparesTarget) ?_ (by decide)
    apply Stops.bind (new_stops _ _ _ _ _ _ _ _)
    intro next _
    apply Stops.check emptyField_spares
    apply Stops.check version
    exact .ok _

theorem refusesTarget_iff : RefusesTarget blake3 contract target ↔
    contract.effectiveEpoch < u64Max ∧ ¬ AllowedEvolution contract.target target := by
  simp only [RefusesTarget, evolveWithMetadata_refuses_iff]
  constructor
  · rintro ⟨_, _, _, _, epoch, _, bound, ⟨-, -, later, -⟩, refused⟩
    exact ⟨Nat.lt_of_lt_of_le later bound, refused⟩
  · rintro ⟨later, refused⟩
    exact ⟨contract.version, "", contract.acceptanceCriteria, "", u64Max, "reason", Nat.le_refl _,
      ⟨rfl, by decide, later, fun existing mem => ⟨existing, mem, rfl⟩⟩, refused⟩

/-- An evolution that keeps the target has an epoch to go on to unless all of them are used. -/
theorem evolveWithReason_refuses_iff {expectedVersion : Nat} {objective : String}
    {criteria : List AcceptanceCriterion} {reason : String} :
    contract.evolveWithReason blake3 expectedVersion objective criteria reason =
        .error .invalidTargetEvolution ↔
      (expectedVersion = contract.version ∧ isBlank reason = false ∧
        contract.effectiveEpoch < u64Max ∧
        ∀ existing ∈ contract.acceptanceCriteria,
          ∃ criterion ∈ criteria, criterion.id = existing.id) ∧
        ¬ AllowedEvolution contract.target contract.target := by
  have epoch : contract.effectiveEpoch < saturatingAdd u64Max contract.effectiveEpoch 1 ↔
      contract.effectiveEpoch < u64Max := by
    rw [saturatingAdd]
    omega
  rw [evolveWithReason, evolveWithMetadata_refuses_iff, epoch]

end Contracts

/-- What a target may evolve to is transitive, and a contract may evolve with its own target
exactly if the target is unbound, no epoch is left, or every root is a URI or an absolute path. -/
theorem narrowing_preorder_iff (blake3 : List UInt8 → Hash) :
    (∀ contract : GoalContract, ¬ RefusesTarget blake3 contract contract.target ↔
      (contract.target.isBound = true → contract.effectiveEpoch < u64Max →
        ∀ root ∈ contract.target.readRoots ++ contract.target.writeRoots,
          (parseUri root).isSome = true ∨ isAbsolute root = true)) ∧
      ∀ first second third, AllowedEvolution first second → AllowedEvolution second third →
        AllowedEvolution first third := by
  refine ⟨fun contract => ?_, fun first second third h h' => h.trans h'⟩
  simp only [refusesTarget_iff, allowedEvolution_self_iff, scopeOf_isSome_iff]
  constructor
  · intro accepted bound later
    by_contra relative
    exact accepted ⟨later, fun all => relative (all bound)⟩
  · rintro all ⟨later, relative⟩
    exact relative fun bound => all bound later

/-! ### A drive -/

/-- The contract to work below a root that names a drive. -/
def newDriveContract (blake3 : List UInt8 → Hash) : Except ContractError GoalContract :=
  newWithTargetMetadata blake3 "close the work" workCriteria (readingTarget "C:/repo")
    [] [] [] .localReversible true workBudget "operator" 1

theorem driveContract_refused (blake3 : List UInt8 → Hash) : ∃ contract,
    newDriveContract blake3 = .ok contract ∧ contract.target = readingTarget "C:/repo" ∧
      contract.evolve blake3 contract.version "close the work" workCriteria =
        .error .invalidTargetEvolution := by
  obtain ⟨contract, created, target, criteria, epoch⟩ : ∃ contract,
      newDriveContract blake3 = .ok contract ∧ contract.target = readingTarget "C:/repo" ∧
        contract.acceptanceCriteria = workCriteria ∧ contract.effectiveEpoch = 1 :=
    ⟨_, rfl, rfl, rfl, rfl⟩
  refine ⟨contract, created, target, ?_⟩
  rw [GoalContract.evolve, evolveWithReason_refuses_iff, allowedEvolution_self_iff, target,
    criteria, epoch]
  refine ⟨⟨rfl, by decide, by decide, fun existing mem => ⟨existing, mem, rfl⟩⟩, ?_⟩
  -- A path that starts with a drive is relative here, and is no URI.
  intro all
  exact absurd (all (by decide) "C:/repo" (by decide)) (by decide)

/-- A valid and bound target that names a drive cannot be kept by an evolution. -/
theorem drive_not_kept :
    ¬ ∃ blake3 : List UInt8 → Hash, ∀ contract : GoalContract,
      contract.target.validate = .ok () → contract.target.isBound = true →
        ∀ objective criteria, contract.evolve blake3 contract.version objective criteria ≠
          .error .invalidTargetEvolution := by
  rintro ⟨blake3, always⟩
  obtain ⟨contract, -, target, refused⟩ := driveContract_refused blake3
  refine always contract ?_ ?_ _ _ refused
  · rw [target]
    rfl
  · rw [target]
    decide

end Aegis.Goal
