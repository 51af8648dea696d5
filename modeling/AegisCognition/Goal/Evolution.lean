import AegisCognition.Goal.Contract

/-!
# Evolution of goal contracts

What a step of evolution keeps, and what a chain of them keeps. The target of a bound contract
is never widened, as long as no file root climbs above the root that admits it: dot segments
are refused in URIs only.
-/

namespace Aegis.Goal

open Foundation GoalContract TargetField List
open Lab (ContractError)
open Replay (Hash)

/-! ### One step -/

/-- `next` is what `contract` evolves into, with some arguments. -/
def Evolves (blake3 : List UInt8 → Hash) (contract next : GoalContract) : Prop :=
  ∃ expectedVersion objective acceptanceCriteria target authorId effectiveEpoch reason,
    contract.evolveWithMetadata blake3 expectedVersion objective acceptanceCriteria target authorId
      effectiveEpoch reason = .ok next

/-- The identity of a target is kept and what it allows is a part of what it allowed. -/
structure NarrowsTarget (current next : TargetDescriptor) : Prop where
  bound : next.isBound = true
  kind : next.kind = current.kind
  stableId : next.stableId = current.stableId
  owner : next.owner = current.owner
  subset : ∀ field : TargetField,
    targetValuesAreSubset field (field.values next) (field.values current) = true

/-- The version, the epoch and the parent of the next contract. -/
structure Follows (contract next : GoalContract) : Prop where
  version : next.version = contract.version + 1
  effectiveEpoch : contract.effectiveEpoch < next.effectiveEpoch
  parent : next.parentContractHash = some contract.contractHash

structure EvolutionStep (blake3 : List UInt8 → Hash) (contract next : GoalContract) : Prop where
  follows : Follows contract next
  criteria : ∀ existing ∈ contract.acceptanceCriteria,
    ∃ criterion ∈ next.acceptanceCriteria, criterion.id = existing.id
  target : contract.target.isBound = true → NarrowsTarget contract.target next.target
  schema : next.schema = gt96ContractSchemaV1
  reason : next.evolutionReason.any (!isBlank ·) = true
  hash : next.contractHash = next.computeHash blake3
  valid : next.target.validate = .ok ()
  author : isBlank next.authorId = false
  budget : next.budgetPolicy.validate = .ok ()

section Steps

variable {blake3 : List UInt8 → Hash} {contract next : GoalContract}

theorem narrowsTarget_of_ok {current target : TargetDescriptor}
    (bound : current.isBound = true)
    (h : validateTargetEvolution current target = .ok ()) :
    NarrowsTarget current target := by
  simp only [validateTargetEvolution, bound, if_true, bind_eq_ok_iff,
    refuseWhen_eq_ok_iff, Bool.or_eq_true, not_or, Bool.not_eq_true', Bool.not_eq_false,
    bne_iff_ne, ne_eq, not_not, Bool.not_eq_true, any_eq_false] at h
  obtain ⟨_, ⟨⟨⟨bound, kind⟩, stableId⟩, owner⟩, subset⟩ := h
  refine ⟨bound, kind, stableId, owner, fun field => ?_⟩
  have mem : field ∈ TargetField.all := by cases field <;> decide
  simpa using subset field mem

theorem computeHash_contractHash (contract : GoalContract) (hash : Hash) :
    ({ contract with contractHash := hash } : GoalContract).computeHash blake3 =
      contract.computeHash blake3 := by
  cases contract
  rfl

theorem evolves_step (h : Evolves blake3 contract next) : EvolutionStep blake3 contract next := by
  obtain ⟨expectedVersion, objective, criteria, target, authorId, epoch, reason, h⟩ := h
  simp only [evolveWithMetadata, GoalContract.new, newWithTargetMetadata, bind_eq_ok_iff,
    refuseWhen_eq_ok_iff, Bool.or_eq_true, not_or, Bool.not_eq_true, decide_eq_false_iff_not,
    Nat.not_le, Bool.not_eq_true', Bool.not_eq_false] at h
  obtain ⟨_, -, _, ⟨stated, later⟩, _, kept, _, narrows, built, ⟨_, -, _, -, _, -, _, budget,
    done⟩, _, ⟨valid, author⟩, _, -, finished⟩ := h
  cases done
  cases finished
  refine ⟨⟨rfl, later, rfl⟩, fun existing mem => ?_, fun bound => narrowsTarget_of_ok bound narrows,
    rfl, by simpa using stated, (computeHash_contractHash _ _).symm, ?_, author, budget⟩
  · have found := any_eq_false.mp kept existing mem
    simpa using found
  · cases checked : target.validate with
    | ok u => rfl
    | error e => simp [checked, Except.toOption] at valid

theorem EvolutionStep.isSelfConsistent (step : EvolutionStep blake3 contract next)
    (nonzero : ∀ bytes, blake3 bytes ≠ Hash.zero)
    (h : contract.isSelfConsistent blake3 = true) : next.isSelfConsistent blake3 = true := by
  simp only [GoalContract.isSelfConsistent, Bool.and_eq_true, decide_eq_true_eq, beq_iff_eq] at h
  obtain ⟨⟨⟨⟨⟨⟨-, positive⟩, -⟩, hash⟩, -⟩, -⟩, -⟩ := h
  have parent : contract.contractHash ≠ Hash.zero := by
    rw [hash]
    exact nonzero _
  have later : 1 < next.version := by
    have version := step.follows.version
    omega
  have reason := step.reason
  simp [GoalContract.isSelfConsistent, step.schema, step.follows.parent, parent, later,
    ← step.hash, step.valid, step.author, step.budget, reason, Except.toOption]
  omega

theorem isSelfConsistent_of_new {objective : String} {criteria : List AcceptanceCriterion}
    {target : TargetDescriptor} {constraints invariants nonGoals : List String}
    {effectPolicy : SideEffectClass} {evidenceRequired : Bool} {budgetPolicy : Lab.BudgetPolicy}
    {authorId : String} {epoch : Nat}
    (h : newWithTargetMetadata blake3 objective criteria target constraints invariants
      nonGoals effectPolicy evidenceRequired budgetPolicy authorId epoch = .ok contract) :
    contract.isSelfConsistent blake3 = true := by
  simp only [newWithTargetMetadata, bind_eq_ok_iff, refuseWhen_eq_ok_iff,
    Bool.or_eq_true, not_or, Bool.not_eq_true] at h
  obtain ⟨_, valid, _, ⟨-, author⟩, _, -, _, budget, done⟩ := h
  cases done
  simp only [isSelfConsistent, valid, author, budget, Except.toOption, Bool.and_eq_true, beq_iff_eq]
  simpa using (computeHash_contractHash _ _).symm

end Steps

/-! ### Chains -/

/-- What the last contract of a chain allows lies within what the first one allows. -/
structure Within (first last : GoalContract) : Prop where
  reads : ∀ root ∈ last.target.readRoots, ∃ parent ∈ first.target.readRoots,
    (locate root).Inside (locate parent)
  writes : ∀ root ∈ last.target.writeRoots, ∃ parent ∈ first.target.writeRoots,
    (locate root).Inside (locate parent)
  network : last.target.networkAllowlist ⊆ first.target.networkAllowlist
  effects : last.target.externalSideEffects ⊆ first.target.externalSideEffects
  kind : last.target.kind = first.target.kind
  stableId : last.target.stableId = first.target.stableId
  owner : last.target.owner = first.target.owner
  criteria : ∀ existing ∈ first.acceptanceCriteria,
    ∃ criterion ∈ last.acceptanceCriteria, criterion.id = existing.id

/-- Evolution never widens the target along this chain. -/
structure NeverWidens (blake3 : List UInt8 → Hash) (first : GoalContract)
    (rest : List GoalContract) : Prop where
  within : ∀ last ∈ first :: rest, Within first last
  follows : List.IsChain Follows (first :: rest)
  consistent : ∀ contract ∈ first :: rest, contract.isSelfConsistent blake3 = true

/-- Every root of the next target has a parent that admits it and that it does not climb
above. -/
def StaysBelow (contract next : GoalContract) : Prop :=
  ∀ field : TargetField, field.isScope = true → ∀ root ∈ field.values next.target,
    ∃ parent ∈ field.values contract.target,
      targetScopeContains root parent = true ∧ climbsAbove root parent = false

section Chains

variable {blake3 : List UInt8 → Hash} {first second third : GoalContract}

theorem Within.refl (contract : GoalContract) : Within contract contract :=
  ⟨fun root mem => ⟨root, mem, .refl _⟩, fun root mem => ⟨root, mem, .refl _⟩,
    fun _ mem => mem, fun _ mem => mem, rfl, rfl, rfl, fun existing mem => ⟨existing, mem, rfl⟩⟩

theorem roots_trans {low middle high : List String}
    (h : ∀ root ∈ low, ∃ parent ∈ middle, (locate root).Inside (locate parent))
    (h' : ∀ root ∈ middle, ∃ parent ∈ high, (locate root).Inside (locate parent)) :
    ∀ root ∈ low, ∃ parent ∈ high, (locate root).Inside (locate parent) := by
  intro root mem
  obtain ⟨parent, mem', inside⟩ := h root mem
  obtain ⟨above, mem'', inside'⟩ := h' parent mem'
  exact ⟨above, mem'', inside.trans inside'⟩

theorem Within.trans (h : Within first second) (h' : Within second third) : Within first third where
  reads := roots_trans h'.reads h.reads
  writes := roots_trans h'.writes h.writes
  network := fun _ mem => h.network (h'.network mem)
  effects := fun _ mem => h.effects (h'.effects mem)
  kind := h'.kind.trans h.kind
  stableId := h'.stableId.trans h.stableId
  owner := h'.owner.trans h.owner
  criteria := by
    intro existing mem
    obtain ⟨criterion, mem', same⟩ := h.criteria existing mem
    obtain ⟨criterion', mem'', same'⟩ := h'.criteria criterion mem'
    exact ⟨criterion', mem'', same'.trans same⟩

theorem NarrowsTarget.entries {current next : TargetDescriptor} (h : NarrowsTarget current next)
    {field : TargetField} (plain : field.isScope = false) :
    field.values next ⊆ field.values current := by
  have subset := h.subset field
  simp only [targetValuesAreSubset, plain, Bool.false_eq_true, if_false, all_eq_true,
    any_eq_true, beq_iff_eq] at subset
  intro entry mem
  obtain ⟨parent, mem', rfl⟩ := subset entry mem
  exact mem'

theorem unambiguous_of_valid {target : TargetDescriptor} (valid : target.validate = .ok ())
    {field : TargetField} (scope : field.isScope = true) {root : String}
    (mem : root ∈ field.values target) : targetScopeIsAmbiguousUri root = false := by
  simp only [TargetDescriptor.validate, bind_eq_ok_iff, refuseWhen_eq_ok_iff,
    Bool.not_eq_true] at valid
  obtain ⟨_, -, _, -, _, unambiguous, -⟩ := valid
  have among : root ∈ target.readRoots ++ target.writeRoots := by
    cases field with
    | readRoots => exact mem_append_left _ mem
    | writeRoots => exact mem_append_right _ mem
    | networkAllowlist | externalSideEffects => cases scope
  simpa using any_eq_false.mp unambiguous root among

theorem EvolutionStep.roots_inside (step : EvolutionStep blake3 first second)
    (stays : StaysBelow first second) {field : TargetField} (scope : field.isScope = true) :
    ∀ root ∈ field.values second.target, ∃ parent ∈ field.values first.target,
      (locate root).Inside (locate parent) := by
  intro root mem
  obtain ⟨parent, mem', contains, below⟩ := stays field scope root mem
  exact ⟨parent, mem',
    inside_of_contains contains (unambiguous_of_valid step.valid scope mem) below⟩

theorem EvolutionStep.within (step : EvolutionStep blake3 first second)
    (bound : first.target.isBound = true) (stays : StaysBelow first second) :
    Within first second where
  reads := step.roots_inside stays (show isScope .readRoots = true from rfl)
  writes := step.roots_inside stays (show isScope .writeRoots = true from rfl)
  network := (step.target bound).entries (show isScope .networkAllowlist = false from rfl)
  effects := (step.target bound).entries
    (show isScope .externalSideEffects = false from rfl)
  kind := (step.target bound).kind
  stableId := (step.target bound).stableId
  owner := (step.target bound).owner
  criteria := step.criteria

/-- A chain of evolutions from a bound and consistent contract never widens the target, if the
file roots of every step stay below the roots that admit them. -/
theorem contract_never_widens {rest : List GoalContract}
    (nonzero : ∀ bytes, blake3 bytes ≠ Hash.zero) (bound : first.target.isBound = true)
    (consistent : first.isSelfConsistent blake3 = true)
    (chain : List.IsChain (Evolves blake3) (first :: rest))
    (stays : List.IsChain StaysBelow (first :: rest)) : NeverWidens blake3 first rest := by
  induction rest generalizing first with
  | nil =>
      refine ⟨?_, List.IsChain.singleton _, ?_⟩
      · intro last mem
        obtain rfl := mem_singleton.mp mem
        exact .refl _
      · intro contract mem
        obtain rfl := mem_singleton.mp mem
        exact consistent
  | cons second rest ih =>
      rw [isChain_cons_cons] at chain stays
      have step := evolves_step chain.1
      have next := ih (step.target bound).bound (step.isSelfConsistent nonzero consistent) chain.2
        stays.2
      refine ⟨?_, isChain_cons_cons.mpr ⟨step.follows, next.follows⟩, ?_⟩
      · intro last mem
        obtain rfl | mem := mem_cons.mp mem
        · exact .refl _
        · exact (step.within bound stays.1).trans (next.within last mem)
      · intro contract mem
        obtain rfl | mem := mem_cons.mp mem
        · exact consistent
        · exact next.consistent contract mem

end Chains

/-! ### A root that leaves its parent -/

/-- A target that may read below this root. -/
def readingTarget (root : String) : TargetDescriptor where
  kind := "repository"
  stableId := "aegis-cognition"
  revisionOrDigest := "revision-1"
  readRoots := [root]
  writeRoots := []
  networkAllowlist := []
  externalSideEffects := []
  owner := "operator"

def workCriteria : List AcceptanceCriterion :=
  [{ id := "c1", description := "the work is done" }]

def workBudget : Lab.BudgetPolicy where
  total := .ofTokens 100
  finalizationReserve := .ofTokens 20
  recoveryReserve := .ofTokens 10

def newWorkContract (blake3 : List UInt8 → Hash) : Except ContractError GoalContract :=
  newWithTargetMetadata blake3 "close the work" workCriteria (readingTarget "/work")
    [] [] [] .localReversible true workBudget "operator" 1

theorem workContract_evolves (blake3 : List UInt8 → Hash) {root : String}
    (valid : (readingTarget root).validate = .ok ())
    (narrows : validateTargetEvolution (readingTarget "/work") (readingTarget root) =
      .ok ()) :
    ∃ first, newWorkContract blake3 = .ok first ∧ first.target = readingTarget "/work" ∧
      ∃ next, first.evolveWithMetadata blake3 1 "close the work" workCriteria (readingTarget root)
        "operator" 2 "narrow scope" = .ok next ∧ next.target = readingTarget root := by
  have entry : ¬ (!(readingTarget root).validate.toOption.isSome || isBlank "operator") = true := by
    rw [valid]
    decide
  refine ⟨_, rfl, rfl, ?_⟩
  simp only [evolveWithMetadata, bind_eq_ok_iff]
  exact ⟨_, ⟨(), rfl, (), rfl, (), rfl, (), narrows, _, rfl, (), refuseWhen_eq_ok_iff.mpr entry, (),
    rfl, rfl⟩, rfl⟩

/-- A contract may evolve from reading below `/work` to reading `/etc`. -/
theorem target_widened_by_dots :
    ¬ ∃ blake3 : List UInt8 → Hash, (∀ bytes, blake3 bytes ≠ Hash.zero) ∧
      ∀ first rest, first.target.isBound = true → first.isSelfConsistent blake3 = true →
        List.IsChain (Evolves blake3) (first :: rest) → NeverWidens blake3 first rest := by
  rintro ⟨blake3, -, always⟩
  obtain ⟨first, created, target, next, evolved, widened⟩ :=
    workContract_evolves blake3 (show (readingTarget "/work/../etc").validate = .ok () from rfl) rfl
  have chain : List.IsChain (Evolves blake3) [first, next] :=
    isChain_cons_cons.mpr ⟨⟨_, _, _, _, _, _, _, evolved⟩, .singleton _⟩
  have law := always first [next] (by rw [target]; decide) (isSelfConsistent_of_new created) chain
  have reads := (law.within next (by simp)).reads
  rw [target, widened] at reads
  obtain ⟨parent, mem, inside⟩ := reads "/work/../etc" (by decide)
  obtain rfl := mem_singleton.mp mem
  have below : [['w', 'o', 'r', 'k']] <+: [['e', 't', 'c']] := inside
  exact absurd below (by decide)

/-! ### A root that stays below its parent -/

/-- The hash of the two contracts of a chain that narrows `/work` to `/work/report`. -/
def reportBlake3 (bytes : List UInt8) : Hash :=
  if bytes.length = 630 then
    .ofNat 0x3701983f58dd5abe7e1804bea3d0f253de2b45929a6324300fd27b84f3ca75e9
  else .ofNat 0xb718d2fb341fd34f8b35f510c781ab321707a39003672e8dbb0f42014c4a4916

theorem reportBlake3_nonzero (bytes : List UInt8) : reportBlake3 bytes ≠ Hash.zero := by
  unfold reportBlake3
  split <;> decide +kernel

theorem work_narrowed_to_report :
    ∃ first next, newWorkContract reportBlake3 = .ok first ∧
      first.evolveWithMetadata reportBlake3 1 "close the work" workCriteria
        (readingTarget "/work/report") "operator" 2 "narrow scope" = .ok next ∧
      NeverWidens reportBlake3 first [next] := by
  obtain ⟨first, created, target, next, evolved, narrowed⟩ :=
    workContract_evolves reportBlake3
      (show (readingTarget "/work/report").validate = .ok () from rfl) rfl
  refine ⟨first, next, created, evolved, ?_⟩
  apply contract_never_widens reportBlake3_nonzero (by rw [target]; decide)
    (isSelfConsistent_of_new created)
  · exact isChain_cons_cons.mpr ⟨⟨_, _, _, _, _, _, _, evolved⟩, .singleton _⟩
  · refine isChain_cons_cons.mpr ⟨fun field scope root mem => ?_, .singleton _⟩
    rw [narrowed] at mem
    rw [target]
    cases field with
    | readRoots =>
        obtain rfl := mem_singleton.mp mem
        exact ⟨"/work", mem_cons_self, by decide, by decide⟩
    | writeRoots => cases mem
    | networkAllowlist | externalSideEffects => cases scope

end Aegis.Goal
