import AegisCognition.LabGoal.Evolution
import Mathlib.Data.List.Pairwise

/-!
# Lineages

A lineage is a chain of contracts in which each one is the next generation or a child of the one
before. What an ancestor asks for, all its descendants ask for, and what it may use bounds them,
with two gaps. Results are compared by `==`, which takes `True`, `1` and `1.0` for the same, and
a child may lower its reserve further than its token limit, so that more is left to explore with.
-/

namespace Aegis.LabGoal

open Foundation List Option

/-! ### The law -/

/-- The predicate asks for at least what the previous one asked for. -/
structure StaysAs (previous updated : AcceptancePredicate) : Prop where
  predicateId : updated.predicateId = previous.predicateId
  evaluator : updated.evaluator = previous.evaluator
  inputs : updated.inputs = previous.inputs
  expectedResult : updated.expectedResult = previous.expectedResult
  required : previous.required = true → updated.required = true
  evidenceRefs : previous.evidenceRefs.1 ⊆ updated.evidenceRefs.1
  reproducibilityRequirements :
    previous.reproducibilityRequirements.1 ⊆ updated.reproducibilityRequirements.1

structure NeverWeakens {lib : Library} (ancestor descendant : GoalContract lib) : Prop where
  predicates : ∀ previous ∈ ancestor.acceptance, ∃ updated ∈ descendant.acceptance,
    StaysAs previous updated
  scope : descendant.scope.1 ⊆ ancestor.scope.1
  nonGoals : ancestor.nonGoals.1 ⊆ descendant.nonGoals.1
  limits : ∀ field : BudgetField,
    isWithin (field.limit descendant.budget) (field.limit ancestor.budget) = true
  headroom : descendant.budget.explorationHeadroom ≤ ancestor.budget.explorationHeadroom

theorem StaysAs.trans {first second third : AcceptancePredicate} (h : StaysAs first second)
    (h' : StaysAs second third) : StaysAs first third where
  predicateId := h'.predicateId.trans h.predicateId
  evaluator := h'.evaluator.trans h.evaluator
  inputs := h'.inputs.trans h.inputs
  expectedResult := h'.expectedResult.trans h.expectedResult
  required := fun required => h'.required (h.required required)
  evidenceRefs := List.Subset.trans h.evidenceRefs h'.evidenceRefs
  reproducibilityRequirements :=
    List.Subset.trans h.reproducibilityRequirements h'.reproducibilityRequirements

theorem isWithin_refl (limit : Option Nat) : isWithin limit limit = true := by
  cases limit <;> simp [isWithin]

theorem isWithin_trans {first second third : Option Nat} (h : isWithin second first = true)
    (h' : isWithin third second = true) : isWithin third first = true := by
  cases first with
  | none => rfl
  | some first =>
      cases second with
      | none => cases h
      | some second =>
          cases third with
          | none => cases h'
          | some third =>
              simp only [isWithin, decide_eq_true_eq] at h h' ⊢
              omega

section Law

variable {lib : Library}

theorem NeverWeakens.trans {first second third : GoalContract lib} (h : NeverWeakens first second)
    (h' : NeverWeakens second third) : NeverWeakens first third where
  predicates := by
    intro previous mem
    obtain ⟨between, mem', stays⟩ := h.predicates previous mem
    obtain ⟨updated, mem'', stays'⟩ := h'.predicates between mem'
    exact ⟨updated, mem'', stays.trans stays'⟩
  scope := List.Subset.trans h'.scope h.scope
  nonGoals := List.Subset.trans h.nonGoals h'.nonGoals
  limits := fun field => isWithin_trans (h.limits field) (h'.limits field)
  headroom := h'.headroom.trans h.headroom

instance : Trans (@NeverWeakens lib) NeverWeakens NeverWeakens :=
  ⟨NeverWeakens.trans⟩

end Law

/-! ### Derivations -/

/-- A call that makes the next contract of a lineage. -/
inductive Derivation (lib : Library)
  | evolve (args : GoalContract.EvolveArguments lib)
  | spawnChild (nowMs : Int) (args : GoalContract.SpawnArguments lib)

def GoalContract.derive {lib : Library} (contract : GoalContract lib) :
    Derivation lib → Except GoalError (GoalContract lib)
  | .evolve args => contract.evolve args
  | .spawnChild nowMs args => contract.spawnChild nowMs args

namespace Derivation

variable {lib : Library}

/-- The predicates that the call passes. -/
def acceptance? : Derivation lib → Option (List AcceptancePredicate)
  | .evolve args => args.acceptance
  | .spawnChild _ args => args.acceptance

/-- The budget that the call passes. The next generation keeps the one it has. -/
def budget? : Derivation lib → Option GoalBudgetContract
  | .evolve _ => none
  | .spawnChild _ args => args.budget

/-- No expected result is replaced by one that only `==` takes for the same. -/
def KeepsResults (derivation : Derivation lib) (contract : GoalContract lib) : Prop :=
  ∀ acceptance, derivation.acceptance? = some acceptance → ∀ updated ∈ acceptance,
    ∀ previous ∈ contract.acceptance, updated.predicateId = previous.predicateId →
      updated.expectedResult.pyEq previous.expectedResult = true →
        updated.expectedResult = previous.expectedResult

/-- A budget that is passed leaves no more tokens to explore with. -/
def KeepsHeadroom (derivation : Derivation lib) (contract : GoalContract lib) : Prop :=
  ∀ budget, derivation.budget? = some budget →
    budget.explorationHeadroom ≤ contract.budget.explorationHeadroom

end Derivation

/-! ### What a call has checked -/

theorem isSubset_iff {first second : List String} :
    isSubset first second = true ↔ first ⊆ second := by
  simp [isSubset, subset_def]

/-- What the comparison of two predicates lets through. -/
structure MayFollow (previous updated : AcceptancePredicate) : Prop where
  evaluator : updated.evaluator = previous.evaluator
  inputs : updated.inputs = previous.inputs
  expectedResult : updated.expectedResult.pyEq previous.expectedResult = true
  required : previous.required = true → updated.required = true
  evidenceRefs : previous.evidenceRefs.1 ⊆ updated.evidenceRefs.1
  reproducibilityRequirements :
    previous.reproducibilityRequirements.1 ⊆ updated.reproducibilityRequirements.1

theorem mayFollow_of_ok {subject : String} {previous updated : AcceptancePredicate} {done : Unit}
    (h : keepPredicate subject previous updated = .ok done) : MayFollow previous updated := by
  simp only [keepPredicate, bind_eq_ok_iff, refuseWhen_eq_ok_iff, not_not, ne_eq,
    Bool.and_eq_true, Bool.not_eq_true', Bool.not_eq_false, not_and] at h
  obtain ⟨_, required, _, evaluator, _, inputs, _, result, _, evidence, requirements⟩ := h
  exact ⟨evaluator, inputs, result, required, isSubset_iff.mp evidence,
    isSubset_iff.mp requirements⟩

theorem mem_of_predicateById {acceptance : List AcceptancePredicate} {id : String}
    {predicate : AcceptancePredicate} (h : predicateById acceptance id = some predicate) :
    predicate ∈ acceptance ∧ predicate.predicateId.1 = id := by
  obtain ⟨same, -⟩ := List.find?_eq_some_iff_append.mp h
  exact ⟨mem_reverse.mp (mem_of_find?_eq_some h), by simpa using same⟩

theorem follows_of_keepAcceptance {subject removed : String}
    {current next : List AcceptancePredicate} {done : Unit}
    (h : keepAcceptance subject removed current next = .ok done) {previous : AcceptancePredicate}
    (mem : previous ∈ current) :
    ∃ updated ∈ next, updated.predicateId = previous.predicateId ∧ MayFollow previous updated := by
  simp only [keepAcceptance, bind_eq_ok_iff] at h
  obtain ⟨_, -, checked⟩ := h
  have compared := forM_eq_ok_iff.mp checked previous mem
  simp only [bind_eq_ok_iff, okOr_eq_ok_iff] at compared
  obtain ⟨updated, found, kept⟩ := compared
  obtain ⟨mem', same⟩ := mem_of_predicateById found
  exact ⟨updated, mem', Subtype.ext same, mayFollow_of_ok kept⟩

theorem within_of_narrowBudget {parent child : GoalBudgetContract} {done : Unit}
    (h : narrowBudget parent child = .ok done) (field : BudgetField) :
    isWithin (field.limit child) (field.limit parent) = true := by
  have mem : field ∈ BudgetField.all := by cases field <;> decide
  have checked := forM_eq_ok_iff.mp h field mem
  rw [refuseWhen_eq_ok_iff] at checked
  simpa using checked

theorem perm_of_stringSequence {label : String} {values : List String} {sequence : StringSequence}
    (h : stringSequence label values = .ok sequence) : sequence.1.Perm values := by
  unfold stringSequence at h
  split at h
  · split at h
    · cases h
      exact perm_insertionSort _ _
    · cases h
  · cases h

/-- What a contract has from the arguments that it was built from. -/
structure BuiltFrom {lib : Library} (args : ContractArguments lib) (contract : GoalContract lib) :
    Prop where
  acceptance : contract.acceptance.Perm args.acceptance
  scope : contract.scope.1.Perm args.scope
  nonGoals : contract.nonGoals.1.Perm args.nonGoals
  budget : contract.budget = args.budget

section Derivations

variable {lib : Library} {contract next : GoalContract lib}

theorem builtFrom_of_new {args : ContractArguments lib} (h : GoalContract.new args = .ok contract) :
    BuiltFrom args contract := by
  simp only [GoalContract.new, bind_eq_ok_iff] at h
  obtain ⟨_, -, _, -, _, -, scope, shrunk, nonGoals, grown, _, -, _, -, _, -, _, -, _, -, _, -,
    _, -, _, -, _, -, _, -, _, -, _, -, done⟩ := h
  cases done
  exact ⟨perm_insertionSort _ _, perm_of_stringSequence shrunk, perm_of_stringSequence grown,
    rfl⟩

/-- What the next contract of a lineage has from the one before and from the call. -/
structure DerivedBy (derivation : Derivation lib) (contract next : GoalContract lib) : Prop where
  acceptance : next.acceptance.Perm (derivation.acceptance?.getD contract.acceptance)
  follows : ∀ previous ∈ contract.acceptance,
    ∃ updated ∈ derivation.acceptance?.getD contract.acceptance,
      updated.predicateId = previous.predicateId ∧ MayFollow previous updated
  scope : next.scope.1 ⊆ contract.scope.1
  nonGoals : contract.nonGoals.1 ⊆ next.nonGoals.1
  budget : next.budget = derivation.budget?.getD contract.budget
  limits : ∀ field : BudgetField,
    isWithin (field.limit next.budget) (field.limit contract.budget) = true

theorem derivedBy_evolve {args : GoalContract.EvolveArguments lib}
    (h : contract.evolve args = .ok next) : DerivedBy (.evolve args) contract next := by
  simp only [GoalContract.evolve, bind_eq_ok_iff, refuseWhen_eq_ok_iff, Bool.not_eq_true',
    Bool.not_eq_false, isSubset_iff] at h
  obtain ⟨_, -, _, kept, _, -, scope, -, _, shrinks, nonGoals, -, _, grows, _, -, built⟩ := h
  have built := builtFrom_of_new built
  exact {
    acceptance := built.acceptance
    follows := fun previous mem => follows_of_keepAcceptance kept mem
    scope := List.Subset.trans built.scope.subset shrinks
    nonGoals := List.Subset.trans grows built.nonGoals.symm.subset
    budget := built.budget
    limits := fun field => by rw [built.budget]; exact isWithin_refl _ }

theorem derivedBy_spawnChild {nowMs : Int} {args : GoalContract.SpawnArguments lib}
    (h : contract.spawnChild nowMs args = .ok next) :
    DerivedBy (.spawnChild nowMs args) contract next := by
  simp only [GoalContract.spawnChild, bind_eq_ok_iff, refuseWhen_eq_ok_iff, Bool.not_eq_true',
    Bool.not_eq_false, isSubset_iff] at h
  obtain ⟨_, -, _, -, _, -, _, -, _, kept, scope, -, _, shrinks, nonGoals, -, _, grows,
    _, -, _, narrowed, built⟩ := h
  have built := builtFrom_of_new built
  exact {
    acceptance := built.acceptance
    follows := fun previous mem => follows_of_keepAcceptance kept mem
    scope := List.Subset.trans built.scope.subset shrinks
    nonGoals := List.Subset.trans grows built.nonGoals.symm.subset
    budget := built.budget
    limits := fun field => by rw [built.budget]; exact within_of_narrowBudget narrowed field }

theorem derivedBy_of_derive {derivation : Derivation lib}
    (h : contract.derive derivation = .ok next) : DerivedBy derivation contract next := by
  cases derivation with
  | evolve args => exact derivedBy_evolve h
  | spawnChild nowMs args => exact derivedBy_spawnChild h

theorem eq_of_predicateId (contract : GoalContract lib) {first second : AcceptancePredicate}
    (mem : first ∈ contract.acceptance) (mem' : second ∈ contract.acceptance)
    (same : first.predicateId = second.predicateId) : first = second := by
  have nodup : (contract.acceptance.map (·.predicateId.1)).Nodup :=
    contract.ordered.imp fun less => ne_of_lt less
  exact inj_on_of_nodup_map nodup mem mem' (congrArg Subtype.val same)

/-- A call weakens nothing exactly if it keeps the results and the headroom. -/
theorem DerivedBy.neverWeakens_iff {derivation : Derivation lib}
    (h : DerivedBy derivation contract next) :
    NeverWeakens contract next ↔
      derivation.KeepsResults contract ∧ derivation.KeepsHeadroom contract := by
  constructor
  · intro law
    constructor
    · intro acceptance given updated mem previous mem' same _
      obtain ⟨kept, mem'', stays⟩ := law.predicates previous mem'
      have built := h.acceptance
      rw [given, getD_some] at built
      have one : kept = updated := eq_of_predicateId next mem'' (built.mem_iff.mpr mem)
        (stays.predicateId.trans same.symm)
      rw [← one, stays.expectedResult]
    · intro budget given
      have kept := law.headroom
      rwa [h.budget, given, getD_some] at kept
  · rintro ⟨results, headroom⟩
    refine ⟨fun previous mem => ?_, h.scope, h.nonGoals, h.limits, ?_⟩
    · obtain ⟨updated, mem', id, follows⟩ := h.follows previous mem
      refine ⟨updated, h.acceptance.mem_iff.mpr mem',
        { follows with predicateId := id, expectedResult := ?_ }⟩
      cases given : derivation.acceptance? with
      | none =>
          rw [given, getD_none] at mem'
          rw [eq_of_predicateId contract mem' mem id]
      | some acceptance =>
          rw [given, getD_some] at mem'
          exact results acceptance given updated mem' previous mem id follows.expectedResult
    · cases given : derivation.budget? with
      | none =>
          rw [h.budget, given, getD_none]
      | some budget =>
          rw [h.budget, given, getD_some]
          exact headroom budget given

/-! ### Chains -/

/-- A contract and the calls made in turn, each on the contract that the one before has made. -/
inductive Lineage : GoalContract lib → List (Derivation lib × GoalContract lib) → Prop
  | nil (contract : GoalContract lib) : Lineage contract []
  | cons {contract next : GoalContract lib} {derivation : Derivation lib}
      {rest : List (Derivation lib × GoalContract lib)}
      (step : contract.derive derivation = .ok next) (lineage : Lineage next rest) :
      Lineage contract ((derivation, next) :: rest)

/-- Every call of the lineage keeps the results and the headroom. -/
def KeepsThroughout : GoalContract lib → List (Derivation lib × GoalContract lib) → Prop
  | _, [] => True
  | contract, (derivation, next) :: rest =>
      (derivation.KeepsResults contract ∧ derivation.KeepsHeadroom contract) ∧
        KeepsThroughout next rest

theorem Lineage.isChain_iff {rest : List (Derivation lib × GoalContract lib)}
    (lineage : Lineage contract rest) :
    (contract :: rest.map Prod.snd).IsChain NeverWeakens ↔ KeepsThroughout contract rest := by
  induction lineage with
  | nil contract => simp [KeepsThroughout]
  | cons step lineage ih =>
      rw [map_cons, isChain_cons_cons, ih, KeepsThroughout,
        (derivedBy_of_derive step).neverWeakens_iff]

/-- No goal of a lineage is weaker than any of its ancestors, exactly if every call keeps the
results and the headroom. -/
theorem lineage_never_weakens_iff {rest : List (Derivation lib × GoalContract lib)}
    (lineage : Lineage contract rest) :
    (contract :: rest.map Prod.snd).Pairwise NeverWeakens ↔ KeepsThroughout contract rest := by
  rw [← isChain_iff_pairwise, lineage.isChain_iff]

end Derivations

/-! ### A weaker child and a weaker generation -/

/-- A library for targets without roots and hosts, which take no URL and no path apart. The digest
is that of the first contract below. -/
def plainLibrary : Library where
  urlparse _ := none
  posixNormpath path := path
  ntNormpath path := path
  ntNormcase path := path
  ntCommonpath _ _ := none
  isabs path := path.startsWith "/"
  abspath path := path
  normpath path := path
  normcase path := path
  commonpath _ _ := none
  lower text := String.ofList (text.toList.map Char.toLower)
  floatRepr _ := "0.5"
  blake3 _ := .ofNat 0xc63ee214965864656879e00b5c8ce4db148c7f5ef36eaa442142063713ab50c9

def noTexts : StringSequence := ⟨[], by simp⟩

def repository : TargetDescriptor plainLibrary where
  kind := ⟨"repository", by decide⟩
  stableId := ⟨"aegis", by decide⟩
  revisionOrDigest := ⟨"r1", by decide⟩
  readRoots := noTexts
  writeRoots := noTexts
  networkAllowlist := noTexts
  externalSideEffects := noTexts
  owner := ⟨"lab", by decide⟩
  readScopes := rfl
  writeScopes := rfl
  effectEntries := rfl
  fits := by decide +kernel

/-- A predicate that expects the result of the tests. -/
def testsPass (expectedResult : Scalar) : AcceptancePredicate where
  predicateId := ⟨"tests", by decide⟩
  description := ⟨"The tests pass", by decide⟩
  evaluator := ⟨"pytest", by decide⟩
  inputs := noTexts
  expectedResult
  severity := .required
  evidenceRefs := noTexts
  reproducibilityRequirements := noTexts

/-- Ten tokens, of which the first argument is held back. -/
def tenTokens (reservedTokens : Nat) (headroom : reservedTokens < 10) : GoalBudgetContract where
  tokenLimit := 10
  attemptLimit := 1
  wallTimeLimitMs := none
  costLimitMinorUnits := none
  cpuTimeLimitMs := none
  reservedTokens
  someAttempt := Nat.le_refl 1
  headroom

def repairFields : ContractFields plainLibrary where
  goalId := ⟨"repair", by decide⟩
  objective := ⟨"Repair the build", by decide⟩
  target := repository
  acceptance := [testsPass (.bool true)]
  scope := noTexts
  nonGoals := noTexts
  policyDigest := ⟨"unbound", by decide⟩
  budget := tenTokens 9 (by decide)
  evidencePolicy := ⟨noTexts, 0, false, noTexts, by simp⟩
  generation := 1
  parentGoalId := none
  parentContractHash := none
  authorId := ⟨"lab", by decide⟩
  effectiveEpoch := 0
  evolutionReason := none
  createdAtMs := 0

def repair : GoalContract plainLibrary :=
  { repairFields with
    ordered := by decide
    positive := Nat.le_refl 1
    parent := .inr (by decide)
    fits := by decide +kernel }

/-- The next generation with these predicates. -/
def evolveWith (acceptance : Option (List AcceptancePredicate)) : Derivation plainLibrary :=
  .evolve {
    expectedGeneration := 1
    authorId := "lab"
    effectiveEpoch := 1
    reason := "review"
    objective := none
    target := none
    acceptance
    scope := none
    nonGoals := none }

def spawnWith (budget : Option GoalBudgetContract) : Derivation plainLibrary :=
  .spawnChild 0 {
    expectedGeneration := 1
    childGoalId := "child"
    authorId := "lab"
    effectiveEpoch := 1
    reason := "split"
    objective := none
    target := none
    acceptance := none
    scope := none
    nonGoals := none
    budget }

/-- The contract that a call makes; a call that fails leaves the one there is. -/
def after (derivation : Derivation plainLibrary) : GoalContract plainLibrary :=
  (repair.derive derivation).toOption.getD repair

theorem derive_after {derivation : Derivation plainLibrary}
    (h : (repair.derive derivation).toOption.isSome = true) :
    repair.derive derivation = .ok (after derivation) := by
  unfold after
  cases result : repair.derive derivation with
  | ok next => rfl
  | error e => simp [result, Except.toOption] at h

/-- The next generation expects `1` where the contract expects `True`. -/
def expectOne : Derivation plainLibrary :=
  evolveWith (some [testsPass (.int 1)])

/-- The child has ten tokens to explore with where its parent has one. -/
def holdNothing : Derivation plainLibrary :=
  spawnWith (some (tenTokens 0 (by decide)))

theorem expectOne_derives : repair.derive expectOne = .ok (after expectOne) :=
  derive_after (by decide +kernel)

theorem holdNothing_derives : repair.derive holdNothing = .ok (after holdNothing) :=
  derive_after (by decide +kernel)

/-- A plain next generation weakens nothing. -/
theorem plain_generation_never_weakens :
    (repair :: [(evolveWith none, after (evolveWith none))].map Prod.snd).Pairwise NeverWeakens :=
  (lineage_never_weakens_iff
    (.cons (derive_after (by decide +kernel)) (.nil _))).mpr
    ⟨⟨nofun, nofun⟩, trivial⟩

/-- The calls are accepted, and what they make is weaker. -/
theorem weaker_goals_are_derived :
    (Lineage repair [(expectOne, after expectOne)] ∧ ¬ NeverWeakens repair (after expectOne)) ∧
    Lineage repair [(holdNothing, after holdNothing)] ∧
      ¬ NeverWeakens repair (after holdNothing) := by
  refine ⟨⟨.cons expectOne_derives (.nil _), fun law => ?_⟩,
    .cons holdNothing_derives (.nil _), fun law => ?_⟩
  · have kept := ((derivedBy_of_derive expectOne_derives).neverWeakens_iff.mp law).1
    have same := kept _ rfl _ (mem_singleton_self _) (testsPass (.bool true))
      (mem_singleton_self _) rfl (by decide)
    exact absurd same (by decide)
  · have kept := ((derivedBy_of_derive holdNothing_derives).neverWeakens_iff.mp law).2
    have same := kept _ rfl
    exact absurd same (by decide)

end Aegis.LabGoal
