import AegisCognition.Placement.Evaluation

/-!
# The choice of a pair

A plan evaluates the pairs that its task needs and takes the cheapest of those with a cost. Where
the capabilities have different identities, the ends of a pair tell it apart from the others.
-/

namespace Aegis.Placement

open Std Foundation Resource PlacementPairCandidate PlacementPlan List

variable {task : PlacementTask} {capability other : PlacementCapability}
variable {capabilities : List PlacementCapability} {paths : List PlacementTransferPath}
variable {nowMs total : Nat} {plan : PlacementPlan}
variable {candidate : PlacementCandidate} {candidates : List PlacementCandidate}
variable {executor dataTier : Option PlacementCandidate}
variable {pair : PlacementPairCandidate} {pairs : List PlacementPairCandidate}

/-! ### The pairs of a task -/

/-- The ends of the pairs that a task needs, in the order of their evaluation. -/
def pairEnds (task : PlacementTask) (candidates : List PlacementCandidate) :
    List (Option PlacementCandidate × Option PlacementCandidate) :=
  let executors := candidates.filter fun candidate => computeDomain candidate.domain
  let dataTiers := candidates.filter fun candidate => !computeDomain candidate.domain
  if 0 < task.cpuWorkUnits ∨ 0 < task.acceleratorWorkUnits then
    executors.flatMap fun executor =>
      if 0 < task.inputBytes ∨ 0 < task.outputBytes then
        dataTiers.map fun dataTier => (some executor, some dataTier)
      else [(some executor, none)]
  else if 0 < task.inputBytes ∨ 0 < task.outputBytes then
    dataTiers.map fun dataTier => (none, some dataTier)
  else []

theorem evaluatePairs_eq (task : PlacementTask) (candidates : List PlacementCandidate)
    (paths : List PlacementTransferPath) (nowMs : Nat) :
    evaluatePairs task candidates paths nowMs =
      (pairEnds task candidates).map fun ends =>
        evaluatePair task ends.1 ends.2 paths nowMs := by
  simp only [evaluatePairs, pairEnds]
  split
  · rw [map_flatMap]
    split <;> simp only [map_map, Function.comp_def, map_cons, map_nil]
  · split <;> simp only [map_map, Function.comp_def, map_nil]

/-- A candidate on its side of a pair, or none where none is required. -/
def IsEnd (candidates : List PlacementCandidate) (computes : Bool) (required : Prop) :
    Option PlacementCandidate → Prop
  | some candidate => required ∧ candidate ∈ candidates ∧ computeDomain candidate.domain = computes
  | none => ¬ required

theorem mem_pairEnds : (executor, dataTier) ∈ pairEnds task candidates ↔
    IsEnd candidates true (0 < task.cpuWorkUnits ∨ 0 < task.acceleratorWorkUnits) executor ∧
    IsEnd candidates false (0 < task.inputBytes ∨ 0 < task.outputBytes) dataTier ∧
    ¬ (executor = none ∧ dataTier = none) := by
  simp only [pairEnds]
  split <;> rename_i works <;> split <;> rename_i moves
  all_goals
    cases executor <;> cases dataTier <;> simp [IsEnd, works, moves]

/-- The capabilities evaluated alone, by their identities. -/
def candidatesOf (task : PlacementTask) (capabilities : List PlacementCapability) (nowMs : Nat) :
    List PlacementCandidate :=
  sortBy (fun left right => compare left.id right.id)
    (capabilities.map (evaluateCandidate task · nowMs))

theorem mem_candidatesOf : candidate ∈ candidatesOf task capabilities nowMs ↔
    ∃ capability ∈ capabilities, evaluateCandidate task capability nowMs = candidate := by
  rw [candidatesOf, mem_sortBy, mem_map]

theorem map_id_evaluateCandidate :
    (capabilities.map (evaluateCandidate task · nowMs)).map (·.id) = capabilities.map (·.id) := by
  rw [map_map]
  exact map_congr_left fun capability _ => evaluateCandidate_id

theorem nodup_candidatesOf (distinct : (capabilities.map (·.id)).Nodup) :
    ((candidatesOf task capabilities nowMs).map (·.id)).Nodup := by
  apply ((sortBy_perm _ _).map _).nodup_iff.mpr
  rw [map_id_evaluateCandidate]
  exact distinct

/-- The pairs of a task, by their ends. -/
def pairsOf (task : PlacementTask) (capabilities : List PlacementCapability)
    (paths : List PlacementTransferPath) (nowMs : Nat) : List PlacementPairCandidate :=
  sortBy compareEnds (evaluatePairs task (candidatesOf task capabilities nowMs) paths nowMs)

theorem mem_pairsOf : pair ∈ pairsOf task capabilities paths nowMs ↔
    ∃ executor dataTier, (executor, dataTier) ∈
        pairEnds task (candidatesOf task capabilities nowMs) ∧
      evaluatePair task executor dataTier paths nowMs = pair := by
  rw [pairsOf, mem_sortBy, evaluatePairs_eq, mem_map, Prod.exists]

theorem isEnd_ext {computes : Bool} {required : Prop} {first second : Option PlacementCandidate}
    (distinct : (candidates.map (·.id)).Nodup) (h : IsEnd candidates computes required first)
    (h' : IsEnd candidates computes required second)
    (same : first.map (·.id) = second.map (·.id)) : first = second := by
  cases first with
  | none =>
      cases second with
      | none => rfl
      | some second => cases same
  | some first =>
      cases second with
      | none => cases same
      | some second =>
          exact congrArg some (inj_on_of_nodup_map distinct h.2.1 h'.2.1 (Option.some.inj same))

/-- The ends of a pair tell it apart. -/
theorem pairsOf_ext (distinct : (capabilities.map (·.id)).Nodup)
    {first second : PlacementPairCandidate}
    (mem : first ∈ pairsOf task capabilities paths nowMs)
    (mem' : second ∈ pairsOf task capabilities paths nowMs)
    (executor : first.executorId = second.executorId)
    (dataTier : first.dataTierId = second.dataTierId) : first = second := by
  obtain ⟨_, _, ends, rfl⟩ := mem_pairsOf.mp mem
  obtain ⟨_, _, ends', rfl⟩ := mem_pairsOf.mp mem'
  obtain ⟨executes, stores, -⟩ := mem_pairEnds.mp ends
  obtain ⟨executes', stores', -⟩ := mem_pairEnds.mp ends'
  rw [evaluatePair_ends.1, evaluatePair_ends.1] at executor
  rw [evaluatePair_ends.2, evaluatePair_ends.2] at dataTier
  have unique : ((candidatesOf task capabilities nowMs).map (·.id)).Nodup :=
    nodup_candidatesOf distinct
  rw [isEnd_ext unique executes executes' executor, isEnd_ext unique stores stores' dataTier]

/-! ### The cheapest pair -/

theorem eligible_of_cost (mem : pair ∈ pairsOf task capabilities paths nowMs)
    (known : pair.estimatedLatencyUs ≠ none) : pair.eligible = true := by
  obtain ⟨executor, dataTier, -, rfl⟩ := mem_pairsOf.mp mem
  obtain ⟨total, known⟩ := Option.ne_none_iff_exists'.mp known
  obtain ⟨charged, cost, -, same, eligible⟩ := priced_of_cost known
  rw [same]
  exact eligible

/-- The order in which the pairs are compared. -/
def compareCosts (left right : PlacementPairCandidate) : Ordering :=
  (compare left.estimatedLatencyUs right.estimatedLatencyUs).then (compareEnds left right)

instance : TransCmp compareEnds :=
  inferInstanceAs (TransCmp (compareLex (compareLex (compareOn executorId)
    (compareOn dataTierId))
    (compareOn transferPathId)))

instance : TransCmp compareCosts :=
  inferInstanceAs (TransCmp (compareLex (compareOn estimatedLatencyUs)
    compareEnds))

theorem selectPair_eq_none_iff : selectPair (pairsOf task capabilities paths nowMs) = none ↔
    ∀ pair ∈ pairsOf task capabilities paths nowMs, pair.estimatedLatencyUs = none := by
  rw [selectPair, minBy_eq_none_iff, filter_eq_nil_iff]
  refine forall₂_congr fun pair mem => ?_
  constructor
  · intro refused
    by_contra known
    apply refused
    simp [eligible_of_cost mem known, Option.isSome_iff_ne_none, known]
  · intro unknown
    simp [unknown]

theorem selectPair_least
    (h : selectPair (pairsOf task capabilities paths nowMs) = some pair) :
    pair ∈ pairsOf task capabilities paths nowMs ∧
      ∃ total, pair.estimatedLatencyUs = some total ∧
        ∀ other ∈ pairsOf task capabilities paths nowMs, ∀ cost,
          other.estimatedLatencyUs = some cost → total ≤ cost := by
  have h : minBy compareCosts _ = some pair := h
  have mem := mem_of_minBy h
  rw [mem_filter, Bool.and_eq_true, Option.isSome_iff_exists] at mem
  obtain ⟨mem, -, total, known⟩ := mem
  refine ⟨mem, total, known, fun other listed cost priced => ?_⟩
  have inside : other ∈ (pairsOf task capabilities paths nowMs).filter fun pair =>
      pair.eligible && pair.estimatedLatencyUs.isSome := by
    apply mem_filter.mpr
    simp [listed, priced, eligible_of_cost listed (by simp [priced])]
  have le := isLE_of_minBy h inside
  have costs : compare (some total) (some cost) = compare total cost := rfl
  rw [compareCosts, known, priced, costs] at le
  apply Nat.isLE_compare.mp
  cases order : compare total cost <;> simp_all

/-! ### Plans -/

/-- What a plan says of a pair that it selects. -/
structure Selects (task : PlacementTask) (capabilities : List PlacementCapability)
    (plan : PlacementPlan) (pair : PlacementPairCandidate) : Prop where
  decision : plan.decision = "selected"
  executor : plan.executor = pair.executorId
  dataTier : plan.dataTier = pair.dataTierId
  binding : plan.binding = pairBinding task capabilities pair

/-- A plan selects the cheapest pair. If no pair has a cost, it is not selected. -/
theorem buildWithPaths_cases
    (built : buildWithPaths task capabilities paths nowMs = .ok plan) :
    plan.pairCandidates = pairsOf task capabilities paths nowMs ∧
      (∀ path ∈ paths, path.validate = .ok ()) ∧
      ((∃ pair, selectPair (pairsOf task capabilities paths nowMs) = some pair ∧
          Selects task capabilities plan pair) ∨
        selectPair (pairsOf task capabilities paths nowMs) = none ∧
          plan.decision ≠ "selected") := by
  simp only [buildWithPaths, bind_eq_ok_iff] at built
  obtain ⟨_, -, _, -, _, valid, built⟩ := built
  have valid := forM_eq_ok_iff.mp valid
  split at built
  · rename_i pair selected
    cases built
    exact ⟨rfl, valid, .inl ⟨pair, selected, rfl, rfl, rfl, rfl⟩⟩
  · rename_i none_priced
    split at built <;> cases built
    · exact ⟨rfl, valid, .inr ⟨none_priced, by simp⟩⟩
    · exact ⟨rfl, valid, .inr ⟨none_priced, by simp⟩⟩

theorem buildWithPaths_isOk_iff :
    (∃ plan, buildWithPaths task capabilities paths nowMs = .ok plan) ↔
      task.validate = .ok () ∧ capabilities ≠ [] ∧ ∀ path ∈ paths, path.validate = .ok () := by
  constructor
  · rintro ⟨plan, built⟩
    simp only [buildWithPaths, bind_eq_ok_iff, refuseWhen_eq_ok_iff] at built
    obtain ⟨_, sound, _, some_listed, _, valid, -⟩ := built
    exact ⟨sound, some_listed, forM_eq_ok_iff.mp valid⟩
  · rintro ⟨sound, some_listed, valid⟩
    have listed : refuseWhen (capabilities = []) PlacementError.noCapabilities = .ok () :=
      refuseWhen_eq_ok_iff.mpr some_listed
    rw [buildWithPaths, sound, listed, forM_eq_ok_iff.mpr valid]
    simp only [bind, Except.bind]
    split
    · exact ⟨_, rfl⟩
    · split <;> exact ⟨_, rfl⟩

/-! ### Sample resources -/

def sampleCapability (id : String) (domain : PlacementDomain) : PlacementCapability where
  id := id
  domain := domain
  usableBytes := some 1024
  computeUnitsPerUs := some 1
  latencyUs := some 1
  queueDepth := 0
  queueCapacity := some 4
  pressure := false
  localOnly := true
  confidence := .measured
  acceleratorKind := none
  backend := none
  vendor := none
  capabilities := []
  transferPaths := []

def hostCapabilities : List PlacementCapability :=
  [sampleCapability "cpu-0" .cpu, sampleCapability "ram-0" .hostMemory]

def samplePath (id fromExecutor : String) : PlacementTransferPath where
  schema := placementTransferPathSchemaV1
  id := id
  fromExecutor := fromExecutor
  toDataTier := "ssd-0"
  bandwidthBytesPerS := some 1000
  latencyUs := some 1
  queueDepth := 0
  queueCapacity := some 4
  transferTokenCapacity := some 4
  transferTokensInUse := 0
  sharedMemoryBytes := none
  localOnly := true
  confidence := .measured

end Aegis.Placement
