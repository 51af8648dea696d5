import AegisCognition.Placement.Soundness

/-!
# Parallel routes

Several paths may lead from an executor to a data tier. The evaluation of a pair takes one of them
by its identity, without regard to its cost, and it takes none at all unless that path is also the
one that is listed first. So a plan is the cheapest over all routes exactly if the route that is
taken somewhere is one of the cheapest.
-/

namespace Aegis.Placement

open Std Foundation Resource PlacementPlan List

variable {task : PlacementTask} {capabilities : List PlacementCapability}
variable {path : PlacementTransferPath} {paths : List PlacementTransferPath}
variable {nowMs total cost best : Nat} {plan : PlacementPlan}
variable {executor dataTier : Option PlacementCandidate} {pair : PlacementPairCandidate}
variable {executorId dataTierId : String}

/-! ### The path that is taken -/

/-- A path that is listed before the others between its ends and has the least identity of them. -/
def Foremost (paths : List PlacementTransferPath) (path : PlacementTransferPath) : Prop :=
  (pathsBetween path.fromExecutor path.toDataTier paths).head? = some path ∧
    ∀ other ∈ pathsBetween path.fromExecutor path.toDataTier paths,
      (compare path.id other.id).isLE = true

theorem nodup_pathsBetween (distinct : (paths.map (·.id)).Nodup) :
    ((pathsBetween executorId dataTierId paths).map (·.id)).Nodup :=
  distinct.sublist (filter_sublist.map _)

/-- Of paths with different identities, a pair takes the one that is foremost, or none. -/
theorem choosePath_eq_ok_iff_foremost (distinct : (paths.map (·.id)).Nodup)
    (source : pair.executorId.getD "" = executorId)
    (target : pair.dataTierId.getD "" = dataTierId) :
    choosePath pair paths = .ok path ↔
      path.fromExecutor = executorId ∧ path.toDataTier = dataTierId ∧ Foremost paths path := by
  have unique : ((pathsBetween executorId dataTierId paths).map (·.id)).Nodup :=
    nodup_pathsBetween distinct
  rw [choosePath_eq_ok_iff, source, target, minBy_eq_some_iff (separates_of_nodup unique)]
  constructor
  · rintro ⟨⟨mem, least⟩, alone⟩
    obtain ⟨-, rfl, rfl⟩ := mem_pathsBetween.mp mem
    refine ⟨rfl, rfl, ?_, least⟩
    cases listed : pathsBetween path.fromExecutor path.toDataTier paths with
    | nil =>
        rw [listed] at mem
        cases mem
    | cons first rest =>
        rw [listed] at mem alone
        obtain rfl | later := mem_cons.mp mem
        · rfl
        · exact absurd rfl (alone path later)
  · rintro ⟨rfl, rfl, first, least⟩
    refine ⟨⟨mem_of_head? first, least⟩, ?_⟩
    obtain ⟨rest, listed⟩ := List.head?_eq_some_iff.mp first
    rw [listed, map_cons, nodup_cons] at unique
    rw [listed]
    intro other later same
    exact unique.1 (mem_map.mpr ⟨other, later, same⟩)

theorem foremost_singleton (path : PlacementTransferPath) : Foremost [path] path := by
  simp [Foremost, pathsBetween, Std.ReflOrd.compare_self]

/-- An identity that is read as a blank one where there is none. -/
theorem eq_some_of_getD {id : Option String} {name : String} (named : isBlank name = false)
    (same : id.getD "" = name) : id = some name := by
  cases id with
  | none =>
      rw [← same] at named
      cases named
  | some id => exact congrArg some same

theorem evaluatePair_direct (direct : task.dataBytes = 0 ∨ HostCoherent executor dataTier)
    (paths paths' : List PlacementTransferPath) :
    evaluatePair task executor dataTier paths nowMs =
      evaluatePair task executor dataTier paths' nowMs := by
  apply evaluatePair_congr
  intro _
  rw [evaluateTransfer_eq, evaluateTransfer_eq, if_pos direct, if_pos direct]

theorem evaluatePair_alone (distinct : (paths.map (·.id)).Nodup)
    (source : executor.map (·.id) = some path.fromExecutor)
    (target : dataTier.map (·.id) = some path.toDataTier) (foremost : Foremost paths path) :
    evaluatePair task executor dataTier paths nowMs =
      evaluatePair task executor dataTier [path] nowMs := by
  have source : (pairOf executor dataTier).executorId.getD "" = path.fromExecutor := by
    rw [pairOf, source, Option.getD_some]
  have target : (pairOf executor dataTier).dataTierId.getD "" = path.toDataTier := by
    rw [pairOf, target, Option.getD_some]
  have taken : choosePath (pairOf executor dataTier) paths = .ok path :=
    (choosePath_eq_ok_iff_foremost distinct source target).mpr ⟨rfl, rfl, foremost⟩
  have single : ([path].map (·.id)).Nodup := nodup_singleton _
  have alone : choosePath (pairOf executor dataTier) [path] = .ok path :=
    (choosePath_eq_ok_iff_foremost single source target).mpr ⟨rfl, rfl, foremost_singleton path⟩
  apply evaluatePair_congr
  intro _
  rw [evaluateTransfer_eq, evaluateTransfer_eq, taken, alone]

/-! ### Routes on their own -/

/-- With this path as the only one, the task has a pair with a cost between the ends of the
path. -/
def UsableAlone (task : PlacementTask) (capabilities : List PlacementCapability) (nowMs : Nat)
    (path : PlacementTransferPath) (cost : Nat) : Prop :=
  ∃ pair ∈ pairsOf task capabilities [path] nowMs, pair.executorId = some path.fromExecutor ∧
    pair.dataTierId = some path.toDataTier ∧ pair.eligible = true ∧
    pair.estimatedLatencyUs = some cost

/-- Without any path, the task has a pair with a cost. -/
def UsableDirectly (task : PlacementTask) (capabilities : List PlacementCapability) (nowMs : Nat)
    (cost : Nat) : Prop :=
  ∃ pair ∈ pairsOf task capabilities [] nowMs, pair.eligible = true ∧
    pair.estimatedLatencyUs = some cost

/-- What a pair is charged, if it has a cost: nothing for a path, or what a foremost path takes. -/
theorem usable_of_cost (separate : (paths.map (·.id)).Nodup)
    (valid : ∀ path ∈ paths, path.validate = .ok ())
    (mem : pair ∈ pairsOf task capabilities paths nowMs)
    (known : pair.estimatedLatencyUs = some total) :
    UsableDirectly task capabilities nowMs total ∨
      ∃ path ∈ paths, Foremost paths path ∧ UsableAlone task capabilities nowMs path total := by
  have eligible := eligible_of_cost mem (by simp [known])
  obtain ⟨executor, dataTier, ends, rfl⟩ := mem_pairsOf.mp mem
  obtain ⟨charged, cost, priced, -⟩ := priced_of_cost known
  have transfer := priced.transfer
  rw [evaluateTransfer_eq] at transfer
  split at transfer
  · rename_i direct
    rw [evaluatePair_direct direct paths []] at eligible known
    exact .inl ⟨_, mem_pairsOf.mpr ⟨executor, dataTier, ends, rfl⟩, eligible, known⟩
  · obtain ⟨path, chosen, -⟩ := bind_eq_ok_iff.mp transfer
    obtain ⟨source, target, foremost⟩ :=
      (choosePath_eq_ok_iff_foremost separate rfl rfl).mp chosen
    obtain ⟨mem, -, -⟩ := mem_pathsBetween.mp (mem_of_head? foremost.1)
    obtain ⟨-, sourced, targeted⟩ := isBlank_of_validate (valid path mem)
    have source := eq_some_of_getD sourced source.symm
    have target := eq_some_of_getD targeted target.symm
    rw [evaluatePair_alone separate source target foremost] at eligible known
    refine .inr ⟨path, mem, foremost, _, mem_pairsOf.mpr ⟨executor, dataTier, ends, rfl⟩,
      ?_, ?_, eligible, known⟩
    · exact evaluatePair_ends.1.trans source
    · exact evaluatePair_ends.2.trans target

theorem exists_pair_of_direct (usable : UsableDirectly task capabilities nowMs total) :
    ∃ pair ∈ pairsOf task capabilities paths nowMs, pair.estimatedLatencyUs = some total := by
  obtain ⟨pair, mem, -, known⟩ := usable
  obtain ⟨executor, dataTier, ends, rfl⟩ := mem_pairsOf.mp mem
  obtain ⟨charged, cost, priced, -⟩ := priced_of_cost known
  obtain ⟨direct, -⟩ | ⟨path, none_listed, -⟩ := exists_passable priced.transfer
  · refine ⟨_, mem_pairsOf.mpr ⟨executor, dataTier, ends, rfl⟩, ?_⟩
    rw [evaluatePair_direct direct paths []]
    exact known
  · cases none_listed

theorem exists_pair_of_foremost (separate : (paths.map (·.id)).Nodup)
    (foremost : Foremost paths path)
    (usable : UsableAlone task capabilities nowMs path total) :
    ∃ pair ∈ pairsOf task capabilities paths nowMs, pair.estimatedLatencyUs = some total := by
  obtain ⟨pair, mem, source, target, -, known⟩ := usable
  obtain ⟨executor, dataTier, ends, rfl⟩ := mem_pairsOf.mp mem
  refine ⟨_, mem_pairsOf.mpr ⟨executor, dataTier, ends, rfl⟩, ?_⟩
  rw [evaluatePair_alone separate (evaluatePair_ends.1.symm.trans source)
    (evaluatePair_ends.2.symm.trans target) foremost]
  exact known

/-- A plan that is selected wherever a route is usable on its own, and that costs no more than any
of these routes. -/
structure Cheapest (task : PlacementTask) (capabilities : List PlacementCapability)
    (paths : List PlacementTransferPath) (nowMs : Nat) (plan : PlacementPlan) : Prop where
  least : ∀ pair ∈ plan.pairCandidates, ∀ latency, plan.decision = "selected" →
    pair.executorId = plan.executor → pair.dataTierId = plan.dataTier →
    pair.estimatedLatencyUs = some latency →
    ∀ path ∈ paths, ∀ cost, UsableAlone task capabilities nowMs path cost → latency ≤ cost
  complete : (∃ path ∈ paths, ∃ cost, UsableAlone task capabilities nowMs path cost) →
    plan.decision = "selected"

/-- A pair without a path, or one over a foremost path, costs no more than any route. -/
def ForemostIsLeast (task : PlacementTask) (capabilities : List PlacementCapability)
    (paths : List PlacementTransferPath) (nowMs : Nat) : Prop :=
  ∃ best, (UsableDirectly task capabilities nowMs best ∨
      ∃ path ∈ paths, Foremost paths path ∧ UsableAlone task capabilities nowMs path best) ∧
    ∀ path ∈ paths, ∀ cost, UsableAlone task capabilities nowMs path cost → best ≤ cost

/-- A plan is the cheapest over all routes that are usable on their own exactly if there is no such
route, or if the least cost of them is also met without a path or by a path that is listed first
and has the least identity among those between its ends. -/
theorem cheapest_iff (distinct : (capabilities.map (·.id)).Nodup)
    (separate : (paths.map (·.id)).Nodup)
    (built : buildWithPaths task capabilities paths nowMs = .ok plan) :
    Cheapest task capabilities paths nowMs plan ↔
      (¬ ∃ path ∈ paths, ∃ cost, UsableAlone task capabilities nowMs path cost) ∨
        ForemostIsLeast task capabilities paths nowMs := by
  obtain ⟨listed, valid, chosen⟩ := buildWithPaths_cases built
  constructor
  · rintro ⟨cheapest, complete⟩
    by_cases routed : ∃ path ∈ paths, ∃ cost, UsableAlone task capabilities nowMs path cost
    · obtain ⟨pair, least, selects⟩ | ⟨-, other⟩ := chosen
      · obtain ⟨mem, total, known, -⟩ := selectPair_least least
        refine .inr ⟨total, usable_of_cost separate valid mem known, ?_⟩
        exact cheapest pair (listed ▸ mem) total selects.decision selects.executor.symm
          selects.dataTier.symm known
      · exact absurd (complete routed) other
    · exact .inl routed
  · rintro (unrouted | ⟨best, taken, least⟩)
    · refine ⟨?_, fun routed => absurd routed unrouted⟩
      intro _ _ _ _ _ _ _ path mem cost usable
      exact absurd ⟨path, mem, cost, usable⟩ unrouted
    · obtain ⟨first, inside, known⟩ : ∃ pair ∈ pairsOf task capabilities paths nowMs,
          pair.estimatedLatencyUs = some best := by
        obtain direct | ⟨path, -, foremost, usable⟩ := taken
        · exact exists_pair_of_direct direct
        · exact exists_pair_of_foremost separate foremost usable
      obtain ⟨pair, selected, selects⟩ | ⟨none_priced, -⟩ := chosen
      · obtain ⟨mem, total, priced, below⟩ := selectPair_least selected
        refine ⟨?_, fun _ => selects.decision⟩
        intro other mem' latency _ executes stores known' path placed cost usable
        obtain rfl := pairsOf_ext distinct (listed ▸ mem') mem
          (executes.trans selects.executor) (stores.trans selects.dataTier)
        obtain rfl := Option.some.inj (known'.symm.trans priced)
        exact (below first inside best known).trans (least path placed cost usable)
      · cases (selectPair_eq_none_iff.mp none_priced first inside).symm.trans known

/-- Two routes of which the slower one has the least identity and is listed first. -/
def slowFirst : List PlacementTransferPath :=
  [{ samplePath "cpu-ssd-a" "cpu-0" with latencyUs := some 50 }, samplePath "cpu-ssd-b" "cpu-0"]

def archiveCapabilities : List PlacementCapability :=
  [sampleCapability "cpu-0" .cpu, sampleCapability "ssd-0" .storage]

theorem exists_slowFirst_plan : ∃ plan,
    buildWithPaths (sampleWork 8 64) archiveCapabilities slowFirst 0 = .ok plan :=
  buildWithPaths_isOk_iff.mpr (by decide +kernel)

/-- The plan takes the slower route, although the faster one is usable. -/
theorem slowFirst_not_cheapest (built : buildWithPaths (sampleWork 8 64)
      archiveCapabilities slowFirst 0 = .ok plan) :
    ¬ Cheapest (sampleWork 8 64) archiveCapabilities slowFirst 0 plan := by
  obtain ⟨other, built', facts⟩ := exists_ok_of_any
    (x := buildWithPaths (sampleWork 8 64) archiveCapabilities slowFirst 0)
    (p := fun plan => plan.decision = "selected" ∧ ∃ pair ∈ plan.pairCandidates,
      pair.executorId = plan.executor ∧ pair.dataTierId = plan.dataTier ∧
      pair.estimatedLatencyUs = some 8053) (by decide +kernel)
  obtain rfl := Except.ok.inj (built'.symm.trans built)
  obtain ⟨selected, pair, mem, executes, stores, known⟩ := of_decide_eq_true facts
  have faster : UsableAlone (sampleWork 8 64) archiveCapabilities 0
      (samplePath "cpu-ssd-b" "cpu-0") 8004 := by
    rw [UsableAlone]
    decide +kernel
  intro cheapest
  have le := cheapest.least pair mem 8053 selected executes stores known _ (by simp [slowFirst])
    8004 faster
  omega

theorem slower_route_selected : ∃ plan,
    buildWithPaths (sampleWork 8 64) archiveCapabilities slowFirst 0 = .ok plan ∧
      ¬ Cheapest (sampleWork 8 64) archiveCapabilities slowFirst 0 plan := by
  obtain ⟨plan, built⟩ := exists_slowFirst_plan
  exact ⟨plan, built, slowFirst_not_cheapest built⟩

/-- The foremost route there is not one of the cheapest. -/
theorem slower_route_foremost :
    ¬ ForemostIsLeast (sampleWork 8 64) archiveCapabilities slowFirst 0 := by
  obtain ⟨plan, built⟩ := exists_slowFirst_plan
  intro least
  exact slowFirst_not_cheapest built
    ((cheapest_iff (by decide +kernel) (by decide +kernel) built).mpr (.inr least))

end Aegis.Placement
