import AegisCognition.Placement.Routes

/-!
# The order of the inventory

Capabilities and pairs are sorted before a plan is made, so the order in which capabilities are
listed does not matter. The order of the paths matters for a pair with several of them: it has a
path if the least one by its identity is listed first, and none otherwise. Where every pair has at
most one path, a plan does not depend on either order.
-/

namespace Aegis.Placement

open Std Foundation Resource PlacementPlan List Option

variable {task : PlacementTask} {capabilities capabilities' : List PlacementCapability}
variable {path : PlacementTransferPath} {paths paths' : List PlacementTransferPath}
variable {nowMs : Nat} {plan : PlacementPlan} {pair : PlacementPairCandidate}
variable {executor dataTier : PlacementCapability} {route : String}

/-- Two resources that have a cost each, and between which data are moved over a path. -/
structure TakesPath (task : PlacementTask) (nowMs : Nat) (executor dataTier : PlacementCapability) :
    Prop where
  executes : computeDomain executor.domain = true
  stores : computeDomain dataTier.domain = false
  executorPriced : (evaluateCandidate task executor nowMs).estimatedLatencyUs ≠ none
  dataTierPriced : (evaluateCandidate task dataTier nowMs).estimatedLatencyUs ≠ none
  apart : ¬ (executor.domain = .cpu ∧ dataTier.domain = .hostMemory)

/-- There is at most one path wherever a pair takes one. -/
def SingleRoutes (task : PlacementTask) (capabilities : List PlacementCapability)
    (paths : List PlacementTransferPath) (nowMs : Nat) : Prop :=
  ∀ executor ∈ capabilities, ∀ dataTier ∈ capabilities, TakesPath task nowMs executor dataTier →
    (pathsBetween executor.id dataTier.id paths).length ≤ 1

theorem pathsBetween_perm (perm : paths.Perm paths') (executorId dataTierId : String) :
    (pathsBetween executorId dataTierId paths).Perm (pathsBetween executorId dataTierId paths') :=
  perm.filter _

theorem SingleRoutes.perm (single : SingleRoutes task capabilities paths nowMs)
    (listed : capabilities.Perm capabilities') (routed : paths.Perm paths') :
    SingleRoutes task capabilities' paths' nowMs := by
  intro executor mem dataTier mem' takes
  rw [← (pathsBetween_perm routed executor.id dataTier.id).length_eq]
  exact single executor (listed.mem_iff.mpr mem) dataTier (listed.mem_iff.mpr mem') takes

/-! ### Plans over single routes -/

theorem choosePath_congr
    (same : pathsBetween (pair.executorId.getD "") (pair.dataTierId.getD "") paths =
      pathsBetween (pair.executorId.getD "") (pair.dataTierId.getD "") paths') :
    choosePath pair paths = choosePath pair paths' := by
  simp only [pathsBetween] at same
  simp only [choosePath, same]

theorem candidatesOf_perm (distinct : (capabilities.map (·.id)).Nodup)
    (listed : capabilities.Perm capabilities') :
    candidatesOf task capabilities nowMs = candidatesOf task capabilities' nowMs := by
  apply sortBy_eq_of_perm _ (listed.map _)
  apply separates_of_nodup
  rw [map_id_evaluateCandidate]
  exact distinct

theorem perm_eq_of_length_le_one {α : Type} {first second : List α} (perm : first.Perm second)
    (short : first.length ≤ 1) : first = second := by
  cases first with
  | nil => exact perm.nil_eq
  | cons a rest =>
      obtain rfl : rest = [] := length_eq_zero_iff.mp (by simpa using short)
      exact perm.symm.eq_singleton.symm

/-- A pair does not depend on the order of the paths. -/
theorem evaluatePair_perm (valid : ∀ path ∈ paths, path.validate = .ok ())
    (single : SingleRoutes task capabilities paths nowMs) (routed : paths.Perm paths')
    {executor dataTier : Option PlacementCandidate}
    (ends : (executor, dataTier) ∈ pairEnds task (candidatesOf task capabilities nowMs)) :
    evaluatePair task executor dataTier paths nowMs =
      evaluatePair task executor dataTier paths' nowMs := by
  obtain ⟨executes, stores, -⟩ := mem_pairEnds.mp ends
  apply evaluatePair_congr
  intro ready
  rw [evaluateTransfer_eq, evaluateTransfer_eq]
  split
  · rfl
  · rename_i moves
    rw [choosePath_congr]
    show pathsBetween ((executor.map (·.id)).getD "") ((dataTier.map (·.id)).getD "") paths =
      pathsBetween ((executor.map (·.id)).getD "") ((dataTier.map (·.id)).getD "") paths'
    apply perm_eq_of_length_le_one (pathsBetween_perm routed _ _)
    cases dataTier with
    | none => exact absurd (dataBytes_ne_zero_iff.mp (not_or.mp moves).1) stores
    | some dataTier =>
        cases executor with
        | none =>
            -- No path leads from a blank identity.
            have unrouted : pathsBetween "" dataTier.id paths = [] := by
              apply filter_eq_nil_iff.mpr
              intro path mem between
              have sourced := (isBlank_of_validate (valid path mem)).2.1
              simp only [decide_eq_true_eq] at between
              rw [between.1] at sourced
              cases sourced
            simp [unrouted]
        | some executor =>
            obtain ⟨first, inside, rfl⟩ := mem_candidatesOf.mp executes.2.1
            obtain ⟨second, inside', rfl⟩ := mem_candidatesOf.mp stores.2.1
            have short := single first inside second inside' {
              executes := evaluateCandidate_domain ▸ executes.2.2
              stores := evaluateCandidate_domain ▸ stores.2.2
              executorPriced := ready.executor.2
              dataTierPriced := ready.dataTier.2
              apart := fun coherent => (not_or.mp moves).2
                ⟨congrArg some (evaluateCandidate_domain.trans coherent.1),
                  congrArg some (evaluateCandidate_domain.trans coherent.2)⟩ }
            simpa only [map_some, getD_some, evaluateCandidate_id] using short

theorem pairBinding_perm (distinct : (capabilities.map (·.id)).Nodup)
    (listed : capabilities.Perm capabilities') :
    pairBinding task capabilities = pairBinding task capabilities' := by
  funext pair
  simp only [pairBinding, find?_eq_of_perm distinct listed]

/-- Over single routes, a plan does not depend on the order of the inventory. -/
theorem buildWithPaths_perm (distinct : (capabilities.map (·.id)).Nodup)
    (single : SingleRoutes task capabilities paths nowMs)
    (listed : capabilities.Perm capabilities') (routed : paths.Perm paths')
    (built : buildWithPaths task capabilities paths nowMs = .ok plan) :
    buildWithPaths task capabilities' paths' nowMs = .ok plan := by
  obtain ⟨sound, some_listed, valid⟩ := buildWithPaths_isOk_iff.mp ⟨plan, built⟩
  have candidates : candidatesOf task capabilities nowMs = candidatesOf task capabilities' nowMs :=
    candidatesOf_perm distinct listed
  have pairs : pairsOf task capabilities paths nowMs = pairsOf task capabilities' paths' nowMs := by
    rw [pairsOf, pairsOf, ← candidates, evaluatePairs_eq, evaluatePairs_eq]
    congr 1
    apply map_congr_left
    rintro ⟨executor, dataTier⟩ ends
    exact evaluatePair_perm valid single routed ends
  have valid' : ∀ path ∈ paths', path.validate = .ok () :=
    fun path mem => valid path (routed.mem_iff.mpr mem)
  have some_listed' : capabilities' ≠ [] := by
    intro none_listed
    exact some_listed (none_listed ▸ listed).eq_nil
  rw [← built]
  simp only [candidatesOf] at candidates
  simp only [pairsOf, candidatesOf, candidates] at pairs
  simp only [buildWithPaths, refuseWhen, if_neg some_listed, if_neg some_listed',
    forM_eq_ok valid, forM_eq_ok valid', candidates, pairs, pairBinding_perm distinct listed]

/-! ### Plans over several routes -/

/-- Two resources between which data are moved over a path are the ends of a pair. -/
theorem TakesPath.mem_pairEnds (takes : TakesPath task nowMs executor dataTier)
    (listed : executor ∈ capabilities) (listed' : dataTier ∈ capabilities) :
    (some (evaluateCandidate task executor nowMs), some (evaluateCandidate task dataTier nowMs)) ∈
      pairEnds task (candidatesOf task capabilities nowMs) := by
  apply Placement.mem_pairEnds.mpr
  refine ⟨⟨?_, mem_candidatesOf.mpr ⟨executor, listed, rfl⟩, ?_⟩,
    ⟨?_, mem_candidatesOf.mpr ⟨dataTier, listed', rfl⟩, ?_⟩, by simp⟩
  · exact (admissible_of_priced takes.executorPriced).works takes.executes
  · rw [evaluateCandidate_domain]
    exact takes.executes
  · exact dataBytes_ne_zero_iff.mp ((admissible_of_priced takes.dataTierPriced).used takes.stores)
  · rw [evaluateCandidate_domain]
    exact takes.stores

theorem endReady_of_priced {capability : PlacementCapability} {required : Prop}
    (priced : (evaluateCandidate task capability nowMs).estimatedLatencyUs ≠ none) :
    EndReady required (some (evaluateCandidate task capability nowMs)) := by
  refine ⟨?_, priced⟩
  obtain rejected | ⟨_, -, same⟩ := evaluateCandidate_cases task capability nowMs
  · exact absurd rejected.unpriced priced
  · rw [same]
    rfl

section

variable (takes : TakesPath task nowMs executor dataTier)
include takes

theorem TakesPath.ready :
    Ready task (some (evaluateCandidate task executor nowMs))
      (some (evaluateCandidate task dataTier nowMs)) :=
  ⟨endReady_of_priced takes.executorPriced, endReady_of_priced takes.dataTierPriced⟩

theorem TakesPath.moves :
    ¬ (task.dataBytes = 0 ∨ HostCoherent (some (evaluateCandidate task executor nowMs))
      (some (evaluateCandidate task dataTier nowMs))) := by
  rintro (still | ⟨computes, stores⟩)
  · exact (admissible_of_priced takes.dataTierPriced).used takes.stores still
  · apply takes.apart
    rw [map_some, some_inj, evaluateCandidate_domain] at computes stores
    exact ⟨computes, stores⟩

/-- A pair takes the path that is listed first if it has the least identity, and none otherwise. -/
theorem TakesPath.route_cons
    (separate : ((path :: paths).map (·.id)).Nodup) (source : path.fromExecutor = executor.id)
    (target : path.toDataTier = dataTier.id) :
    (evaluatePair task (some (evaluateCandidate task executor nowMs))
        (some (evaluateCandidate task dataTier nowMs)) (path :: paths) nowMs).transferPathId =
      some route ↔
    route = path.id ∧ ∀ other ∈ pathsBetween executor.id dataTier.id (path :: paths),
      (compare path.id other.id).isLE = true := by
  have foremost_iff (other : PlacementTransferPath) :
      choosePath (pairOf (some (evaluateCandidate task executor nowMs))
        (some (evaluateCandidate task dataTier nowMs))) (path :: paths) = .ok other ↔
      other.fromExecutor = executor.id ∧ other.toDataTier = dataTier.id ∧
        Foremost (path :: paths) other :=
    choosePath_eq_ok_iff_foremost separate (by simp [pairOf, evaluateCandidate_id])
      (by simp [pairOf, evaluateCandidate_id])
  have first : (pathsBetween executor.id dataTier.id (path :: paths)).head? = some path := by
    simp [pathsBetween, source, target]
  constructor
  · intro taken
    cases chosen : choosePath (pairOf (some (evaluateCandidate task executor nowMs))
        (some (evaluateCandidate task dataTier nowMs))) (path :: paths) with
    | error rejected =>
        cases (route_of_not_chosen takes.ready takes.moves chosen).symm.trans taken
    | ok other =>
        obtain ⟨source', target', foremost⟩ := (foremost_iff other).mp chosen
        rw [Foremost, source', target', first] at foremost
        obtain rfl := Option.some.inj foremost.1
        rw [route_of_chosen takes.ready takes.moves chosen, some_inj] at taken
        exact ⟨taken.symm, foremost.2⟩
  · rintro ⟨rfl, least⟩
    apply route_of_chosen takes.ready takes.moves
    apply (foremost_iff path).mpr
    refine ⟨source, target, ?_, ?_⟩
    · rw [source, target]
      exact first
    · rw [source, target]
      exact least

end

/-- The same plans are made whatever the order of the inventory is. -/
def ListingIndependent (task : PlacementTask) (capabilities : List PlacementCapability)
    (paths : List PlacementTransferPath) (nowMs : Nat) : Prop :=
  ∀ capabilities' paths', capabilities.Perm capabilities' → paths.Perm paths' → ∀ plan,
    buildWithPaths task capabilities' paths' nowMs = .ok plan ↔
      buildWithPaths task capabilities paths nowMs = .ok plan

theorem exists_perm_cons (mem : path ∈ paths) : ∃ rest, paths.Perm (path :: rest) := by
  obtain ⟨before, after, rfl⟩ := append_of_mem mem
  exact ⟨before ++ after, perm_middle⟩

/-- Two paths between the same resources would be told apart by which of them is listed first. -/
theorem ListingIndependent.single (distinct : (capabilities.map (·.id)).Nodup)
    (separate : (paths.map (·.id)).Nodup)
    (independent : ListingIndependent task capabilities paths nowMs)
    (built : buildWithPaths task capabilities paths nowMs = .ok plan) :
    SingleRoutes task capabilities paths nowMs := by
  intro executor listed dataTier listed' takes
  have unique : ((pathsBetween executor.id dataTier.id paths).map (·.id)).Nodup :=
    nodup_pathsBetween separate
  -- The pair over the paths with one of those between its ends in front.
  have same {path : PlacementTransferPath}
      (mem : path ∈ pathsBetween executor.id dataTier.id paths) (route : String) :
      (evaluatePair task (some (evaluateCandidate task executor nowMs))
        (some (evaluateCandidate task dataTier nowMs)) paths nowMs).transferPathId = some route ↔
      route = path.id ∧ ∀ other ∈ pathsBetween executor.id dataTier.id paths,
        (compare path.id other.id).isLE = true := by
    obtain ⟨inside, source, target⟩ := mem_pathsBetween.mp mem
    obtain ⟨rest, routed⟩ := exists_perm_cons inside
    have built' := (independent capabilities _ (.refl _) routed plan).mpr built
    have pairs : pairsOf task capabilities paths nowMs =
        pairsOf task capabilities (path :: rest) nowMs :=
      (buildWithPaths_cases built).1.symm.trans (buildWithPaths_cases built').1
    have ends := takes.mem_pairEnds listed listed'
    have front : evaluatePair task (some (evaluateCandidate task executor nowMs))
        (some (evaluateCandidate task dataTier nowMs)) (path :: rest) nowMs ∈
          pairsOf task capabilities paths nowMs := by
      rw [pairs]
      exact mem_pairsOf.mpr ⟨_, _, ends, rfl⟩
    rw [pairsOf_ext distinct (mem_pairsOf.mpr ⟨_, _, ends, rfl⟩) front
      (evaluatePair_ends.1.trans evaluatePair_ends.1.symm)
      (evaluatePair_ends.2.trans evaluatePair_ends.2.symm),
      takes.route_cons ((routed.map _).nodup_iff.mp separate) source target]
    refine and_congr_right fun _ => forall_congr' fun other => ?_
    rw [(pathsBetween_perm routed executor.id dataTier.id).mem_iff]
  cases chosen : minBy (fun left right => compare left.id right.id)
      (pathsBetween executor.id dataTier.id paths) with
  | none =>
      rw [minBy_eq_none_iff.mp chosen]
      exact Nat.zero_le 1
  | some least =>
      -- Whichever path is in front, the pair takes the least one.
      have below : ∀ other ∈ pathsBetween executor.id dataTier.id paths,
          (compare least.id other.id).isLE = true := by
        intro other mem
        have le := isLE_of_minBy chosen mem
        exact le
      have taken := (same (mem_of_minBy chosen) least.id).mpr ⟨rfl, below⟩
      have alone : ∀ other ∈ pathsBetween executor.id dataTier.id paths, least.id = other.id :=
        fun other mem => ((same mem least.id).mp taken).1
      cases between : pathsBetween executor.id dataTier.id paths with
      | nil => exact Nat.zero_le 1
      | cons first rest =>
          rw [between] at unique alone
          rw [map_cons, nodup_cons] at unique
          cases rest with
          | nil => exact Nat.le_refl 1
          | cons second rest =>
              exfalso
              apply unique.1
              rw [← alone first (by simp), alone second (by simp)]
              simp

/-- A plan does not depend on the order of the inventory exactly if no request is made, or if there
is at most one path wherever a pair takes one. -/
theorem listingIndependent_iff (distinct : (capabilities.map (·.id)).Nodup)
    (separate : (paths.map (·.id)).Nodup) :
    ListingIndependent task capabilities paths nowMs ↔
      (task.validate = .ok () → capabilities ≠ [] → (∀ path ∈ paths, path.validate = .ok ()) →
        SingleRoutes task capabilities paths nowMs) := by
  constructor
  · intro independent sound some_listed valid
    obtain ⟨plan, built⟩ := buildWithPaths_isOk_iff.mpr ⟨sound, some_listed, valid⟩
    exact independent.single distinct separate built
  · intro single capabilities' paths' listed routed plan
    constructor
    · intro built
      obtain ⟨sound, some_listed, valid⟩ := buildWithPaths_isOk_iff.mp ⟨plan, built⟩
      have valid' : ∀ path ∈ paths, path.validate = .ok () :=
        fun path mem => valid path (routed.mem_iff.mp mem)
      have single' := single sound
        (fun none_listed => some_listed (none_listed ▸ listed).nil_eq.symm) valid'
      exact buildWithPaths_perm ((listed.map _).nodup_iff.mp distinct) (single'.perm listed routed)
        listed.symm routed.symm built
    · intro built
      obtain ⟨sound, some_listed, valid⟩ := buildWithPaths_isOk_iff.mp ⟨plan, built⟩
      exact buildWithPaths_perm distinct (single sound some_listed valid) listed routed built

theorem single_path_independent : ListingIndependent (sampleWork 8 64) archiveCapabilities
    [samplePath "cpu-ssd" "cpu-0"] 0 := by
  apply (listingIndependent_iff (by decide +kernel) (by decide +kernel)).mpr
  intro _ _ _ executor _ dataTier _ _
  exact length_filter_le _ _

/-- Where the slower route has the least identity, a plan is made over it if it is listed first,
and none is made if it is listed last. -/
theorem slower_route_listed_last : (archiveCapabilities.map (·.id)).Nodup ∧
    (slowFirst.map (·.id)).Nodup ∧
      ¬ ListingIndependent (sampleWork 8 64) archiveCapabilities slowFirst 0 := by
  refine ⟨by decide +kernel, by decide +kernel, fun independent => ?_⟩
  obtain ⟨plan, built, selected⟩ := exists_ok_of_any
    (x := buildWithPaths (sampleWork 8 64) archiveCapabilities slowFirst 0)
    (p := fun plan => plan.decision = "selected") (by decide +kernel)
  obtain ⟨other, built', rejected⟩ := exists_ok_of_any
    (x := buildWithPaths (sampleWork 8 64) archiveCapabilities slowFirst.reverse 0)
    (p := fun plan => plan.decision = "rejected") (by decide +kernel)
  have same := (independent _ _ (.refl _) slowFirst.reverse_perm.symm other).mp built'
  obtain rfl := Except.ok.inj (built.symm.trans same)
  rw [of_decide_eq_true selected] at rejected
  cases rejected

end Aegis.Placement
