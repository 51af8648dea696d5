import AegisCognition.Foundation.BackwardPass
import AegisCognition.Foundation.Chain
import AegisCognition.Task.Topology

/-!
# The metrics of the graph

The pass over the graph writes for every task the length of the longest chain of tasks that depend
on each other and start at it, and how many open tasks depend on it, directly or through others.
Both numbers stop at the largest one that a card can hold. Where no task has two dependencies, the
open tasks behind the children of a task are added up; elsewhere they are collected. Both count the
same tasks.
-/

namespace Aegis.Task

open Std Foundation Coordination Replay ExtTreeSet OrderedMap List

variable {ledger : TaskLedger} {cache : TaskGraphCache} {card : TaskCard}
variable {taskId child dependencyId place : Nat}

namespace TaskLedger

section

variable (ledger : TaskLedger) (taskId : Nat)

/-- The lengths of the chains that start at a task and in which each task depends on the one
before it. -/
def ChainLengths : Set Nat :=
  { length | ∃ rest, (taskId :: rest).IsChain ledger.DependsOn ∧ length = rest.length + 1 }

/-- A task that is neither done nor cancelled. -/
def IsOpen : Prop :=
  ∃ card, ledger.task taskId = some card ∧ card.status ≠ .done ∧ card.status ≠ .cancelled

/-- The open tasks that depend on a task, directly or through others. -/
def OpenDependents : Set Nat :=
  { dependent | Relation.TransGen ledger.DependsOn taskId dependent ∧ ledger.IsOpen dependent }

end

/-! ### Tasks and their places -/

/-- What a graph that has been built is. -/
structure IsGraph (ledger : TaskLedger) (cache : TaskGraphCache) : Prop where
  wellFormed : ledger.taskMap.WellFormed
  isOrder : ledger.IsOrder cache.topologicalOrder
  children : cache.childrenByIndex =
    ledger.childrenByIndex cache.topologicalOrder ledger.taskMap.children
  forest : cache.isDependencyForest =
    (valueList ledger.tasks).all fun task => task.dependencyIds.length ≤ 1

theorem Filed.isGraph (filed : Filed ledger) (built : ledger.buildGraphCache = .ok cache) :
    IsGraph ledger cache := by
  obtain ⟨⟨order, children⟩, ordered, same⟩ := bind_eq_ok_iff.mp built
  have complete := filed.topologicalOrderWithChildren_ok ordered
  obtain ⟨_, valid, ordered⟩ := bind_eq_ok_iff.mp ordered
  obtain ⟨_, -, both⟩ := bind_eq_ok_iff.mp ordered
  obtain ⟨-, rfl⟩ := Prod.mk.inj (Except.ok.inj both)
  cases same
  exact ⟨filed.wellFormed valid, isOrder_iff.mpr complete, rfl, rfl⟩

namespace IsGraph

variable (graph : IsGraph ledger cache)

include graph

theorem mem_children : child ∈ ledger.taskMap.children taskId ↔ ledger.DependsOn taskId child := by
  rw [TaskMap.mem_children graph.wellFormed, dependsOn_iff]

theorem nodup_order : cache.topologicalOrder.Nodup :=
  graph.isOrder.perm.nodup_iff.mpr ExtTreeMap.nodup_keys

theorem mem_order : taskId ∈ cache.topologicalOrder ↔ taskId ∈ ledger.tasks := by
  rw [graph.isOrder.perm.mem_iff, ExtTreeMap.mem_keys]

theorem mem_of_dependsOn (depends : ledger.DependsOn dependencyId taskId) :
    dependencyId ∈ ledger.tasks ∧ taskId ∈ ledger.tasks := by
  obtain ⟨listed, needed⟩ := dependsOn_iff.mp depends
  have nodes (taskId : Nat) : taskId ∈ ledger.taskMap.nodes → taskId ∈ ledger.tasks := by
    rw [TaskMap.nodes, mem_toFinset, ids_taskMap, ExtTreeMap.mem_keys]
    exact id
  exact ⟨nodes _ (TaskMap.needs_subset graph.wellFormed taskId listed needed), nodes _ listed⟩

/-- A task stands behind those that it depends on. -/
theorem idxOf_lt (depends : ledger.DependsOn dependencyId taskId) :
    cache.topologicalOrder.idxOf dependencyId < cache.topologicalOrder.idxOf taskId := by
  have mem := graph.mem_order.mpr (graph.mem_of_dependsOn depends).2
  obtain ⟨before, rest, split⟩ := append_of_mem mem
  have earlier := graph.isOrder.after before taskId rest split dependencyId depends
  have nodup := graph.nodup_order
  rw [split] at nodup ⊢
  have fresh : taskId ∉ before := fun early =>
    (disjoint_of_nodup_append nodup) early mem_cons_self
  rw [idxOf_append_of_mem earlier, idxOf_append_of_notMem fresh]
  have inside := idxOf_lt_length_of_mem earlier
  omega

theorem idxOf_lt_of_transGen (path : Relation.TransGen ledger.DependsOn dependencyId taskId) :
    cache.topologicalOrder.idxOf dependencyId < cache.topologicalOrder.idxOf taskId := by
  induction path with
  | single depends => exact graph.idxOf_lt depends
  | tail _ depends ih => exact ih.trans (graph.idxOf_lt depends)

theorem idxOf_inj (mem : taskId ∈ ledger.tasks) :
    cache.topologicalOrder.idxOf taskId = cache.topologicalOrder.idxOf child ↔ taskId = child :=
  List.idxOf_inj (graph.mem_order.mpr mem)

/-- The children of a task are filed at its place under theirs. -/
theorem getD_childrenByIndex (mem : taskId ∈ ledger.tasks) :
    cache.childrenByIndex.getD (cache.topologicalOrder.idxOf taskId) [] =
      (ledger.taskMap.children taskId).map cache.topologicalOrder.idxOf := by
  have apart : (ledger.taskMap.ids.map cache.topologicalOrder.idxOf).Nodup := by
    refine List.Nodup.map_on ?_ (nodup_ids ledger)
    intro first listed second _ same
    rw [ids_taskMap, ExtTreeMap.mem_keys] at listed
    exact (graph.idxOf_inj listed).mp same
  have listed : taskId ∈ ledger.taskMap.ids := by
    rw [ids_taskMap]
    exact ExtTreeMap.mem_keys.mpr mem
  rw [graph.children, childrenByIndex]
  apply getD_foldl_set apart listed
  rw [length_replicate]
  exact idxOf_lt_length_of_mem (graph.mem_order.mpr mem)

/-- The places filed at a place lie behind it. -/
theorem lt_of_mem_childrenByIndex (mem : child ∈ cache.childrenByIndex.getD place []) :
    place < child := by
  by_cases inside : place < cache.topologicalOrder.length
  · have placed := List.Nodup.idxOf_getElem graph.nodup_order place inside
    have listed := graph.mem_order.mp (getElem_mem inside)
    rw [← placed, graph.getD_childrenByIndex listed, mem_map] at mem
    obtain ⟨task, depends, rfl⟩ := mem
    have behind := graph.idxOf_lt (graph.mem_children.mp depends)
    rwa [placed] at behind
  · have short : cache.childrenByIndex.length = cache.topologicalOrder.length := by
      rw [graph.children, childrenByIndex, length_foldl_set, length_replicate]
    rw [getD_eq_default _ _ (by omega)] at mem
    cases mem

/-- Going on to the tasks that depend on a task comes to an end. -/
theorem wf : WellFounded fun child taskId => child ∈ ledger.taskMap.children taskId := by
  refine Subrelation.wf (fun {child taskId} mem => ?_)
    (InvImage.wf (fun taskId => cache.topologicalOrder.length -
      cache.topologicalOrder.idxOf taskId) Nat.lt_wfRel.wf)
  have depends := graph.mem_children.mp mem
  have behind := graph.idxOf_lt depends
  have inside := idxOf_lt_length_of_mem
    (graph.mem_order.mpr (graph.mem_of_dependsOn depends).2)
  show cache.topologicalOrder.length - cache.topologicalOrder.idxOf child <
    cache.topologicalOrder.length - cache.topologicalOrder.idxOf taskId
  omega

end IsGraph

end TaskLedger

/-! ### Tables over the graph -/

/-- What a rule reads of a table: the entries at given places. -/
def ReadsAt {α : Type} (default : α) (rule : List α → List Nat → α) : Prop :=
  ∀ first second places, (∀ place ∈ places, first.getD place default = second.getD place default) →
    rule first places = rule second places

/-- The table that a rule writes from the end of the graph. -/
def TaskGraphCache.table {α : Type} (cache : TaskGraphCache) (rule : List α → List Nat → α)
    (unwritten : α) : List α :=
  backwardPass (fun table place => rule table (cache.childrenByIndex.getD place []))
    cache.topologicalOrder.length (List.replicate cache.topologicalOrder.length unwritten)

theorem readsAt_criticalPathLenOf : ReadsAt 0 criticalPathLenOf := by
  intro first second places same
  apply foldl_ext
  intro len place mem
  rw [same place mem]

theorem readsAt_blockedDescendantCountOf (blocks : List Bool) :
    ReadsAt 0 (blockedDescendantCountOf blocks) := by
  intro first second places same
  apply foldl_ext
  intro count place mem
  rw [same place mem]

theorem readsAt_descendantsOf : ReadsAt ∅ descendantsOf := by
  intro first second places same
  apply foldl_ext
  intro descendants place mem
  rw [same place mem]

theorem buildForest_eq (tasks : ExtTreeMap Nat TaskCard) (cache : TaskGraphCache)
    (stateEpoch : Nat) : buildForestPriorityMetricsCached tasks cache stateEpoch =
      { stateEpoch := stateEpoch
        criticalPathByIndex := cache.table criticalPathLenOf 1
        blockedDescendantsByIndex := cache.table
          (blockedDescendantCountOf (blocksByIndex tasks cache.topologicalOrder)) 0 } := by
  simp only [buildForestPriorityMetricsCached]
  rw [foldl_set_pair
    (fun table place => criticalPathLenOf table (cache.childrenByIndex.getD place []))
    (fun table place => blockedDescendantCountOf (blocksByIndex tasks cache.topologicalOrder) table
      (cache.childrenByIndex.getD place []))]
  rfl

theorem buildExact_eq (tasks : ExtTreeMap Nat TaskCard) (cache : TaskGraphCache)
    (stateEpoch : Nat) : buildExactDagPriorityMetricsCached tasks cache stateEpoch =
      { stateEpoch := stateEpoch
        criticalPathByIndex := cache.table criticalPathLenOf 1
        blockedDescendantsByIndex := (cache.table descendantsOf ∅).map fun descendants =>
          min (descendants.toList.countP fun descendant =>
            (blocksByIndex tasks cache.topologicalOrder).getD descendant false) u32Max } := by
  simp only [buildExactDagPriorityMetricsCached]
  rw [foldl_set_pair
    (fun table place => criticalPathLenOf table (cache.childrenByIndex.getD place []))
    (fun table place => descendantsOf table (cache.childrenByIndex.getD place []))]
  rfl

theorem length_table {α : Type} {rule : List α → List Nat → α} {unwritten : α} :
    (cache.table rule unwritten).length = cache.topologicalOrder.length := by
  rw [TaskGraphCache.table, length_backwardPass, length_replicate]

namespace TaskLedger

/-- The entry of a task is what the rule gives for the entries of its children. -/
theorem IsGraph.getD_table {α : Type} {default unwritten : α} {rule : List α → List Nat → α}
    (graph : IsGraph ledger cache) (reads : ReadsAt default rule) (mem : taskId ∈ ledger.tasks) :
    (cache.table rule unwritten).getD (cache.topologicalOrder.idxOf taskId) default =
      rule (cache.table rule unwritten)
        ((ledger.taskMap.children taskId).map cache.topologicalOrder.idxOf) := by
  have ahead : LooksAhead default fun table place =>
      rule table (cache.childrenByIndex.getD place []) := by
    intro first second place same
    apply reads
    intro child mem
    exact same child (graph.lt_of_mem_childrenByIndex mem)
  rw [TaskGraphCache.table, getD_backwardPass ahead (by simp)
    (idxOf_lt_length_of_mem (graph.mem_order.mpr mem)), graph.getD_childrenByIndex mem]

end TaskLedger

/-! ### Chains -/

theorem criticalPathLenOf_eq (table : List Nat) (places : List Nat) :
    criticalPathLenOf table places =
      saturatingAdd u32Max ((places.map (table.getD · 0)).foldl max 0) 1 := by
  have from_ (longest : Nat) : places.foldl
      (fun len place => max len (saturatingAdd u32Max (table.getD place 0) 1))
      (saturatingAdd u32Max longest 1) =
        saturatingAdd u32Max ((places.map (table.getD · 0)).foldl max longest) 1 := by
    induction places generalizing longest with
    | nil => rfl
    | cons place places ih =>
        have step : max (saturatingAdd u32Max longest 1)
            (saturatingAdd u32Max (table.getD place 0) 1) =
              saturatingAdd u32Max (max longest (table.getD place 0)) 1 := by
          simp only [saturatingAdd]
          omega
        rw [foldl_cons, step, ih, map_cons, foldl_cons]
  exact from_ 0

namespace TaskLedger

theorem IsGraph.chainLengths_eq (graph : IsGraph ledger cache) (taskId : Nat) :
    ChainWeights ledger.taskMap.children (fun _ => 1) taskId = ledger.ChainLengths taskId := by
  apply Set.ext
  intro length
  apply exists_congr
  intro rest
  rw [List.IsChain.iff fun _ _ => graph.mem_children]
  simp [Nat.add_comm]

theorem IsGraph.criticalPath (graph : IsGraph ledger cache) (mem : taskId ∈ ledger.tasks) :
    ∃ longest, IsGreatest (ledger.ChainLengths taskId) longest ∧
      (cache.table criticalPathLenOf 1).getD (cache.topologicalOrder.idxOf taskId) 0 =
        min longest u32Max := by
  refine ⟨heaviest graph.wf (fun _ => 1) taskId, ?_, ?_⟩
  · rw [← graph.chainLengths_eq]
    exact isGreatest_heaviest graph.wf taskId
  · refine eq_min_heaviest graph.wf (· ∈ ledger.tasks) (fun taskId =>
      (cache.table criticalPathLenOf 1).getD (cache.topologicalOrder.idxOf taskId) 0) ?_ ?_ mem
    · intro first _ next comes
      exact (graph.mem_of_dependsOn (graph.mem_children.mp comes)).2
    · intro first listed
      rw [graph.getD_table readsAt_criticalPathLenOf listed, criticalPathLenOf_eq, map_map]
      rfl

/-! ### Open tasks -/

theorem isOpen_iff : ledger.IsOpen taskId ↔
    ((ledger.tasks[taskId]?).map fun task => task.status.blocksDescendants).getD false = true := by
  have blocks (status : TaskStatus) :
      status.blocksDescendants = true ↔ status ≠ .done ∧ status ≠ .cancelled := by
    cases status <;> simp [TaskStatus.blocksDescendants]
  rw [IsOpen, task]
  cases ledger.tasks[taskId]? with
  | none => simp
  | some card => simp [blocks]

instance : DecidablePred ledger.IsOpen := fun _ => decidable_of_iff' _ isOpen_iff

theorem IsGraph.getD_blocksByIndex (graph : IsGraph ledger cache) (mem : taskId ∈ ledger.tasks) :
    (blocksByIndex ledger.tasks cache.topologicalOrder).getD
      (cache.topologicalOrder.idxOf taskId) false = decide (ledger.IsOpen taskId) := by
  have listed := graph.mem_order.mpr mem
  rw [blocksByIndex, getD_eq_getElem?_getD, getElem?_map, getElem?_idxOf listed]
  apply Bool.eq_iff_iff.mpr
  rw [decide_eq_true_eq, isOpen_iff]
  rfl

theorem finite_openDependents (ledger : TaskLedger) (taskId : Nat) :
    (ledger.OpenDependents taskId).Finite := by
  apply (ledger.tasks.keys.toFinset.finite_toSet).subset
  rintro dependent ⟨-, card, found, -⟩
  rw [Finset.mem_coe, mem_toFinset, ExtTreeMap.mem_keys, mem_tasks_iff, found]
  rfl

end TaskLedger

theorem mem_descendantsOf {table : List (ExtTreeSet Nat)} {places : List Nat} :
    place ∈ descendantsOf table places ↔
      ∃ child ∈ places, place = child ∨ place ∈ table.getD child ∅ := by
  have from_ (descendants : ExtTreeSet Nat) : place ∈ places.foldl (fun descendants child =>
      (descendants.insert child).insertMany (table.getD child ∅).toList) descendants ↔
        place ∈ descendants ∨ ∃ child ∈ places, place = child ∨ place ∈ table.getD child ∅ := by
    induction places generalizing descendants with
    | nil => simp
    | cons child places ih =>
        rw [List.foldl_cons, ih, mem_insertMany_list, mem_insert]
        simp only [Std.compare_eq_iff_eq, List.contains_iff_mem, mem_toList,
          List.exists_mem_cons_iff, eq_comm (a := child), or_assoc]
        exact or_left_comm
  rw [descendantsOf, from_]
  simp

namespace TaskLedger

theorem IsGraph.mem_descendants (graph : IsGraph ledger cache) (mem : taskId ∈ ledger.tasks) :
    place ∈ (cache.table descendantsOf ∅).getD (cache.topologicalOrder.idxOf taskId) ∅ ↔
      ∃ dependent, Relation.TransGen ledger.DependsOn taskId dependent ∧
        cache.topologicalOrder.idxOf dependent = place := by
  induction taskId using graph.wf.induction with
  | _ taskId ih =>
      rw [graph.getD_table readsAt_descendantsOf mem, mem_descendantsOf]
      constructor
      · rintro ⟨_, listed, reached⟩
        obtain ⟨next, comes, rfl⟩ := mem_map.mp listed
        have depends := graph.mem_children.mp comes
        obtain rfl | later := reached
        · exact ⟨next, .single depends, rfl⟩
        · obtain ⟨dependent, path, rfl⟩ :=
            (ih next comes (graph.mem_of_dependsOn depends).2).mp later
          exact ⟨dependent, .head depends path, rfl⟩
      · rintro ⟨dependent, path, rfl⟩
        obtain ⟨next, depends, reached⟩ := transGen_iff_head.mp path
        have comes := graph.mem_children.mpr depends
        refine ⟨_, mem_map_of_mem comes, ?_⟩
        obtain rfl | path := reached
        · exact .inl rfl
        · exact .inr ((ih next comes (graph.mem_of_dependsOn depends).2).mpr
            ⟨dependent, path, rfl⟩)

theorem IsGraph.mem_of_transGen {dependent : Nat} (graph : IsGraph ledger cache)
    (path : Relation.TransGen ledger.DependsOn taskId dependent) : dependent ∈ ledger.tasks := by
  cases path with
  | single depends => exact (graph.mem_of_dependsOn depends).2
  | tail _ depends => exact (graph.mem_of_dependsOn depends).2

theorem IsGraph.countP_descendants (graph : IsGraph ledger cache) (mem : taskId ∈ ledger.tasks) :
    ((cache.table descendantsOf ∅).getD (cache.topologicalOrder.idxOf taskId) ∅).toList.countP
        (fun descendant =>
          (blocksByIndex ledger.tasks cache.topologicalOrder).getD descendant false) =
      (ledger.OpenDependents taskId).ncard := by
  let descendants := (cache.table descendantsOf ∅).getD (cache.topologicalOrder.idxOf taskId) ∅
  let blocks := blocksByIndex ledger.tasks cache.topologicalOrder
  let listed := descendants.toList.filter (blocks.getD · false)
  have places : { place | place ∈ listed } =
      cache.topologicalOrder.idxOf '' ledger.OpenDependents taskId := by
    apply Set.ext
    intro place
    rw [Set.mem_ofPred_eq, mem_filter, mem_toList, graph.mem_descendants mem]
    constructor
    · rintro ⟨⟨dependent, path, rfl⟩, blocking⟩
      rw [graph.getD_blocksByIndex (graph.mem_of_transGen path), decide_eq_true_eq] at blocking
      exact ⟨dependent, ⟨path, blocking⟩, rfl⟩
    · rintro ⟨dependent, ⟨path, opened⟩, rfl⟩
      refine ⟨⟨dependent, path, rfl⟩, ?_⟩
      rw [graph.getD_blocksByIndex (graph.mem_of_transGen path)]
      exact decide_eq_true opened
  have nodup : listed.Nodup := by
    apply List.Nodup.filter
    apply descendants.distinct_toList.imp
    intro first second apart same
    exact apart (Std.compare_eq_iff_eq.mpr same)
  have apart : Set.InjOn cache.topologicalOrder.idxOf (ledger.OpenDependents taskId) := by
    intro first member second _ same
    exact (graph.idxOf_inj (graph.mem_of_transGen member.1)).mp same
  calc descendants.toList.countP (blocks.getD · false)
    _ = listed.length := countP_eq_length_filter
    _ = { place | place ∈ listed }.ncard := by
        rw [← toFinset_card_of_nodup nodup, ← Set.ncard_coe_finset, coe_toFinset]
    _ = (ledger.OpenDependents taskId).ncard := by rw [places, apart.ncard_image]

theorem blockedDescendantCountOf_eq (blocks : List Bool) (table places : List Nat) :
    blockedDescendantCountOf blocks table places =
      min (places.map fun place =>
        table.getD place 0 + if blocks.getD place false then 1 else 0).sum u32Max := by
  have from_ (count : Nat) : places.foldl (fun count place =>
      let count := saturatingAdd u32Max count (table.getD place 0)
      if blocks.getD place false then saturatingAdd u32Max count 1 else count)
      (min count u32Max) =
        min (count + (places.map fun place =>
          table.getD place 0 + if blocks.getD place false then 1 else 0).sum) u32Max := by
    induction places generalizing count with
    | nil => rfl
    | cons place places ih =>
        rw [map_cons, sum_cons, foldl_cons, ← Nat.add_assoc, ← ih]
        congr 1
        simp only [saturatingAdd]
        split <;> omega
  have start := from_ 0
  rw [Nat.zero_min, Nat.zero_add] at start
  exact start

section

variable (graph : IsGraph ledger cache)
include graph

/-- Where no task has two dependencies, adding up what lies behind the children of a task counts
the same tasks. -/
theorem IsGraph.blockedDescendants
    (single : ∀ taskId card, ledger.task taskId = some card → card.dependencyIds.length ≤ 1)
    (mem : taskId ∈ ledger.tasks) :
    (cache.table (blockedDescendantCountOf (blocksByIndex ledger.tasks cache.topologicalOrder))
        0).getD (cache.topologicalOrder.idxOf taskId) 0 =
      min (ledger.OpenDependents taskId).ncard u32Max := by
  have unique : ∀ first second next, ledger.DependsOn first next → ledger.DependsOn second next →
      first = second := by
    rintro first second next ⟨card, found, depends⟩ ⟨_, found', depends'⟩
    obtain rfl := Option.some.inj (found.symm.trans found')
    have short := single next card found
    match listed : card.dependencyIds with
    | [] => simp [listed] at depends
    | [dependencyId] =>
        rw [listed, mem_singleton] at depends depends'
        exact depends.trans depends'.symm
    | _ :: _ :: _ => simp [listed] at short
  have acyclic : ∀ taskId, ¬ Relation.TransGen ledger.DependsOn taskId taskId :=
    fun _ path => Nat.lt_irrefl _ (graph.idxOf_lt_of_transGen path)
  induction taskId using graph.wf.induction with
  | _ taskId ih =>
      have counted : (ledger.OpenDependents taskId).ncard =
          ((ledger.taskMap.children taskId).map fun child =>
            (ledger.OpenDependents child).ncard + if ledger.IsOpen child then 1 else 0).sum :=
        ncard_behind (fun _ => graph.mem_children.symm) (TaskMap.nodup_children graph.wellFormed)
          ledger.finite_openDependents unique acyclic
      rw [graph.getD_table (readsAt_blockedDescendantCountOf _) mem, blockedDescendantCountOf_eq,
        map_map, counted, ← min_sum_min]
      congr 2
      apply map_congr_left
      intro child comes
      have inside := (graph.mem_of_dependsOn (graph.mem_children.mp comes)).2
      rw [Function.comp_apply, ih child comes inside, graph.getD_blocksByIndex inside]
      simp

/-! ### The two ways of counting -/

theorem IsGraph.exactDescendants (mem : taskId ∈ ledger.tasks) :
    (buildExactDagPriorityMetricsCached ledger.tasks cache
        ledger.stateEpoch).blockedDescendantsByIndex.getD
      (cache.topologicalOrder.idxOf taskId) 0 =
        min (ledger.OpenDependents taskId).ncard u32Max := by
  have inside : cache.topologicalOrder.idxOf taskId < (cache.table descendantsOf ∅).length := by
    rw [length_table]
    exact idxOf_lt_length_of_mem (graph.mem_order.mpr mem)
  rw [← graph.countP_descendants mem, buildExact_eq, getD_eq_getElem?_getD, getElem?_map,
    getElem?_eq_getElem inside, getD_eq_getElem _ _ inside]
  rfl

theorem IsGraph.forestDescendants
    (single : ∀ taskId card, ledger.task taskId = some card → card.dependencyIds.length ≤ 1)
    (mem : taskId ∈ ledger.tasks) :
    (buildForestPriorityMetricsCached ledger.tasks cache
        ledger.stateEpoch).blockedDescendantsByIndex.getD
      (cache.topologicalOrder.idxOf taskId) 0 =
        min (ledger.OpenDependents taskId).ncard u32Max := by
  rw [buildForest_eq]
  exact graph.blockedDescendants single mem

/-- Where no task has two dependencies, both ways yield the same metrics. -/
theorem IsGraph.forest_eq_exact
    (single : ∀ taskId card, ledger.task taskId = some card → card.dependencyIds.length ≤ 1) :
    buildForestPriorityMetricsCached ledger.tasks cache ledger.stateEpoch =
      buildExactDagPriorityMetricsCached ledger.tasks cache ledger.stateEpoch := by
  have counts : (buildForestPriorityMetricsCached ledger.tasks cache
      ledger.stateEpoch).blockedDescendantsByIndex =
        (buildExactDagPriorityMetricsCached ledger.tasks cache
          ledger.stateEpoch).blockedDescendantsByIndex := by
    have forest : (buildForestPriorityMetricsCached ledger.tasks cache
        ledger.stateEpoch).blockedDescendantsByIndex.length = cache.topologicalOrder.length := by
      rw [buildForest_eq, length_table]
    have exact_ : (buildExactDagPriorityMetricsCached ledger.tasks cache
        ledger.stateEpoch).blockedDescendantsByIndex.length = cache.topologicalOrder.length := by
      rw [buildExact_eq, length_map, length_table]
    apply ext_getElem (forest.trans exact_.symm)
    intro place inside inside'
    have listed : place < cache.topologicalOrder.length := forest ▸ inside
    have placed := List.Nodup.idxOf_getElem graph.nodup_order place listed
    have mem := graph.mem_order.mp (getElem_mem listed)
    rw [← getD_eq_getElem _ 0, ← getD_eq_getElem _ 0, ← placed,
      graph.forestDescendants single mem, graph.exactDescendants mem]
  rw [buildForest_eq, buildExact_eq] at counts ⊢
  dsimp only at counts
  rw [counts]

theorem IsGraph.single (forest : cache.isDependencyForest = true) :
    ∀ taskId card, ledger.task taskId = some card → card.dependencyIds.length ≤ 1 := by
  intro taskId card found
  rw [graph.forest, all_eq_true] at forest
  exact of_decide_eq_true (forest card (mem_valueList_iff.mpr ⟨taskId, found⟩))

end

/-- What the metrics on the card of a task are. -/
structure Measured (ledger : TaskLedger) (taskId : Nat) (card : TaskCard) : Prop where
  criticalPath : ∃ longest, IsGreatest (ledger.ChainLengths taskId) longest ∧
    card.criticalPathLen = min longest u32Max
  finite : (ledger.OpenDependents taskId).Finite
  blockedDescendants :
    card.blockedDescendantCount = min (ledger.OpenDependents taskId).ncard u32Max

theorem IsGraph.measured (graph : IsGraph ledger cache) (mem : taskId ∈ ledger.tasks)
    (card : TaskCard) (nowMs horizonMs : Nat) :
    Measured ledger taskId (card.applyPriorityScore
      ((ledger.buildMetrics cache).criticalPathByIndex.getD
        (cache.topologicalOrder.idxOf taskId) 0)
      ((ledger.buildMetrics cache).blockedDescendantsByIndex.getD
        (cache.topologicalOrder.idxOf taskId) 0) nowMs horizonMs) := by
  obtain ⟨longest, greatest, table⟩ := graph.criticalPath mem
  have critical : (ledger.buildMetrics cache).criticalPathByIndex =
      cache.table criticalPathLenOf 1 := by
    rw [buildMetrics, buildForest_eq, buildExact_eq]
    split <;> rfl
  refine ⟨⟨longest, greatest, ?_⟩, ledger.finite_openDependents taskId, ?_⟩
  · rw [critical, table]
    rfl
  · rw [buildMetrics]
    split
    · rename_i forest
      exact graph.forestDescendants (graph.single forest) mem
    · exact graph.exactDescendants mem

/-! ### Runs -/

/-- The priorities of a coherent ledger are computed exactly if its dependencies have an order. -/
theorem Coherent.recomputePriorities_measured (h : Coherent ledger) (nowMs : Nat)
    (computed : (ledger.recomputePriorities nowMs).1 = .ok ()) :
    ∀ taskId ∈ ledger.tasks, ∃ card,
      (ledger.recomputePriorities nowMs).2.task taskId = some card ∧
        Measured ledger taskId card := by
  intro taskId mem
  rw [h.recomputePriorities_eq] at computed ⊢
  cases built : ledger.buildGraphCache with
  | error error =>
      rw [built] at computed
      cases computed
  | ok cache =>
      have graph := h.filed.isGraph built
      obtain ⟨card, found⟩ := Option.isSome_iff_exists.mp (mem_tasks_iff.mp mem)
      refine ⟨_, ?_, graph.measured mem card nowMs ledger.deadlineHorizonMs⟩
      show (ledger.scoredTasks nowMs cache)[taskId]? = _
      rw [scoredTasks, h.filed.getElem?_applyPriorityScores built,
        show ledger.tasks[taskId]? = some card from found]
      rfl

theorem Coherent.recomputePriorities_ok (h : Coherent ledger) (linked : Linked ledger)
    (closed : ledger.Closed) (acyclic : ledger.CycleFree) (nowMs : Nat) :
    (ledger.recomputePriorities nowMs).1 = .ok () := by
  rw [h.recomputePriorities_eq]
  obtain ⟨error, unordered, -⟩ | ⟨order, cache, -, built⟩ := ledger.buildGraphCache_cases
  · have ordered : ledger.topologicalOrder = .ok ledger.taskMap.topologicalOrder := by
      obtain ⟨valid, -⟩ | ⟨dependencyId, taskId, depends, missing, -⟩ :=
        linked.validateDependencies_cases
      · exact (topologicalOrder_of_closed h.filed valid).1 acyclic
      · exact absurd (closed dependencyId taskId depends) missing
    cases unordered.symm.trans ordered
  · rw [built]

/-- The priorities of an acyclic ledger: every task gets the length of the longest chain that
starts at it and the number of open tasks that depend on it, as far as a card can hold them. Where
no task has two dependencies, both ways of counting yield the same. -/
theorem run_recomputePriorities_measured (blake3 : Hasher) (deadlineHorizonMs : Nat)
    (ops : List TaskLedgerOp) (nowMs : Nat) :
    let ledger := run (step blake3) (new deadlineHorizonMs) ops
    ledger.CycleFree →
      (ledger.Closed → (ledger.recomputePriorities nowMs).1 = .ok ()) ∧
      ((ledger.recomputePriorities nowMs).1 = .ok () → ∀ taskId ∈ ledger.tasks, ∃ card,
        (ledger.recomputePriorities nowMs).2.task taskId = some card ∧
          Measured ledger taskId card) ∧
      ∀ cache, ledger.buildGraphCache = .ok cache →
        (∀ taskId card, ledger.task taskId = some card → card.dependencyIds.length ≤ 1) →
        buildForestPriorityMetricsCached ledger.tasks cache ledger.stateEpoch =
          buildExactDagPriorityMetricsCached ledger.tasks cache ledger.stateEpoch := by
  intro ledger acyclic
  have h : Coherent ledger := run_coherent blake3 deadlineHorizonMs ops
  have linked : Linked ledger := run_linked blake3 deadlineHorizonMs ops
  exact ⟨fun closed => h.recomputePriorities_ok linked closed acyclic nowMs,
    h.recomputePriorities_measured nowMs,
    fun cache built single => (h.filed.isGraph built).forest_eq_exact single⟩

/-! ### Long chains -/

/-- A task that needs the one before it. -/
def chainLink (place : Nat) : TaskCard :=
  .new (place + 1) (if place = 0 then [] else [place]) 0 none none

/-- The calls that file tasks in a row, each of which needs the one before it. -/
def chainOps (count : Nat) : List TaskLedgerOp :=
  (List.range count).map fun place => .insertTask (chainLink place)

/-- The ledger that holds a row of tasks. -/
def chainLedger (count : Nat) : TaskLedger :=
  run (step fun _ => .zero) (new 0) (chainOps count)

theorem dependencyIds_filed_chainLink (ledger : TaskLedger) (place : Nat) :
    (ledger.filed (chainLink place)).dependencyIds = (chainLink place).dependencyIds := by
  cases place <;> rfl

theorem chainLedger_tasks (count : Nat) :
    (chainLedger count).retryPolicy = .standard ∧
      ∀ taskId, ((chainLedger count).task taskId).map TaskCard.dependencyIds =
        if taskId = 0 ∨ count < taskId then none
        else some (chainLink (taskId - 1)).dependencyIds := by
  induction count with
  | zero =>
      refine ⟨rfl, fun taskId => ?_⟩
      rw [if_pos (by omega)]
      rfl
  | succ count ih =>
      obtain ⟨policy, tasks⟩ := ih
      have next : chainLedger (count + 1) =
          ((chainLedger count).insertTask (chainLink count)).2 := by
        simp only [chainLedger, chainOps, range_succ, map_append, run_append]
        rfl
      have fresh : (chainLedger count).task (count + 1) = none := by
        have absent := tasks (count + 1)
        rw [if_pos (by omega)] at absent
        exact Option.map_eq_none_iff.mp absent
      have sound : ¬ ((chainLink count).taskId = 0 ∨
          (chainLink count).dependencyIds.any
            fun id => id = 0 ∨ id = (chainLink count).taskId) := by
        cases count <;> simp [chainLink, TaskCard.new]
      have first : ¬ ((chainLink count).attemptId = 0 ∨
          (chainLedger count).retryPolicy.maxTotalAttempts < (chainLink count).attemptId) := by
        rw [policy]
        show ¬ (1 = 0 ∨ 3 < 1)
        decide
      have unknown : ¬ ((chainLedger count).task (chainLink count).taskId).isSome = true := by
        rw [show (chainLink count).taskId = count + 1 from rfl, fresh]
        decide
      rw [next, insertTask, if_neg sound, if_neg first, if_neg unknown]
      refine ⟨policy, fun taskId => ?_⟩
      show (((chainLedger count).tasks.insert (count + 1)
        ((chainLedger count).filed (chainLink count)))[taskId]?).map _ = _
      by_cases here : count + 1 = taskId
      · obtain rfl := here
        rw [ExtTreeMap.getElem?_insert_self, if_neg (by omega), Option.map_some,
          dependencyIds_filed_chainLink]
        rfl
      · rw [getElem?_insert_of_ne here]
        refine (tasks taskId).trans ?_
        split <;> split <;> first | rfl | omega

theorem dependsOn_chainLedger {count : Nat} :
    (chainLedger count).DependsOn dependencyId taskId ↔
      0 < dependencyId ∧ taskId = dependencyId + 1 ∧ taskId ≤ count := by
  have tasks := (chainLedger_tasks count).2 taskId
  have link : dependencyId ∈ (chainLink (taskId - 1)).dependencyIds ↔
      taskId - 1 ≠ 0 ∧ dependencyId = taskId - 1 := by
    show dependencyId ∈ (if taskId - 1 = 0 then [] else [taskId - 1]) ↔ _
    split <;> simp [*]
  constructor
  · rintro ⟨card, found, depends⟩
    rw [found, Option.map_some] at tasks
    split at tasks
    · cases tasks
    · rw [Option.some.inj tasks, link] at depends
      omega
  · rintro ⟨positive, rfl, inside⟩
    rw [if_neg (by omega)] at tasks
    obtain ⟨card, found, same⟩ := Option.map_eq_some_iff.mp tasks
    refine ⟨card, found, ?_⟩
    rw [same, link]
    omega

theorem mem_chainLedger {count : Nat} (positive : 0 < taskId) (inside : taskId ≤ count) :
    taskId ∈ (chainLedger count).tasks := by
  have tasks := (chainLedger_tasks count).2 taskId
  rw [if_neg (by omega)] at tasks
  obtain ⟨card, found, -⟩ := Option.map_eq_some_iff.mp tasks
  exact mem_tasks_iff.mpr (by rw [found]; rfl)

theorem closed_chainLedger (count : Nat) : (chainLedger count).Closed := by
  intro dependencyId taskId depends
  obtain ⟨positive, rfl, inside⟩ := dependsOn_chainLedger.mp depends
  exact mem_chainLedger positive (Nat.le_of_succ_le inside)

/-- A ledger in which every task comes after its dependencies by its id has no circles. -/
theorem cycleFree_of_lt
    (later : ∀ dependencyId taskId, ledger.DependsOn dependencyId taskId → dependencyId < taskId) :
    ledger.CycleFree := by
  intro taskId path
  have behind : Relation.TransGen (· < ·) taskId taskId := Relation.TransGen.mono later _ _ path
  rw [Relation.transGen_eq_self] at behind
  exact Nat.lt_irrefl _ behind

theorem cycleFree_chainLedger (count : Nat) : (chainLedger count).CycleFree := by
  apply cycleFree_of_lt
  intro dependencyId taskId depends
  have := dependsOn_chainLedger.mp depends
  omega

/-- Two tasks, the second of which needs the first. -/
theorem pair_recomputePriorities_measured :
    ((chainLedger 2).recomputePriorities 0).1 = .ok () ∧
      (∃ first second, ((chainLedger 2).recomputePriorities 0).2.task 1 = some first ∧
        Measured (chainLedger 2) 1 first ∧
        ((chainLedger 2).recomputePriorities 0).2.task 2 = some second ∧
        Measured (chainLedger 2) 2 second) ∧
      ∃ cache, (chainLedger 2).buildGraphCache = .ok cache ∧
        buildForestPriorityMetricsCached (chainLedger 2).tasks cache (chainLedger 2).stateEpoch =
          buildExactDagPriorityMetricsCached (chainLedger 2).tasks cache
            (chainLedger 2).stateEpoch := by
  obtain ⟨computes, measured, forest⟩ := run_recomputePriorities_measured (fun _ => .zero) 0
    (chainOps 2) 0 (cycleFree_chainLedger 2)
  have computed := computes (closed_chainLedger 2)
  obtain ⟨first, found, sound⟩ := measured computed 1 (mem_chainLedger (by decide) (by decide))
  obtain ⟨second, found', sound'⟩ := measured computed 2 (mem_chainLedger (by decide) (by decide))
  refine ⟨computed, ⟨first, second, found, sound, found', sound'⟩, ?_⟩
  obtain ⟨cache, built⟩ : ∃ cache, (chainLedger 2).buildGraphCache = .ok cache := ⟨_, rfl⟩
  refine ⟨cache, built, forest cache built fun taskId card found => ?_⟩
  have tasks := (chainLedger_tasks 2).2 taskId
  have known : (chainLedger 2).task taskId = some card := found
  rw [known, Option.map_some] at tasks
  split at tasks
  · cases tasks
  · rw [Option.some.inj tasks, chainLink, TaskCard.new]
    dsimp only
    split <;> simp

/-- The first task of a row that is too long for a card starts a chain that is longer than the
card says. -/
theorem chainLedger_measured {count : Nat} (long : u32Max < count) :
    (chainLedger count).CycleFree ∧ (chainLedger count).Closed ∧
      ∃ card, ((chainLedger count).recomputePriorities 0).2.task 1 = some card ∧
        card.criticalPathLen = u32Max ∧
        ¬ IsGreatest ((chainLedger count).ChainLengths 1) card.criticalPathLen := by
  have chain : count ∈ (chainLedger count).ChainLengths 1 := by
    refine ⟨List.range' 2 (count - 1), ?_, ?_⟩
    · show (List.range' 1 (count - 1 + 1)).IsChain _
      rw [isChain_iff_getElem]
      intro place inside
      rw [length_range'] at inside
      rw [getElem_range', getElem_range', dependsOn_chainLedger]
      omega
    · rw [length_range']
      omega
  have h : Coherent (chainLedger count) := run_coherent _ 0 (chainOps count)
  have linked : Linked (chainLedger count) := run_linked _ 0 (chainOps count)
  have computed := h.recomputePriorities_ok linked (closed_chainLedger count)
    (cycleFree_chainLedger count) 0
  obtain ⟨card, found, sound⟩ := h.recomputePriorities_measured 0 computed 1
    (mem_chainLedger (by omega) (by omega))
  refine ⟨cycleFree_chainLedger count, closed_chainLedger count, card, found, ?_⟩
  obtain ⟨longest, greatest, stored⟩ := sound.criticalPath
  have reached := greatest.2 chain
  have full : card.criticalPathLen = u32Max := by omega
  refine ⟨full, fun all => ?_⟩
  have bounded := all.2 chain
  omega

/-- A task whose dependency is missing, which leaves the priorities uncomputed. -/
def orphanLedger : TaskLedger :=
  run (step fun _ => .zero) (new 0) [.insertTask (chainLink 1)]

theorem first_of_chain_saturated :
    ((chainLedger 4294967296).CycleFree ∧ (chainLedger 4294967296).Closed ∧
      ∃ card, ((chainLedger 4294967296).recomputePriorities 0).2.task 1 = some card ∧
        card.criticalPathLen = 4294967295 ∧
        ¬ IsGreatest ((chainLedger 4294967296).ChainLengths 1) card.criticalPathLen) ∧
    orphanLedger.CycleFree ∧
      (orphanLedger.recomputePriorities 0).1 = .error (.missingDependency 1) ∧
      ((orphanLedger.recomputePriorities 0).2.task 2).map TaskCard.criticalPathLen = some 0 := by
  refine ⟨chainLedger_measured (by decide), ?_, by decide +kernel, by decide +kernel⟩
  apply cycleFree_of_lt
  rintro dependencyId taskId ⟨card, found, depends⟩
  have single : orphanLedger.tasks =
      (∅ : ExtTreeMap Nat TaskCard).insert 2 ((new 0).filed (chainLink 1)) := rfl
  rw [task, single] at found
  by_cases here : 2 = taskId
  · obtain rfl := here
    rw [ExtTreeMap.getElem?_insert_self] at found
    cases found
    rw [dependencyIds_filed_chainLink] at depends
    obtain rfl := mem_singleton.mp depends
    decide
  · rw [getElem?_insert_of_ne here] at found
    cases found

end TaskLedger

end Aegis.Task
