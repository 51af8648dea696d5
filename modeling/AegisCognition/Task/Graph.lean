import AegisCognition.Coordination.TaskMap
import AegisCognition.Foundation.Scan
import AegisCognition.Task.Ledger

/-!
# The dependency graph of the task ledger and its priorities

The ledger checks its dependencies, lists the tasks so that each comes after those that it depends
on, and keeps the graph with the tasks named by their places in this list.
-/

namespace Aegis.Task

open Std Foundation Coordination

namespace TaskLedger

section

variable (ledger : TaskLedger)

/-- The tasks in the order of their ids, with their dependencies. -/
def taskMap : TaskMap :=
  ledger.tasks.toList.map fun entry => (entry.1, entry.2.dependencyIds)

def validateDependency (taskId dependencyId : Nat) : Except TaskLedgerError Unit := do
  refuseWhen (dependencyId = 0 ∨ dependencyId = taskId) (.invalidTask taskId)
  refuseWhen (dependencyId ∉ ledger.tasks) (.missingDependency dependencyId)

def validateDependencies : Except TaskLedgerError Unit :=
  (OrderedMap.valueList ledger.tasks).forM fun task => do
    refuseWhen (task.taskId = 0) (.invalidTask task.taskId)
    task.dependencyIds.forM (ledger.validateDependency task.taskId)

/-- The order, and the tasks that depend on each task. -/
def topologicalOrderWithChildren : Except TaskLedgerError (List Nat × (Nat → List Nat)) := do
  ledger.validateDependencies
  let order := ledger.taskMap.topologicalOrder
  refuseWhen (order.length ≠ ledger.tasks.size) .cycleDetected
  return (order, ledger.taskMap.children)

def topologicalOrder : Except TaskLedgerError (List Nat) :=
  ledger.topologicalOrderWithChildren.map Prod.fst

/-- The children of each task, filed at the place of the task and named by their places. -/
def childrenByIndex (order : List Nat) (children : Nat → List Nat) : List (List Nat) :=
  ledger.taskMap.ids.foldl
    (fun table taskId => table.set (order.idxOf taskId) ((children taskId).map order.idxOf))
    (List.replicate order.length [])

def buildGraphCache : Except TaskLedgerError TaskGraphCache := do
  let (order, children) ← ledger.topologicalOrderWithChildren
  return {
    topologicalOrder := order
    childrenByIndex := ledger.childrenByIndex order children
    isDependencyForest :=
      (OrderedMap.valueList ledger.tasks).all fun task => task.dependencyIds.length ≤ 1
    topologicalOrderMatchesTaskOrder := order = ledger.taskMap.ids }

end

end TaskLedger

/-! ## Priorities

The priority of a task adds up how long the longest chain of tasks behind it is, how many tasks
behind it are still open, what it unblocks, and how close its deadline is. The first two come from
the graph in one pass from its end. Where no task has two dependencies the tasks behind the
children of a task are disjoint and are counted; elsewhere they are collected in sets.

The pass reads and writes tables of numbers by index; the places named in a graph are places of
its tables. -/

def priorityWeightCriticalPath : Nat := 1000000000
def priorityWeightBlockedDescendant : Nat := 1000000
def priorityWeightEvidenceUnblock : Nat := 1000

namespace TaskStatus

def canEnterReadyQueue : TaskStatus → Bool
  | .pending | .ready => true
  | _ => false

def blocksDescendants : TaskStatus → Bool
  | .done | .cancelled => false
  | _ => true

end TaskStatus

def deadlinePressureScore (hardDeadlineMs : Option Nat) (nowMs horizonMs : Nat) : Nat :=
  match hardDeadlineMs with
  | none => 0
  | some deadlineMs =>
      if deadlineMs ≤ nowMs then horizonMs
      else min horizonMs (horizonMs - (deadlineMs - nowMs))

def computePriorityScore
    (criticalPathLen blockedDescendantCount evidenceUnblockCount deadlinePressure : Nat) : Nat :=
  let critical := saturatingMul u64Max criticalPathLen priorityWeightCriticalPath
  let blocked := saturatingMul u64Max blockedDescendantCount priorityWeightBlockedDescendant
  let evidence := saturatingMul u64Max evidenceUnblockCount priorityWeightEvidenceUnblock
  saturatingAdd u64Max (saturatingAdd u64Max (saturatingAdd u64Max critical blocked) evidence)
    deadlinePressure

section

variable (tasks : ExtTreeMap Nat TaskCard)

/-- Whether each task of an order is still open; an unknown one is not. -/
def blocksByIndex (order : List Nat) : List Bool :=
  order.map fun taskId =>
    ((tasks[taskId]?).map fun task => task.status.blocksDescendants).getD false

/-- The longest chain that starts at a task, from those that start at its children. -/
def criticalPathLenOf (criticalPathByIndex : List Nat) (children : List Nat) : Nat :=
  children.foldl
    (fun len child => max len (saturatingAdd u32Max (criticalPathByIndex.getD child 0) 1)) 1

/-- The open tasks behind the children of a task, and the open ones among the children. -/
def blockedDescendantCountOf (blocks : List Bool) (blockedByIndex : List Nat)
    (children : List Nat) : Nat :=
  children.foldl
    (fun count child =>
      let count := saturatingAdd u32Max count (blockedByIndex.getD child 0)
      if blocks.getD child false then saturatingAdd u32Max count 1 else count) 0

def buildForestPriorityMetricsCached (cache : TaskGraphCache) (stateEpoch : Nat) :
    PriorityMetricCache :=
  let blocks := blocksByIndex tasks cache.topologicalOrder
  let places := cache.topologicalOrder.length
  let tables := (List.range places).reverse.foldl
    (fun (tables : List Nat × List Nat) index =>
      let children := cache.childrenByIndex.getD index []
      (tables.1.set index (criticalPathLenOf tables.1 children),
        tables.2.set index (blockedDescendantCountOf blocks tables.2 children)))
    (List.replicate places 1, List.replicate places 0)
  { stateEpoch := stateEpoch
    criticalPathByIndex := tables.1
    blockedDescendantsByIndex := tables.2 }

/-- The children of a task and all tasks behind them. -/
def descendantsOf (descendantsByIndex : List (ExtTreeSet Nat)) (children : List Nat) :
    ExtTreeSet Nat :=
  children.foldl
    (fun descendants child =>
      (descendants.insert child).insertMany (descendantsByIndex.getD child ∅).toList) ∅

def buildExactDagPriorityMetricsCached (cache : TaskGraphCache) (stateEpoch : Nat) :
    PriorityMetricCache :=
  let blocks := blocksByIndex tasks cache.topologicalOrder
  let places := cache.topologicalOrder.length
  let tables := (List.range places).reverse.foldl
    (fun (tables : List Nat × List (ExtTreeSet Nat)) index =>
      let children := cache.childrenByIndex.getD index []
      (tables.1.set index (criticalPathLenOf tables.1 children),
        tables.2.set index (descendantsOf tables.2 children)))
    (List.replicate places 1, List.replicate places ∅)
  { stateEpoch := stateEpoch
    criticalPathByIndex := tables.1
    blockedDescendantsByIndex := tables.2.map fun descendants =>
      min (descendants.toList.countP fun descendant => blocks.getD descendant false) u32Max }

end

namespace TaskCard

/-- The card with its metrics and its score. -/
def scored (task : TaskCard) (criticalPathLen blockedDescendantCount score : Nat) : TaskCard :=
  { task with
    criticalPathLen := criticalPathLen
    blockedDescendantCount := blockedDescendantCount
    deterministicPriorityScore := score }

/-- `apply_priority_score_to_task`. -/
def applyPriorityScore (task : TaskCard)
    (criticalPathLen blockedDescendantCount nowMs deadlineHorizonMs : Nat) : TaskCard :=
  task.scored criticalPathLen blockedDescendantCount
    (computePriorityScore criticalPathLen blockedDescendantCount task.evidenceUnblockCount
      (deadlinePressureScore task.hardDeadlineMs nowMs deadlineHorizonMs))

end TaskCard

/-- The tasks with the card of one of them scored by the metrics at an index. -/
def applyPriorityScoreAt (nowMs deadlineHorizonMs : Nat) (metrics : PriorityMetricCache)
    (tasks : ExtTreeMap Nat TaskCard) (place : Nat × Nat) : ExtTreeMap Nat TaskCard :=
  match tasks[place.1]? with
  | none => tasks
  | some task =>
      tasks.insert place.1
        (task.applyPriorityScore (metrics.criticalPathByIndex.getD place.2 0)
          (metrics.blockedDescendantsByIndex.getD place.2 0) nowMs deadlineHorizonMs)

def applyPriorityScoresCachedMetrics (tasks : ExtTreeMap Nat TaskCard)
    (nowMs deadlineHorizonMs : Nat) (cache : TaskGraphCache) (metrics : PriorityMetricCache) :
    ExtTreeMap Nat TaskCard :=
  if cache.topologicalOrderMatchesTaskOrder then
    tasks.keys.zipIdx.foldl (applyPriorityScoreAt nowMs deadlineHorizonMs metrics) tasks
  else
    cache.topologicalOrder.zipIdx.foldl (applyPriorityScoreAt nowMs deadlineHorizonMs metrics) tasks

namespace TaskLedger

/-- The metrics that are computed from a graph. -/
def buildMetrics (ledger : TaskLedger) (cache : TaskGraphCache) : PriorityMetricCache :=
  if cache.isDependencyForest then
    buildForestPriorityMetricsCached ledger.tasks cache ledger.stateEpoch
  else buildExactDagPriorityMetricsCached ledger.tasks cache ledger.stateEpoch

/-- The graph in use, and the ledger that keeps it. -/
def withGraph (ledger : TaskLedger) : Except TaskLedgerError (TaskGraphCache × TaskLedger) :=
  match ledger.graphCache with
  | some cache => .ok (cache, ledger)
  | none => do
      let cache ← ledger.buildGraphCache
      return (cache, { ledger with graphCache := some cache, priorityMetricCache := none })

/-- The metrics in use: those at hand, unless they are of another epoch. -/
def currentMetrics (ledger : TaskLedger) (cache : TaskGraphCache) : PriorityMetricCache :=
  match ledger.priorityMetricCache with
  | some metrics =>
      if metrics.stateEpoch = ledger.stateEpoch then metrics else ledger.buildMetrics cache
  | none => ledger.buildMetrics cache

def recomputePriorities (ledger : TaskLedger) (nowMs : Nat) :
    Except TaskLedgerError Unit × TaskLedger :=
  match ledger.withGraph with
  | .error error => (.error error, ledger)
  | .ok (cache, ledger) =>
      let metrics := ledger.currentMetrics cache
      (.ok (),
        { ledger with
          priorityMetricCache := some metrics
          tasks := applyPriorityScoresCachedMetrics ledger.tasks nowMs ledger.deadlineHorizonMs
            cache metrics })

end TaskLedger

end Aegis.Task
