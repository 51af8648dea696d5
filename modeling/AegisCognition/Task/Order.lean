import AegisCognition.Task.Selection

/-!
# The order of the graph, and the scores that it spreads

A graph that the ledger builds lists every task once. So its metrics reach every card, whichever
way they are applied. What is built from the cards reads of them neither a score nor the metrics,
and of the ledger nothing else.
-/

namespace Aegis.Task

open Std Foundation Coordination OrderedMap List

variable {ledger other : TaskLedger} {cache : TaskGraphCache} {metrics : PriorityMetricCache}
variable {card : TaskCard} {order : List Nat} {taskId nowMs horizonMs : Nat}

namespace TaskCard

/-- What the graph reads of a card. -/
def links (card : TaskCard) : Nat × List Nat := (card.taskId, card.dependencyIds)

/-- The card without what the priorities write on it. -/
def unscored (card : TaskCard) : TaskCard :=
  { card with
    deterministicPriorityScore := 0
    criticalPathLen := 0
    blockedDescendantCount := 0 }

@[simp] theorem unscored_scored (critical blocked score : Nat) :
    (card.scored critical blocked score).unscored = card.unscored := rfl

@[simp] theorem unscored_applyPriorityScore (critical blocked : Nat) :
    (card.applyPriorityScore critical blocked nowMs horizonMs).unscored = card.unscored := by
  rw [applyPriorityScore, unscored_scored]

/-- The scores of a card replace those before. -/
theorem applyPriorityScore_eq (critical blocked : Nat) :
    card.applyPriorityScore critical blocked nowMs horizonMs =
      card.unscored.applyPriorityScore critical blocked nowMs horizonMs := by
  cases card
  simp only [applyPriorityScore, scored, unscored]

end TaskCard

/-- Two ledgers agree on what a function reads of their cards. -/
def Agree {α : Type*} (reads : TaskCard → α) (tasks others : ExtTreeMap Nat TaskCard) : Prop :=
  ∀ taskId : Nat, (tasks[taskId]?).map reads = (others[taskId]?).map reads

namespace Agree

variable {α β : Type*} {reads : TaskCard → α} {tasks others third : ExtTreeMap Nat TaskCard}

theorem trans (h : Agree reads tasks others) (h' : Agree reads others third) :
    Agree reads tasks third := fun taskId => (h taskId).trans (h' taskId)

theorem comp (h : Agree reads tasks others) (less : α → β) :
    Agree (fun card => less (reads card)) tasks others := fun taskId => by
  have same := congrArg (Option.map less) (h taskId)
  rwa [Option.map_map, Option.map_map] at same

theorem links (h : Agree TaskCard.unscored tasks others) : Agree TaskCard.links tasks others :=
  h.comp TaskCard.links

end Agree

theorem TaskLedger.mem_tasks_iff : taskId ∈ ledger.tasks ↔ (ledger.task taskId).isSome = true :=
  ExtTreeMap.mem_iff_isSome_getElem?

namespace TaskLedger

/-! ### The graph -/

section Graph

variable (same : Agree TaskCard.links ledger.tasks other.tasks)

include same

theorem taskMap_eq : ledger.taskMap = other.taskMap := by
  have entries := congrArg (List.map fun entry : Nat × Nat × List Nat => (entry.1, entry.2.2))
    (toList_eq_of_reads same)
  simp only [map_map, Function.comp_def] at entries
  exact entries

theorem validateDependency_eq : ledger.validateDependency = other.validateDependency := by
  funext taskId dependencyId
  have present : dependencyId ∈ ledger.tasks ↔ dependencyId ∈ other.tasks := by
    rw [mem_tasks_iff, mem_tasks_iff, ← Option.isSome_map (f := TaskCard.links), task, same]
    exact iff_of_eq (congrArg (· = true) Option.isSome_map)
  simp only [validateDependency, present]

theorem validateDependencies_eq : ledger.validateDependencies = other.validateDependencies := by
  have read (ledger : TaskLedger) : ledger.validateDependencies =
      ((valueList ledger.tasks).map TaskCard.links).forM (fun read => do
        refuseWhen (read.1 = 0) (.invalidTask read.1)
        read.2.forM (ledger.validateDependency read.1)) := by
    rw [forM_eq_forM, forM_map]
    rfl
  rw [read, read, valueList_eq_of_reads same, validateDependency_eq same]

theorem topologicalOrderWithChildren_eq :
    ledger.topologicalOrderWithChildren = other.topologicalOrderWithChildren := by
  have size : ledger.tasks.size = other.tasks.size := by
    have := congrArg List.length (keys_eq_of_reads same)
    rwa [ExtTreeMap.length_keys, ExtTreeMap.length_keys] at this
  rw [topologicalOrderWithChildren, topologicalOrderWithChildren, validateDependencies_eq same,
    taskMap_eq same, size]

theorem buildGraphCache_eq : ledger.buildGraphCache = other.buildGraphCache := by
  have forest (ledger : TaskLedger) :
      ((valueList ledger.tasks).all fun task => task.dependencyIds.length ≤ 1) =
        ((valueList ledger.tasks).map TaskCard.links).all fun read =>
          read.2.length ≤ 1 := by
    rw [all_map]
    rfl
  simp only [buildGraphCache, childrenByIndex, topologicalOrderWithChildren_eq same,
    taskMap_eq same, forest, valueList_eq_of_reads same]

end Graph

/-! ### Metrics and candidates -/

section Unscored

variable (same : Agree TaskCard.unscored ledger.tasks other.tasks)

include same

theorem blocksByIndex_eq (order : List Nat) :
    blocksByIndex ledger.tasks order = blocksByIndex other.tasks order := by
  refine map_congr_left fun taskId _ => ?_
  exact congrArg (·.getD false) (same.comp (fun card => card.status.blocksDescendants) taskId)

theorem buildMetrics_eq (epoch : ledger.stateEpoch = other.stateEpoch) (cache : TaskGraphCache) :
    ledger.buildMetrics cache = other.buildMetrics cache := by
  simp only [buildMetrics, buildForestPriorityMetricsCached, buildExactDagPriorityMetricsCached,
    blocksByIndex_eq same, epoch]

theorem candidateIds_eq : ledger.candidateIds = other.candidateIds := by
  have read (ledger : TaskLedger) : ledger.candidateIds =
      (((valueList ledger.tasks).map TaskCard.unscored).filter fun task =>
        task.status.canEnterReadyQueue && ledger.dependenciesAreDone task).map
          TaskCard.taskId := by
    rw [filter_map, map_map]
    rfl
  have done : ledger.dependenciesAreDone = other.dependenciesAreDone := by
    funext task
    refine all_congr rfl fun dependencyId => ?_
    exact congrArg (·.getD false)
      (same.comp (fun card => decide (card.status = .done)) dependencyId)
  rw [read, read, valueList_eq_of_reads same, done]

end Unscored

/-! ### Every task once -/

/-- The cards are filed under their ids and name no dependency twice. -/
structure Filed (ledger : TaskLedger) : Prop where
  keyed : ∀ (taskId : Nat) (card : TaskCard), ledger.task taskId = some card → card.taskId = taskId
  dependencies : ∀ (taskId : Nat) (card : TaskCard), ledger.task taskId = some card →
    card.dependencyIds.Nodup

theorem mem_taskMap {entry : Nat × List Nat} : entry ∈ ledger.taskMap ↔
    ∃ card, ledger.task entry.1 = some card ∧ card.dependencyIds = entry.2 := by
  simp only [taskMap, mem_map, Prod.exists, ExtTreeMap.mem_toList_iff_getElem?_eq_some]
  constructor
  · rintro ⟨taskId, card, found, rfl⟩
    exact ⟨card, found, rfl⟩
  · rintro ⟨card, found, same⟩
    exact ⟨entry.1, card, found, Prod.ext rfl same⟩

theorem ids_taskMap (ledger : TaskLedger) : ledger.taskMap.ids = ledger.tasks.keys := by
  rw [TaskMap.ids, taskMap, map_map, ← ExtTreeMap.map_fst_toList_eq_keys]
  rfl

theorem nodup_ids (ledger : TaskLedger) : ledger.taskMap.ids.Nodup := by
  rw [ids_taskMap]
  exact ExtTreeMap.nodup_keys

theorem validateDependencies_ok (h : ledger.validateDependencies = .ok ()) {card : TaskCard}
    (found : ledger.task taskId = some card) {dependencyId : Nat}
    (mem : dependencyId ∈ card.dependencyIds) : dependencyId ∈ ledger.tasks := by
  have checked := forM_eq_ok_iff.mp h card (mem_valueList_iff.mpr ⟨taskId, found⟩)
  obtain ⟨_, -, checked⟩ := bind_eq_ok_iff.mp checked
  obtain ⟨_, -, present⟩ := bind_eq_ok_iff.mp (forM_eq_ok_iff.mp checked dependencyId mem)
  exact not_not.mp (refuseWhen_eq_ok_iff.mp present)

theorem Filed.wellFormed (h : Filed ledger) (valid : ledger.validateDependencies = .ok ()) :
    ledger.taskMap.WellFormed where
  ids := nodup_ids ledger
  dependencies := by
    intro entry mem
    obtain ⟨card, found, same⟩ := mem_taskMap.mp mem
    exact same ▸ h.dependencies entry.1 card found
  closed := by
    intro entry mem dependencyId depends
    obtain ⟨card, found, same⟩ := mem_taskMap.mp mem
    rw [ids_taskMap, ExtTreeMap.mem_keys]
    exact validateDependencies_ok valid found (same ▸ depends)

/-- What the order of a ledger is: the smallest task first, all of them. -/
theorem Filed.topologicalOrderWithChildren_ok (h : Filed ledger) {children : Nat → List Nat}
    (ordered : ledger.topologicalOrderWithChildren = .ok (order, children)) :
    Completes ledger.taskMap.nodes ledger.taskMap.needs ∅ order := by
  obtain ⟨_, valid, ordered⟩ := bind_eq_ok_iff.mp ordered
  obtain ⟨_, full, same⟩ := bind_eq_ok_iff.mp ordered
  obtain ⟨rfl, -⟩ := Prod.mk.inj (Except.ok.inj same)
  have wf := h.wellFormed valid
  have size : ledger.taskMap.length = ledger.tasks.size := by
    rw [taskMap, length_map, ExtTreeMap.length_toList]
  have full : ledger.taskMap.topologicalOrder.length = ledger.tasks.size :=
    not_not.mp (refuseWhen_eq_ok_iff.mp full)
  rw [TaskMap.topologicalOrder_eq wf] at full ⊢
  rw [Completes.iff_length (smallestFirst_starts _ _), full, Finset.sdiff_empty,
    TaskMap.card_nodes wf, size]

/-- The graph of a ledger lists every task once, and its order is compared with that of the ids. -/
theorem Filed.buildGraphCache_ok (h : Filed ledger) (built : ledger.buildGraphCache = .ok cache) :
    cache.topologicalOrder.Nodup ∧
      (∀ taskId, taskId ∈ cache.topologicalOrder ↔ taskId ∈ ledger.tasks) ∧
      (cache.topologicalOrderMatchesTaskOrder = true →
        cache.topologicalOrder = ledger.tasks.keys) := by
  obtain ⟨⟨order, children⟩, ordered, same⟩ := bind_eq_ok_iff.mp built
  cases same
  obtain ⟨nodup, all, -⟩ := Completes.iff_respects.mp (h.topologicalOrderWithChildren_ok ordered)
  refine ⟨nodup, fun taskId => ?_, fun matching => ?_⟩
  · rw [← ExtTreeMap.mem_keys, ← ids_taskMap, ← mem_toFinset, all, TaskMap.nodes,
      mem_toFinset]
  · rw [← ids_taskMap]
    exact of_decide_eq_true matching

end TaskLedger

/-! ### Scores -/

/-- Scoring the cards of a list of distinct tasks, by their places in the list. -/
theorem getElem?_foldl_applyPriorityScoreAt {tasks : ExtTreeMap Nat TaskCard} (nodup : order.Nodup)
    (first : Nat) :
    ((order.zipIdx first).foldl (applyPriorityScoreAt nowMs horizonMs metrics) tasks)[taskId]? =
      (tasks[taskId]?).map fun card =>
        if taskId ∈ order then
          card.applyPriorityScore
            (metrics.criticalPathByIndex.getD (first + order.idxOf taskId) 0)
            (metrics.blockedDescendantsByIndex.getD (first + order.idxOf taskId) 0) nowMs horizonMs
        else card := by
  induction order generalizing tasks first with
  | nil => simp
  | cons head order ih =>
      obtain ⟨fresh, nodup⟩ := nodup_cons.mp nodup
      rw [zipIdx_cons, foldl_cons, ih nodup]
      by_cases same : head = taskId
      · obtain rfl := same
        cases found : tasks[head]? with
        | none => simp [applyPriorityScoreAt, found]
        | some card => simp [applyPriorityScoreAt, found, fresh]
      · have kept : (applyPriorityScoreAt nowMs horizonMs metrics tasks (head, first))[taskId]? =
            tasks[taskId]? := by
          unfold applyPriorityScoreAt
          split
          · rfl
          · exact getElem?_insert_of_ne same
        rw [kept]
        refine congrArg (Option.map · _) (funext fun card => ?_)
        rw [idxOf_cons_ne _ same]
        simp only [mem_cons, Ne.symm same, false_or, Nat.add_comm, Nat.add_left_comm]

theorem TaskLedger.Filed.getElem?_applyPriorityScores (h : TaskLedger.Filed ledger)
    (built : ledger.buildGraphCache = .ok cache) (taskId : Nat) :
    (applyPriorityScoresCachedMetrics ledger.tasks nowMs horizonMs cache metrics)[taskId]? =
      (ledger.tasks[taskId]?).map fun card => card.applyPriorityScore
        (metrics.criticalPathByIndex.getD (cache.topologicalOrder.idxOf taskId) 0)
        (metrics.blockedDescendantsByIndex.getD (cache.topologicalOrder.idxOf taskId) 0)
        nowMs horizonMs := by
  obtain ⟨nodup, all, matching⟩ := h.buildGraphCache_ok built
  have order : applyPriorityScoresCachedMetrics ledger.tasks nowMs horizonMs cache metrics =
      cache.topologicalOrder.zipIdx.foldl (applyPriorityScoreAt nowMs horizonMs metrics)
        ledger.tasks := by
    unfold applyPriorityScoresCachedMetrics
    split
    · rename_i same
      rw [matching same]
    · rfl
  rw [order, getElem?_foldl_applyPriorityScoreAt nodup]
  cases found : ledger.tasks[taskId]? with
  | none => rfl
  | some card =>
      have mem : taskId ∈ cache.topologicalOrder :=
        (all taskId).mpr (ExtTreeMap.mem_iff_isSome_getElem?.mpr (by rw [found]; rfl))
      simp only [Option.map_some, if_pos mem, Nat.zero_add]

end Aegis.Task
