import AegisCognition.Task.Order

/-!
# The caches of the ledger

Whatever a cache holds under the current epoch is what would be built anew. Every mutation drops
what it makes stale: the graph goes with a new task alone, everything else with every new epoch.
What is left across a computation at another time does not depend on the scores that it writes.
So the ready queue is the one of the same ledger without caches.
-/

namespace Aegis.Task

open Std Foundation Replay OrderedMap TaskCard TaskLedger List

/-- One call on the ledger with its arguments. -/
inductive TaskLedgerOp where
  | insertTask (task : TaskCard)
  | markStatus (taskId : Nat) (status : TaskStatus)
  | transitionStatus (taskId : Nat) (status : TaskStatus)
  | completeTask (taskId : Nat)
  | scheduleRetryWait (taskId notBeforeMs : Nat)
  | startRetryAttempt (taskId attemptId nowMs : Nat)
  | recomputePriorities (nowMs : Nat)
  | orderedReadyTasks (nowMs : Nat)
  | selectNextTask (nowMs : Nat)
  | selectNextTaskProof (nowMs : Nat)

namespace TaskLedger

def step (blake3 : Hasher) (ledger : TaskLedger) : TaskLedgerOp → TaskLedger
  | .insertTask task => (ledger.insertTask task).2
  | .markStatus taskId status => (ledger.markStatus taskId status).2
  | .transitionStatus taskId status => (ledger.transitionStatus taskId status).2
  | .completeTask taskId => (ledger.completeTask taskId).2
  | .scheduleRetryWait taskId notBeforeMs => (ledger.scheduleRetryWait taskId notBeforeMs).2
  | .startRetryAttempt taskId attemptId nowMs =>
      (ledger.startRetryAttempt taskId attemptId nowMs).2
  | .recomputePriorities nowMs => (ledger.recomputePriorities nowMs).2
  | .orderedReadyTasks nowMs => (ledger.orderedReadyTasks nowMs).2
  | .selectNextTask nowMs => (ledger.selectNextTask nowMs).2
  | .selectNextTaskProof nowMs => (ledger.selectNextTaskProof blake3 nowMs).2

/-- The ledger with all four caches cleared. -/
def withoutCaches (ledger : TaskLedger) : TaskLedger :=
  { ledger with
    graphCache := none
    priorityMetricCache := none
    readyCandidateCache := none
    readyCache := none }

variable {ledger next : TaskLedger} {cache : TaskGraphCache} {card : TaskCard}
variable {taskId nowMs : Nat}

/-! ### Queues that are built anew -/

/-- The cards with the scores of one time. -/
def scoredTasks (ledger : TaskLedger) (nowMs : Nat) (cache : TaskGraphCache) :
    ExtTreeMap Nat TaskCard :=
  applyPriorityScoresCachedMetrics ledger.tasks nowMs ledger.deadlineHorizonMs cache
    (ledger.buildMetrics cache)

/-- The ready queue as it is without caches. -/
def freshReadyTasks (ledger : TaskLedger) (nowMs : Nat) : Except TaskLedgerError (List Nat) :=
  ledger.buildGraphCache.map fun cache =>
    sortByPriority (ledger.scoredTasks nowMs cache) ledger.candidateIds

/-- What the caches hold, where they are used, is what would be built. -/
structure Coherent (ledger : TaskLedger) : Prop where
  filed : Filed ledger
  graph : ∀ cache, ledger.graphCache = some cache → ledger.buildGraphCache = .ok cache
  metrics : ∀ metrics, ledger.priorityMetricCache = some metrics →
    metrics.stateEpoch = ledger.stateEpoch →
    ∃ cache, ledger.graphCache = some cache ∧ metrics = ledger.buildMetrics cache
  candidates : ∀ cache, ledger.readyCandidateCache = some cache →
    cache.stateEpoch = ledger.stateEpoch → cache.taskIds = ledger.candidateIds
  ready : ∀ cache, ledger.readyCache = some cache → cache.stateEpoch = ledger.stateEpoch →
    ledger.freshReadyTasks cache.nowMs = .ok cache.taskIds

/-- The same tasks, of the same epoch, but for their scores. -/
structure Rescored (ledger next : TaskLedger) : Prop where
  tasks : Agree TaskCard.unscored ledger.tasks next.tasks
  stateEpoch : ledger.stateEpoch = next.stateEpoch
  deadlineHorizonMs : ledger.deadlineHorizonMs = next.deadlineHorizonMs

theorem Filed.of_links (h : Filed ledger) (links : Agree TaskCard.links ledger.tasks next.tasks) :
    Filed next := by
  have known (taskId : Nat) (card : TaskCard) (found : next.task taskId = some card) :
      ∃ old, ledger.task taskId = some old ∧ old.links = card.links := by
    have same := links taskId
    rw [show next.tasks[taskId]? = some card from found] at same
    obtain ⟨old, known, same⟩ := Option.map_eq_some_iff.mp same
    exact ⟨old, known, same⟩
  constructor
  · intro taskId card found
    obtain ⟨old, known, same⟩ := known taskId card found
    exact (congrArg Prod.fst same).symm.trans (h.keyed taskId old known)
  · intro taskId card found
    obtain ⟨old, known, same⟩ := known taskId card found
    have depends : old.dependencyIds = card.dependencyIds := congrArg Prod.snd same
    exact depends ▸ h.dependencies taskId old known

theorem Rescored.refl (ledger : TaskLedger) : Rescored ledger ledger :=
  ⟨fun _ => rfl, rfl, rfl⟩

theorem Rescored.filed (h : Rescored ledger next) (filed : Filed ledger) : Filed next :=
  filed.of_links h.tasks.links

/-- Cards that agree but for their scores are the same once they are scored. -/
theorem Rescored.scoredTasks_eq (h : Rescored ledger next) (filed : Filed ledger)
    (built : ledger.buildGraphCache = .ok cache) :
    ledger.scoredTasks nowMs cache = next.scoredTasks nowMs cache := by
  have built' : next.buildGraphCache = .ok cache := by
    rw [← buildGraphCache_eq h.tasks.links, built]
  refine ExtTreeMap.ext_getElem? fun taskId => ?_
  rw [scoredTasks, scoredTasks, filed.getElem?_applyPriorityScores built,
    (h.filed filed).getElem?_applyPriorityScores built', buildMetrics_eq h.tasks h.stateEpoch,
    h.deadlineHorizonMs]
  have same := congrArg (Option.map fun card : TaskCard => card.applyPriorityScore
    ((next.buildMetrics cache).criticalPathByIndex.getD (cache.topologicalOrder.idxOf taskId) 0)
    ((next.buildMetrics cache).blockedDescendantsByIndex.getD
      (cache.topologicalOrder.idxOf taskId) 0) nowMs next.deadlineHorizonMs) (h.tasks taskId)
  simp only [Option.map_map, Function.comp_def, ← applyPriorityScore_eq] at same
  exact same

theorem Rescored.freshReadyTasks_eq (h : Rescored ledger next) (filed : Filed ledger) :
    ledger.freshReadyTasks nowMs = next.freshReadyTasks nowMs := by
  rw [freshReadyTasks, freshReadyTasks, ← buildGraphCache_eq h.tasks.links]
  cases built : ledger.buildGraphCache with
  | error error => simp only [Except.map]
  | ok cache =>
      rw [Except.map, Except.map, h.scoredTasks_eq filed built, candidateIds_eq h.tasks]

/-- What is current stays so when the cards get other scores. -/
theorem Coherent.rescored (h : Coherent ledger) (scores : Rescored ledger next)
    (graph : ∀ cache, next.graphCache = some cache → next.buildGraphCache = .ok cache)
    (metrics : ∀ metrics, next.priorityMetricCache = some metrics →
      metrics.stateEpoch = next.stateEpoch →
      ∃ cache, next.graphCache = some cache ∧ metrics = next.buildMetrics cache)
    (candidates : next.readyCandidateCache = ledger.readyCandidateCache)
    (ready : next.readyCache = ledger.readyCache) : Coherent next := by
  refine ⟨scores.filed h.filed, graph, metrics, fun cache cached current => ?_,
    fun cache cached current => ?_⟩
  · rw [← candidateIds_eq scores.tasks]
    exact h.candidates cache (candidates ▸ cached) (current.trans scores.stateEpoch.symm)
  · rw [← scores.freshReadyTasks_eq h.filed]
    exact h.ready cache (ready ▸ cached) (current.trans scores.stateEpoch.symm)

/-! ### Reading calls -/

/-- The ledger after a computation of the priorities. -/
def withScores (ledger : TaskLedger) (nowMs : Nat) (cache : TaskGraphCache) : TaskLedger :=
  { ledger with
    graphCache := some cache
    priorityMetricCache := some (ledger.buildMetrics cache)
    tasks := ledger.scoredTasks nowMs cache }

/-- The priorities are computed from the graph that would be built, or there is none. -/
theorem Coherent.recomputePriorities_eq (h : Coherent ledger) (nowMs : Nat) :
    ledger.recomputePriorities nowMs =
      match ledger.buildGraphCache with
      | .error error => (.error error, ledger)
      | .ok cache => (.ok (), ledger.withScores nowMs cache) := by
  unfold recomputePriorities withGraph
  cases cached : ledger.graphCache with
  | some cache =>
      have current : ledger.currentMetrics cache = ledger.buildMetrics cache := by
        unfold currentMetrics
        split
        · rename_i metrics kept
          split
          · rename_i epoch
            obtain ⟨other, same, he⟩ := h.metrics metrics kept epoch
            rw [he, Option.some.inj (cached.symm.trans same)]
          · rfl
        · rfl
      simp only [h.graph cache cached, current, withScores, scoredTasks, ← cached]
  | none =>
      cases built : ledger.buildGraphCache with
      | error error => rfl
      | ok cache => rfl

theorem Filed.rescored_withScores (h : Filed ledger) (built : ledger.buildGraphCache = .ok cache)
    (nowMs : Nat) : Rescored ledger (ledger.withScores nowMs cache) := by
  refine ⟨fun taskId => ?_, rfl, rfl⟩
  change _ = ((ledger.scoredTasks nowMs cache)[taskId]?).map _
  rw [scoredTasks, h.getElem?_applyPriorityScores built, Option.map_map]
  simp only [Function.comp_def, unscored_applyPriorityScore]

theorem Coherent.withScores (h : Coherent ledger) (built : ledger.buildGraphCache = .ok cache)
    (nowMs : Nat) : Coherent (ledger.withScores nowMs cache) := by
  have scores := h.filed.rescored_withScores built nowMs
  refine h.rescored scores ?_ ?_ rfl rfl
  · rintro _ ⟨⟩
    rw [← buildGraphCache_eq scores.tasks.links, built]
  · rintro _ ⟨⟩ -
    exact ⟨cache, rfl, buildMetrics_eq scores.tasks scores.stateEpoch cache⟩

theorem Coherent.recomputePriorities (h : Coherent ledger) (nowMs : Nat) :
    Coherent (ledger.recomputePriorities nowMs).2 := by
  rw [h.recomputePriorities_eq]
  cases built : ledger.buildGraphCache with
  | error error => exact h
  | ok cache => exact h.withScores built nowMs

theorem Coherent.readyCandidateIds (h : Coherent ledger) :
    ledger.readyCandidateIds.1 = ledger.candidateIds ∧
      Coherent ledger.readyCandidateIds.2 ∧
      ledger.readyCandidateIds.2.tasks = ledger.tasks ∧
      Rescored ledger ledger.readyCandidateIds.2 := by
  have same : Rescored ledger ledger := .refl ledger
  unfold TaskLedger.readyCandidateIds
  simp only
  split
  · rename_i cache cached
    obtain ⟨cached, current⟩ := Option.filter_eq_some_iff.mp cached
    exact ⟨h.candidates cache cached (of_decide_eq_true current), h, rfl, same⟩
  · refine ⟨rfl, ?_, rfl, ⟨fun _ => rfl, rfl, rfl⟩⟩
    refine Coherent.mk ⟨h.filed.keyed, h.filed.dependencies⟩ h.graph h.metrics ?_ h.ready
    rintro _ ⟨⟩ -
    rfl

theorem Rescored.trans {third : TaskLedger} (h : Rescored ledger next) (h' : Rescored next third) :
    Rescored ledger third :=
  ⟨h.tasks.trans h'.tasks, h.stateEpoch.trans h'.stateEpoch,
    h.deadlineHorizonMs.trans h'.deadlineHorizonMs⟩

/-- The queue that is kept for a time is the one of that time. -/
theorem Coherent.withReady (h : Coherent ledger) {taskIds : List Nat}
    (fresh : ledger.freshReadyTasks nowMs = .ok taskIds) :
    Coherent { ledger with readyCache := some ⟨nowMs, ledger.stateEpoch, taskIds⟩ } := by
  refine Coherent.mk ⟨h.filed.keyed, h.filed.dependencies⟩ h.graph h.metrics h.candidates ?_
  rintro _ ⟨⟩ -
  exact fresh

theorem Coherent.rescored_recomputePriorities (h : Coherent ledger) (nowMs : Nat) :
    Rescored ledger (ledger.recomputePriorities nowMs).2 := by
  rw [h.recomputePriorities_eq]
  cases built : ledger.buildGraphCache with
  | error error => exact .refl ledger
  | ok cache => exact h.filed.rescored_withScores built nowMs

/-- Reading the ready queue changes no more of the cards than their scores. -/
theorem Coherent.rescored_orderedReadyTasks (h : Coherent ledger) (nowMs : Nat) :
    Rescored ledger (ledger.orderedReadyTasks nowMs).2 := by
  have scored := h.rescored_recomputePriorities nowMs
  have coherent := h.recomputePriorities nowMs
  simp only [orderedReadyTasks]
  split
  · exact .refl ledger
  · split
    · rename_i error next failed
      rwa [failed] at scored
    · rename_i next computed
      rw [computed] at scored coherent
      obtain ⟨-, -, -, same⟩ := coherent.readyCandidateIds
      have all := scored.trans same
      exact ⟨all.tasks, all.stateEpoch, all.deadlineHorizonMs⟩

/-- The ready queue is the one that would be built, and the caches stay current. -/
theorem Coherent.orderedReadyTasks (h : Coherent ledger) (nowMs : Nat) :
    (ledger.orderedReadyTasks nowMs).1 = ledger.freshReadyTasks nowMs ∧
      Coherent (ledger.orderedReadyTasks nowMs).2 := by
  unfold TaskLedger.orderedReadyTasks
  simp only
  split
  · rename_i cache cached
    obtain ⟨kept, current⟩ := Option.filter_eq_some_iff.mp cached
    obtain ⟨time, epoch⟩ : cache.nowMs = nowMs ∧ cache.stateEpoch = ledger.stateEpoch :=
      of_decide_eq_true current
    exact ⟨time ▸ (h.ready cache kept epoch).symm, h⟩
  · rw [h.recomputePriorities_eq]
    cases built : ledger.buildGraphCache with
    | error error =>
        rw [freshReadyTasks, built]
        exact ⟨rfl, h⟩
    | ok cache =>
        have scores := h.filed.rescored_withScores built nowMs
        obtain ⟨ids, coherent, tasks, same⟩ := (h.withScores built nowMs).readyCandidateIds
        have fresh : ledger.freshReadyTasks nowMs =
            .ok (sortByPriority (ledger.withScores nowMs cache).readyCandidateIds.2.tasks
              (ledger.withScores nowMs cache).readyCandidateIds.1) := by
          rw [freshReadyTasks, built, Except.map, ids, tasks, candidateIds_eq scores.tasks]
          rfl
        refine ⟨fresh.symm, coherent.withReady ?_⟩
        rw [← fresh, (scores.trans same).freshReadyTasks_eq h.filed]

/-- Proving a selection leaves the ledger as reading the queue does. -/
theorem selectNextTaskProof_ledger (blake3 : Hasher) (ledger : TaskLedger) (nowMs : Nat) :
    (ledger.selectNextTaskProof blake3 nowMs).2 = (ledger.orderedReadyTasks nowMs).2 := by
  rw [selectNextTaskProof]
  split <;> rename_i he <;> rw [he]

/-! ### Changing calls -/

theorem agree_links_put {old : TaskCard} (found : ledger.task taskId = some old)
    (same : card.links = old.links) :
    Agree TaskCard.links ledger.tasks (ledger.put taskId card).tasks := by
  intro other
  change _ = ((ledger.tasks.insert taskId card)[other]?).map TaskCard.links
  by_cases here : taskId = other
  · obtain rfl := here
    rw [ExtTreeMap.getElem?_insert_self, show ledger.tasks[taskId]? = some old from found,
      Option.map_some, Option.map_some, same]
  · rw [getElem?_insert_of_ne here]

/-- A new card in the place of one with the same links leaves the graph alone. -/
theorem Coherent.put (h : Coherent ledger) {old : TaskCard} (found : ledger.task taskId = some old)
    (same : card.links = old.links) : Coherent (ledger.put taskId card) := by
  have links := agree_links_put found same
  refine ⟨h.filed.of_links links, fun cache cached => ?_, nofun, nofun, nofun⟩
  rw [← buildGraphCache_eq links]
  exact h.graph cache cached

/-- A call changes nothing or puts a card in the place of one with the same links. -/
def Relabels (ledger next : TaskLedger) : Prop :=
  next = ledger ∨ ∃ taskId old card, ledger.task taskId = some old ∧ card.links = old.links ∧
    next = ledger.put taskId card

theorem Coherent.of_relabels (h : Coherent ledger) (moved : Relabels ledger next) :
    Coherent next := by
  obtain rfl | ⟨taskId, old, card, found, same, rfl⟩ := moved
  · exact h
  · exact h.put found same

theorem relabels_transitionStatus (ledger : TaskLedger) (taskId : Nat) (status : TaskStatus) :
    Relabels ledger (ledger.transitionStatus taskId status).2 := by
  unfold transitionStatus setStatus
  split
  · exact .inl rfl
  · cases found : ledger.task taskId with
    | none => exact .inl rfl
    | some card =>
        simp only
        split
        · exact .inl rfl
        · refine .inr ⟨taskId, card, card.withStatus status, found, ?_, rfl⟩
          rw [TaskCard.links, withStatus_taskId, withStatus_dependencyIds]
          rfl

theorem relabels_scheduleRetryWait (ledger : TaskLedger) (taskId notBeforeMs : Nat) :
    Relabels ledger (ledger.scheduleRetryWait taskId notBeforeMs).2 := by
  unfold scheduleRetryWait
  split
  · split
    · exact .inl rfl
    · cases found : ledger.task taskId with
      | none => exact .inl rfl
      | some card =>
          simp only
          refine .inr ⟨taskId, card, _, found, ?_, rfl⟩
          rfl
  · exact .inl rfl

theorem relabels_startRetryAttempt (ledger : TaskLedger) (taskId attemptId nowMs : Nat) :
    Relabels ledger (ledger.startRetryAttempt taskId attemptId nowMs).2 := by
  unfold startRetryAttempt
  split
  · exact .inl rfl
  · cases found : ledger.task taskId with
    | none => exact .inl rfl
    | some card =>
        simp only
        refine .inr ⟨taskId, card, _, found, ?_, rfl⟩
        rfl

/-- What every change of a status preserves is preserved on the way to `done`. -/
theorem completeLoop_invariant {Inv : TaskLedger → Prop}
    (keep : ∀ ledger taskId status, Inv ledger → Inv (ledger.transitionStatus taskId status).2)
    (fuel taskId : Nat) (h : Inv ledger) : Inv (completeLoop fuel ledger taskId).2 := by
  induction fuel generalizing ledger with
  | zero => exact h
  | succ fuel ih =>
      rw [completeLoop]
      split
      · exact h
      · split
        · exact h
        · split
          · exact h
          · rename_i status _
            have moved := keep ledger taskId status h
            split
            · rename_i error next he
              rwa [he] at moved
            · rename_i next he
              rw [he] at moved
              exact ih moved

theorem Coherent.completeLoop (h : Coherent ledger) (fuel taskId : Nat) :
    Coherent (completeLoop fuel ledger taskId).2 := by
  apply completeLoop_invariant _ fuel taskId h
  intro ledger taskId status kept
  exact kept.of_relabels (relabels_transitionStatus ledger taskId status)

theorem isChain_lt_of_pairwise_le {numbers : List Nat} (sorted : numbers.Pairwise (· ≤ ·))
    (apart : numbers.IsChain (· ≠ ·)) : numbers.IsChain (· < ·) := by
  induction numbers with
  | nil => exact .nil
  | cons first rest ih =>
      cases rest with
      | nil => exact .singleton first
      | cons second rest =>
          rw [isChain_cons_cons] at apart ⊢
          have le := rel_of_pairwise_cons sorted mem_cons_self
          exact ⟨Nat.lt_of_le_of_ne le apart.1, ih sorted.of_cons apart.2⟩

/-- Sorting and removing neighbours that are equal leaves no number twice. -/
theorem nodup_destutter_insertionSort (numbers : List Nat) :
    ((numbers.insertionSort (· ≤ ·)).destutter (· ≠ ·)).Nodup := by
  have sorted : ((numbers.insertionSort (· ≤ ·)).destutter (· ≠ ·)).Pairwise (· ≤ ·) :=
    (pairwise_insertionSort ..).sublist (destutter_sublist ..)
  have apart := isChain_destutter (· ≠ ·) (numbers.insertionSort (· ≤ ·))
  have rising := isChain_lt_of_pairwise_le sorted apart
  exact (isChain_iff_pairwise.mp rising).imp Nat.ne_of_lt

theorem Coherent.insertTask (h : Coherent ledger) (card : TaskCard) :
    Coherent (ledger.insertTask card).2 := by
  unfold TaskLedger.insertTask
  split
  · exact h
  split
  · exact h
  split
  · exact h
  refine ⟨⟨?_, ?_⟩, nofun, nofun, nofun, nofun⟩
  · intro taskId found known
    obtain ⟨rfl, rfl⟩ | ⟨-, old⟩ := getElem?_insert_eq_some_iff.mp known
    · rfl
    · exact h.filed.keyed taskId found old
  · intro taskId found known
    obtain ⟨-, rfl⟩ | ⟨-, old⟩ := getElem?_insert_eq_some_iff.mp known
    · exact nodup_destutter_insertionSort card.dependencyIds
    · exact h.filed.dependencies taskId found old

/-! ### Runs -/

theorem Coherent.step (h : Coherent ledger) (blake3 : Hasher) (op : TaskLedgerOp) :
    Coherent (ledger.step blake3 op) := by
  cases op with
  | insertTask task => exact h.insertTask task
  | markStatus taskId status => exact h.of_relabels (relabels_transitionStatus ledger taskId status)
  | transitionStatus taskId status =>
      exact h.of_relabels (relabels_transitionStatus ledger taskId status)
  | completeTask taskId => exact h.completeLoop 5 taskId
  | scheduleRetryWait taskId notBeforeMs =>
      exact h.of_relabels (relabels_scheduleRetryWait ledger taskId notBeforeMs)
  | startRetryAttempt taskId attemptId nowMs =>
      exact h.of_relabels (relabels_startRetryAttempt ledger taskId attemptId nowMs)
  | recomputePriorities nowMs => exact h.recomputePriorities nowMs
  | orderedReadyTasks nowMs => exact (h.orderedReadyTasks nowMs).2
  | selectNextTask nowMs => exact (h.orderedReadyTasks nowMs).2
  | selectNextTaskProof nowMs =>
      rw [TaskLedger.step, selectNextTaskProof_ledger]
      exact (h.orderedReadyTasks nowMs).2

theorem coherent_new (deadlineHorizonMs : Nat) : Coherent (new deadlineHorizonMs) where
  filed := ⟨by simp [new, task], by simp [new, task]⟩
  graph := nofun
  metrics := nofun
  candidates := nofun
  ready := nofun

theorem run_coherent (blake3 : Hasher) (deadlineHorizonMs : Nat) (ops : List TaskLedgerOp) :
    Coherent (run (step blake3) (new deadlineHorizonMs) ops) :=
  run_invariant (fun _ op kept => kept.step blake3 op) ops (coherent_new deadlineHorizonMs)

theorem Coherent.withoutCaches (h : Coherent ledger) : Coherent ledger.withoutCaches where
  filed := ⟨h.filed.keyed, h.filed.dependencies⟩
  graph := nofun
  metrics := nofun
  candidates := nofun
  ready := nofun

/-! ### The ready queue -/

/-- One task stands before another: its score is higher, or its deadline is earlier at the same
score, or else its id is smaller. -/
def Precedes (ledger : TaskLedger) (first second : Nat) : Prop :=
  ∃ left right, ledger.task first = some left ∧ ledger.task second = some right ∧
    (right.deterministicPriorityScore < left.deterministicPriorityScore ∨
      right.deterministicPriorityScore = left.deterministicPriorityScore ∧
        (left.hardDeadlineMs.getD u64Max < right.hardDeadlineMs.getD u64Max ∨
          left.hardDeadlineMs.getD u64Max = right.hardDeadlineMs.getD u64Max ∧ first < second))

instance : TransCmp priorityOrder :=
  inferInstanceAs (TransCmp (compareLex
    (fun left right => compareOn TaskCard.deterministicPriorityScore right left)
    (compareLex (compareOn fun card => card.hardDeadlineMs.getD u64Max)
      (compareLex (compareOn TaskCard.taskId) (compareOn TaskCard.insertionOrder)))))

theorem priority_of_isLE {left right : TaskCard} (le : (priorityOrder left right).isLE = true)
    (apart : left.taskId ≠ right.taskId) :
    right.deterministicPriorityScore < left.deterministicPriorityScore ∨
      right.deterministicPriorityScore = left.deterministicPriorityScore ∧
        (left.hardDeadlineMs.getD u64Max < right.hardDeadlineMs.getD u64Max ∨
          left.hardDeadlineMs.getD u64Max = right.hardDeadlineMs.getD u64Max ∧
            left.taskId < right.taskId) := by
  rw [priorityOrder] at le
  obtain score | score | score := Nat.lt_trichotomy right.deterministicPriorityScore
    left.deterministicPriorityScore
  · exact .inl score
  · refine .inr ⟨score, ?_⟩
    rw [Nat.compare_eq_eq.mpr score, Ordering.eq_then] at le
    obtain deadline | deadline | deadline := Nat.lt_trichotomy (left.hardDeadlineMs.getD u64Max)
      (right.hardDeadlineMs.getD u64Max)
    · exact .inl deadline
    · refine .inr ⟨deadline, ?_⟩
      rw [Nat.compare_eq_eq.mpr deadline, Ordering.eq_then] at le
      obtain id | id | id := Nat.lt_trichotomy left.taskId right.taskId
      · exact id
      · exact absurd id apart
      · rw [Nat.compare_eq_gt.mpr id] at le
        cases le
    · rw [Nat.compare_eq_gt.mpr deadline] at le
      cases le
  · rw [Nat.compare_eq_gt.mpr score] at le
    cases le

theorem Filed.mem_candidateIds (h : Filed ledger) : taskId ∈ ledger.candidateIds ↔
    ∃ card, ledger.task taskId = some card ∧ (card.status = .pending ∨ card.status = .ready) ∧
      ∀ dependencyId ∈ card.dependencyIds, ∃ dependency,
        ledger.task dependencyId = some dependency ∧ dependency.status = .done := by
  have may (status : TaskStatus) :
      status.canEnterReadyQueue = true ↔ status = .pending ∨ status = .ready := by
    cases status <;> simp [TaskStatus.canEnterReadyQueue]
  simp only [candidateIds, mem_map, mem_filter, mem_valueList_iff,
    Bool.and_eq_true, may, dependenciesAreDone_iff]
  constructor
  · rintro ⟨card, ⟨⟨key, found⟩, enters, done⟩, rfl⟩
    obtain rfl := h.keyed key card found
    exact ⟨card, found, enters, done⟩
  · rintro ⟨card, found, enters, done⟩
    exact ⟨card, ⟨⟨taskId, found⟩, enters, done⟩, h.keyed taskId card found⟩

theorem Filed.nodup_candidateIds (h : Filed ledger) : ledger.candidateIds.Nodup := by
  have keys : (valueList ledger.tasks).map taskId = ledger.tasks.keys := by
    rw [valueList, map_map, ← ExtTreeMap.map_fst_toList_eq_keys]
    refine map_congr_left fun entry mem => ?_
    exact h.keyed entry.1 entry.2 (ExtTreeMap.mem_toList_iff_getElem?_eq_some.mp mem)
  have all : ((valueList ledger.tasks).map taskId).Nodup :=
    keys ▸ ExtTreeMap.nodup_keys
  exact all.sublist (filter_sublist.map _)

theorem isLE_priorityOrder_total (left right : TaskCard) :
    ((priorityOrder left right).isLE || (priorityOrder right left).isLE) = true := by
  have swap : priorityOrder right left = (priorityOrder left right).swap := OrientedCmp.eq_swap
  rw [swap]
  cases priorityOrder left right <;> rfl

theorem Filed.sortByPriority (h : Filed ledger) {taskIds : List Nat} (nodup : taskIds.Nodup)
    (known : ∀ taskId ∈ taskIds, taskId ∈ ledger.tasks) :
    (sortByPriority ledger.tasks taskIds).Perm taskIds ∧
      (sortByPriority ledger.tasks taskIds).Pairwise (Precedes ledger) := by
  have ids : (taskIds.filterMap (ledger.tasks[·]?)).map TaskCard.taskId = taskIds := by
    have own (taskId : Nat) (mem : taskId ∈ taskIds) :
        (ledger.tasks[taskId]?).map TaskCard.taskId = some taskId := by
      obtain ⟨card, found⟩ := Option.isSome_iff_exists.mp
        (ExtTreeMap.mem_iff_isSome_getElem?.mp (known taskId mem))
      rw [found, Option.map_some, h.keyed taskId card found]
    rw [map_filterMap, filterMap_congr own, filterMap_some]
  have perm : (Aegis.Task.sortByPriority ledger.tasks taskIds).Perm taskIds := by
    have sorted := (mergeSort_perm (taskIds.filterMap (ledger.tasks[·]?))
      fun left right => (priorityOrder left right).isLE).map TaskCard.taskId
    rwa [ids] at sorted
  have apart := perm.nodup_iff.mpr nodup
  refine ⟨perm, ?_⟩
  rw [Aegis.Task.sortByPriority, List.Nodup, pairwise_map] at apart
  rw [Aegis.Task.sortByPriority, pairwise_map]
  have sorted := pairwise_mergeSort (fun _ _ _ => TransCmp.isLE_trans)
    isLE_priorityOrder_total (taskIds.filterMap (ledger.tasks[·]?))
  refine (sorted.and apart).imp_of_mem fun {left right} leftMem rightMem both => ?_
  have own (card : TaskCard)
      (mem : card ∈ (taskIds.filterMap (ledger.tasks[·]?)).mergeSort fun left right =>
        (priorityOrder left right).isLE) : ledger.task card.taskId = some card := by
    obtain ⟨taskId, -, found⟩ := mem_filterMap.mp (mem_mergeSort.mp mem)
    rw [h.keyed taskId card found]
    exact found
  exact ⟨left, right, own left leftMem, own right rightMem, priority_of_isLE both.1 both.2⟩

/-- The graph can be built exactly if the dependencies have an order. -/
theorem buildGraphCache_cases (ledger : TaskLedger) :
    (∃ error, ledger.topologicalOrder = .error error ∧ ledger.buildGraphCache = .error error) ∨
      ∃ order cache, ledger.topologicalOrder = .ok order ∧ ledger.buildGraphCache = .ok cache := by
  rw [topologicalOrder, buildGraphCache]
  cases ledger.topologicalOrderWithChildren with
  | error error => exact .inl ⟨error, rfl, rfl⟩
  | ok both => exact .inr ⟨both.1, _, rfl, rfl⟩

/-- A queue that is built anew: the tasks that may start, ordered by their new scores. -/
theorem Filed.freshReadyTasks_ok (h : Filed ledger) (built : ledger.buildGraphCache = .ok cache)
    (nowMs : Nat) :
    ∃ ready, ledger.freshReadyTasks nowMs = .ok ready ∧
      (∀ taskId, taskId ∈ ready ↔ taskId ∈ ledger.candidateIds) ∧
      ready.Pairwise (Precedes (ledger.withScores nowMs cache)) := by
  have scores := h.rescored_withScores built nowMs
  have known : ∀ taskId ∈ ledger.candidateIds, taskId ∈ (ledger.withScores nowMs cache).tasks := by
    intro taskId mem
    rw [candidateIds_eq scores.tasks, (scores.filed h).mem_candidateIds] at mem
    obtain ⟨card, found, -⟩ := mem
    exact mem_tasks_iff.mpr (by rw [found]; rfl)
  obtain ⟨perm, sorted⟩ := (scores.filed h).sortByPriority h.nodup_candidateIds known
  refine ⟨_, ?_, fun taskId => perm.mem_iff, sorted⟩
  rw [freshReadyTasks, built]
  rfl

/-- The ready queue is the one of the ledger without its caches: exactly the tasks that may start,
in the order of the priorities that they have at the time. There is none where the dependencies
have no order. -/
theorem run_orderedReadyTasks_transparent (blake3 : Hasher) (deadlineHorizonMs : Nat)
    (ops : List TaskLedgerOp) (nowMs : Nat) :
    let ledger := run (step blake3) (new deadlineHorizonMs) ops
    (ledger.orderedReadyTasks nowMs).1 = (ledger.withoutCaches.orderedReadyTasks nowMs).1 ∧
      (∀ error, ledger.topologicalOrder = .error error →
        (ledger.orderedReadyTasks nowMs).1 = .error error) ∧
      ∀ order, ledger.topologicalOrder = .ok order →
        ∃ ready, (ledger.orderedReadyTasks nowMs).1 = .ok ready ∧
          (∀ taskId, taskId ∈ ready ↔ ∃ card, ledger.task taskId = some card ∧
            (card.status = .pending ∨ card.status = .ready) ∧
            ∀ dependencyId ∈ card.dependencyIds, ∃ dependency,
              ledger.task dependencyId = some dependency ∧ dependency.status = .done) ∧
          ready.Pairwise (Precedes (ledger.withoutCaches.recomputePriorities nowMs).2) := by
  intro ledger
  have h : Coherent ledger := run_coherent blake3 deadlineHorizonMs ops
  have cleared := h.withoutCaches
  have same : Rescored ledger ledger.withoutCaches := ⟨fun _ => rfl, rfl, rfl⟩
  have queue : (ledger.orderedReadyTasks nowMs).1 =
      (ledger.withoutCaches.orderedReadyTasks nowMs).1 := by
    rw [(h.orderedReadyTasks nowMs).1, (cleared.orderedReadyTasks nowMs).1,
      same.freshReadyTasks_eq h.filed]
  refine ⟨queue, ?_⟩
  rw [queue, (cleared.orderedReadyTasks nowMs).1, cleared.recomputePriorities_eq]
  obtain ⟨error, unordered, unbuilt⟩ | ⟨order, cache, ordered, built⟩ :=
    ledger.withoutCaches.buildGraphCache_cases
  · rw [freshReadyTasks, unbuilt]
    refine ⟨fun other failed => ?_, fun order ordered => ?_⟩
    · exact congrArg _ (Except.error.inj (unordered.symm.trans failed))
    · cases unordered.symm.trans ordered
  · rw [built]
    obtain ⟨ready, fresh, members, sorted⟩ := cleared.filed.freshReadyTasks_ok built nowMs
    refine ⟨fun other failed => ?_, fun _ _ => ⟨ready, fresh, fun taskId => ?_, sorted⟩⟩
    · cases ordered.symm.trans failed
    · rw [members]
      exact cleared.filed.mem_candidateIds

end TaskLedger

end Aegis.Task
