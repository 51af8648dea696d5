import AegisCognition.Task.Transparency

/-!
# Checking the proof of a selection

A proof is checked by making it anew for the time that it names. That gives the same proof as long
as the ready queue of a time is served with the scores of that time. The queue is kept by its time,
but the scores are those of the last computation: one at another time, while a queue is kept, has
to leave them as they are.
-/

namespace Aegis.Task

open Std Foundation Replay

variable {blake3 : Hasher} {ledger next : TaskLedger} {cache : TaskGraphCache} {nowMs : Nat}

namespace TaskLedger

/-- Whether a proof is the one that would be made. -/
def validatesTaskSelectionProof (blake3 : Hasher) (ledger : TaskLedger)
    (proof : TaskSelectionProof) : Except TaskLedgerError Bool × TaskLedger :=
  if proof.hasValidFields blake3 then
    let (rebuilt, ledger) := ledger.selectNextTaskProof blake3 proof.nowMs
    (rebuilt.map (decide <| · = some proof), ledger)
  else (.ok false, ledger)

end TaskLedger

/-- One call on the ledger, or the check of a proof. -/
inductive TaskLedgerCall where
  | op (op : TaskLedgerOp)
  | validatesTaskSelectionProof (proof : TaskSelectionProof)

/-- A call that files no task and moves none to another status. -/
def TaskLedgerCall.isReading : TaskLedgerCall → Bool
  | .op (.recomputePriorities _) => true
  | .op (.orderedReadyTasks _) => true
  | .op (.selectNextTask _) => true
  | .op (.selectNextTaskProof _) => true
  | .op _ => false
  | .validatesTaskSelectionProof _ => true

namespace TaskLedger

def call (blake3 : Hasher) (ledger : TaskLedger) : TaskLedgerCall → TaskLedger
  | .op op => ledger.step blake3 op
  | .validatesTaskSelectionProof proof => (ledger.validatesTaskSelectionProof blake3 proof).2

/-- A ready queue of the current epoch is kept. -/
def KeepsQueue (ledger : TaskLedger) : Prop :=
  ∃ queue, ledger.readyCache = some queue ∧ queue.stateEpoch = ledger.stateEpoch

/-- Every card has the score that it would get at a time. -/
def ScoredAt (ledger : TaskLedger) (nowMs : Nat) : Prop :=
  ∀ taskId card, ledger.task taskId = some card →
    card.applyPriorityScore card.criticalPathLen card.blockedDescendantCount nowMs
      ledger.deadlineHorizonMs = card

instance (ledger : TaskLedger) : Decidable ledger.KeepsQueue :=
  decidable_of_iff (ledger.readyCache.any (·.stateEpoch = ledger.stateEpoch) = true)
    (by simp [KeepsQueue, Option.any_eq_true])

instance (ledger : TaskLedger) (nowMs : Nat) : Decidable (ledger.ScoredAt nowMs) :=
  decidable_of_iff (∀ entry ∈ ledger.tasks.toList,
      entry.2.applyPriorityScore entry.2.criticalPathLen entry.2.blockedDescendantCount nowMs
        ledger.deadlineHorizonMs = entry.2)
    (by simp [ScoredAt, task, ExtTreeMap.mem_toList_iff_getElem?_eq_some])

/-- While a ready queue is kept, the priorities are computed only at times that leave the scores
as they are. -/
def LeavesScores (ledger : TaskLedger) : TaskLedgerCall → Prop
  | .op (.recomputePriorities nowMs) => ledger.KeepsQueue → ledger.ScoredAt nowMs
  | _ => True

instance (ledger : TaskLedger) : DecidablePred ledger.LeavesScores
  | .op (.recomputePriorities _) => inferInstanceAs (Decidable (_ → _))
  | .op (.insertTask _) | .op (.markStatus ..) | .op (.transitionStatus ..)
  | .op (.completeTask _) | .op (.scheduleRetryWait ..) | .op (.startRetryAttempt ..)
  | .op (.orderedReadyTasks _) | .op (.selectNextTask _) | .op (.selectNextTaskProof _)
  | .validatesTaskSelectionProof _ => inferInstanceAs (Decidable True)

/-! ### Queues and scores of one time -/

/-- The caches are current, and a queue that is kept is served with the scores of its time. -/
structure Served (ledger : TaskLedger) : Prop where
  coherent : Coherent ledger
  scored : ∀ queue, ledger.readyCache = some queue → queue.stateEpoch = ledger.stateEpoch →
    ∃ cache, ledger.buildGraphCache = .ok cache ∧
      ledger.tasks = ledger.scoredTasks queue.nowMs cache

/-- The same ledger but for scores and caches. -/
structure Reread (ledger next : TaskLedger) : Prop extends Rescored ledger next where
  retryPolicy : ledger.retryPolicy = next.retryPolicy
  nextInsertionOrder : ledger.nextInsertionOrder = next.nextInsertionOrder

theorem Reread.refl (ledger : TaskLedger) : Reread ledger ledger :=
  ⟨.refl ledger, rfl, rfl⟩

theorem Reread.trans {third : TaskLedger} (h : Reread ledger next) (h' : Reread next third) :
    Reread ledger third :=
  ⟨h.toRescored.trans h'.toRescored, h.retryPolicy.trans h'.retryPolicy,
    h.nextInsertionOrder.trans h'.nextInsertionOrder⟩

theorem Served.of_cleared (h : Coherent next) (cleared : next.readyCache = none) : Served next := by
  refine ⟨h, ?_⟩
  rw [cleared]
  nofun

/-- Cards that are scored by the metrics of the graph keep their scores at a time exactly if
scoring them at it changes nothing. -/
theorem Filed.scoredTasks_of_scoredAt {earlierMs : Nat} (h : Filed ledger)
    (built : ledger.buildGraphCache = .ok cache)
    (scored : ledger.tasks = ledger.scoredTasks earlierMs cache) (same : ledger.ScoredAt nowMs) :
    ledger.scoredTasks nowMs cache = ledger.tasks := by
  apply ExtTreeMap.ext_getElem?
  intro taskId
  rw [scoredTasks, h.getElem?_applyPriorityScores built]
  cases found : ledger.tasks[taskId]? with
  | none => rfl
  | some card =>
      have metrics := found
      rw [scored, scoredTasks, h.getElem?_applyPriorityScores built] at metrics
      obtain ⟨old, -, rfl⟩ := Option.map_eq_some_iff.mp metrics
      exact congrArg some (same taskId _ found)

theorem Served.recomputePriorities (h : Served ledger)
    (leaves : ledger.KeepsQueue → ledger.ScoredAt nowMs) :
    Served (ledger.recomputePriorities nowMs).2 := by
  have coherent := h.coherent.recomputePriorities nowMs
  rw [h.coherent.recomputePriorities_eq] at coherent ⊢
  cases built : ledger.buildGraphCache with
  | error error => exact h
  | ok cache =>
      rw [built] at coherent
      refine ⟨coherent, fun queue kept current => ?_⟩
      have rescored := h.coherent.filed.rescored_withScores built nowMs
      obtain ⟨_, built', scored⟩ := h.scored queue kept current
      obtain rfl := Except.ok.inj (built.symm.trans built')
      have same := h.coherent.filed.scoredTasks_of_scoredAt built scored
        (leaves ⟨queue, kept, current⟩)
      refine ⟨cache, ?_, ?_⟩
      · rw [← buildGraphCache_eq rescored.tasks.links, built]
      · show ledger.scoredTasks nowMs cache = _
        rw [← rescored.scoredTasks_eq h.coherent.filed built, same, ← scored]

/-- Reading the ready queue of a time: the queue of that time is kept already, or there is no
graph, or the cards are scored and the queue is kept. -/
theorem Coherent.orderedReadyTasks_cases (h : Coherent ledger) (nowMs : Nat) :
    (ledger.orderedReadyTasks nowMs).2 = ledger ∧
        ((∃ queue, ledger.readyCache = some queue ∧ queue.nowMs = nowMs ∧
          queue.stateEpoch = ledger.stateEpoch) ∨
          ∃ error, ledger.buildGraphCache = .error error) ∨
      ∃ cache taskIds, ledger.buildGraphCache = .ok cache ∧
        (ledger.orderedReadyTasks nowMs).2.tasks = ledger.scoredTasks nowMs cache ∧
        (ledger.orderedReadyTasks nowMs).2.readyCache =
          some ⟨nowMs, ledger.stateEpoch, taskIds⟩ := by
  rw [TaskLedger.orderedReadyTasks]
  split
  · rename_i queue cached
    obtain ⟨kept, current⟩ := Option.filter_eq_some_iff.mp cached
    obtain ⟨time, epoch⟩ : queue.nowMs = nowMs ∧ queue.stateEpoch = ledger.stateEpoch :=
      of_decide_eq_true current
    exact .inl ⟨rfl, .inl ⟨queue, kept, time, epoch⟩⟩
  · rw [h.recomputePriorities_eq]
    cases built : ledger.buildGraphCache with
    | error error => exact .inl ⟨rfl, .inr ⟨error, rfl⟩⟩
    | ok cache =>
        obtain ⟨-, -, tasks, same⟩ := (h.withScores built nowMs).readyCandidateIds
        have epoch : (ledger.withScores nowMs cache).readyCandidateIds.2.stateEpoch =
            ledger.stateEpoch := same.stateEpoch.symm
        refine .inr ⟨cache, sortByPriority
          (ledger.withScores nowMs cache).readyCandidateIds.2.tasks
          (ledger.withScores nowMs cache).readyCandidateIds.1, rfl, tasks, ?_⟩
        rw [← epoch]

/-- Reading the ready queue leaves the cards with the scores of its time. -/
theorem Served.tasks_orderedReadyTasks (h : Served ledger)
    (built : ledger.buildGraphCache = .ok cache) (nowMs : Nat) :
    (ledger.orderedReadyTasks nowMs).2.tasks = ledger.scoredTasks nowMs cache := by
  obtain ⟨same, ⟨queue, kept, rfl, current⟩ | ⟨error, failed⟩⟩ | ⟨_, taskIds, built', scored, -⟩ :=
    h.coherent.orderedReadyTasks_cases nowMs
  · obtain ⟨_, built', scored⟩ := h.scored queue kept current
    obtain rfl := Except.ok.inj (built.symm.trans built')
    rwa [same]
  · cases built.symm.trans failed
  · obtain rfl := Except.ok.inj (built.symm.trans built')
    exact scored

theorem Served.orderedReadyTasks (h : Served ledger) (nowMs : Nat) :
    Served (ledger.orderedReadyTasks nowMs).2 := by
  have rescored := h.coherent.rescored_orderedReadyTasks nowMs
  obtain ⟨same, -⟩ | ⟨cache, taskIds, built, scored, kept⟩ :=
    h.coherent.orderedReadyTasks_cases nowMs
  · rwa [same]
  · refine ⟨(h.coherent.orderedReadyTasks nowMs).2, fun queue found _ => ⟨cache, ?_, ?_⟩⟩
    · rw [← buildGraphCache_eq rescored.tasks.links, built]
    · obtain rfl := Option.some.inj (kept.symm.trans found)
      rw [scored, rescored.scoredTasks_eq h.coherent.filed built]

/-! ### Calls -/

/-- A call that changes anything but scores drops the queue. -/
theorem Relabels.readyCache (moved : Relabels ledger next) :
    next.readyCache = none ∨ next = ledger := by
  obtain same | ⟨taskId, old, card, -, -, rfl⟩ := moved
  · exact .inr same
  · exact .inl rfl

theorem readyCache_completeLoop (ledger : TaskLedger) (fuel taskId : Nat) :
    (completeLoop fuel ledger taskId).2.readyCache = none ∨
      (completeLoop fuel ledger taskId).2 = ledger := by
  have keep (next : TaskLedger) (taskId : Nat) (status : TaskStatus)
      (kept : next.readyCache = none ∨ next = ledger) :
      (next.transitionStatus taskId status).2.readyCache = none ∨
        (next.transitionStatus taskId status).2 = ledger := by
    obtain cleared | same := (relabels_transitionStatus next taskId status).readyCache
    · exact .inl cleared
    · rwa [same]
  exact completeLoop_invariant keep fuel taskId (.inr rfl)

theorem readyCache_insertTask (ledger : TaskLedger) (task : TaskCard) :
    (ledger.insertTask task).2.readyCache = none ∨ (ledger.insertTask task).2 = ledger := by
  rw [insertTask]
  split
  · exact .inr rfl
  split
  · exact .inr rfl
  split
  · exact .inr rfl
  · exact .inl rfl

theorem Served.op (h : Served ledger) {op : TaskLedgerOp} (leaves : ledger.LeavesScores (.op op)) :
    Served (ledger.step blake3 op) := by
  have coherent := h.coherent.step blake3 op
  have changed (moved : (ledger.step blake3 op).readyCache = none ∨
      ledger.step blake3 op = ledger) : Served (ledger.step blake3 op) := by
    obtain cleared | same := moved
    · exact .of_cleared coherent cleared
    · rwa [same]
  cases op with
  | insertTask task => exact changed (readyCache_insertTask ledger task)
  | markStatus taskId status =>
      exact changed (relabels_transitionStatus ledger taskId status).readyCache
  | transitionStatus taskId status =>
      exact changed (relabels_transitionStatus ledger taskId status).readyCache
  | completeTask taskId => exact changed (readyCache_completeLoop ledger 5 taskId)
  | scheduleRetryWait taskId notBeforeMs =>
      exact changed (relabels_scheduleRetryWait ledger taskId notBeforeMs).readyCache
  | startRetryAttempt taskId attemptId nowMs =>
      exact changed (relabels_startRetryAttempt ledger taskId attemptId nowMs).readyCache
  | recomputePriorities nowMs => exact h.recomputePriorities leaves
  | orderedReadyTasks nowMs => exact h.orderedReadyTasks nowMs
  | selectNextTask nowMs => exact h.orderedReadyTasks nowMs
  | selectNextTaskProof nowMs =>
      rw [TaskLedger.step, selectNextTaskProof_ledger]
      exact h.orderedReadyTasks nowMs

/-- Checking a proof leaves the ledger as it is or as reading the queue does. -/
theorem validatesTaskSelectionProof_ledger (blake3 : Hasher) (ledger : TaskLedger)
    (proof : TaskSelectionProof) :
    (ledger.validatesTaskSelectionProof blake3 proof).2 = ledger ∨
      (ledger.validatesTaskSelectionProof blake3 proof).2 =
        (ledger.orderedReadyTasks proof.nowMs).2 := by
  rw [validatesTaskSelectionProof]
  split
  · exact .inr (selectNextTaskProof_ledger blake3 ledger proof.nowMs)
  · exact .inl rfl

theorem Served.after_call (h : Served ledger) {call : TaskLedgerCall}
    (leaves : ledger.LeavesScores call) :
    Served (ledger.call blake3 call) := by
  cases call with
  | op op => exact h.op leaves
  | validatesTaskSelectionProof proof =>
      rw [TaskLedger.call]
      obtain same | read := validatesTaskSelectionProof_ledger blake3 ledger proof
      · rwa [same]
      · rw [read]
        exact h.orderedReadyTasks proof.nowMs

/-! ### Proofs -/

/-- The proof of a selection as it is without caches. -/
def freshSelection (blake3 : Hasher) (ledger : TaskLedger) (nowMs : Nat) :
    Except TaskLedgerError (Option TaskSelectionProof) :=
  match ledger.buildGraphCache with
  | .error error => .error error
  | .ok cache =>
      (ledger.withScores nowMs cache).proveSelection blake3 nowMs
        (sortByPriority (ledger.scoredTasks nowMs cache) ledger.candidateIds)

theorem proveSelection_eq (tasks : ledger.tasks = next.tasks)
    (stateEpoch : ledger.stateEpoch = next.stateEpoch)
    (deadlineHorizonMs : ledger.deadlineHorizonMs = next.deadlineHorizonMs)
    (retryPolicy : ledger.retryPolicy = next.retryPolicy) (nowMs : Nat) (ready : List Nat) :
    ledger.proveSelection blake3 nowMs ready = next.proveSelection blake3 nowMs ready := by
  cases ledger
  cases next
  cases tasks
  cases stateEpoch
  cases deadlineHorizonMs
  cases retryPolicy
  rfl

theorem Reread.freshSelection_eq (h : Reread ledger next) (filed : Filed ledger) :
    ledger.freshSelection blake3 nowMs = next.freshSelection blake3 nowMs := by
  rw [freshSelection, freshSelection, ← buildGraphCache_eq h.tasks.links]
  cases built : ledger.buildGraphCache with
  | error error => rfl
  | ok cache =>
      have scored : (ledger.withScores nowMs cache).tasks = (next.withScores nowMs cache).tasks :=
        h.toRescored.scoredTasks_eq filed built
      show proveSelection blake3 _ nowMs (sortByPriority (ledger.withScores nowMs cache).tasks _) =
        proveSelection blake3 _ nowMs (sortByPriority (next.withScores nowMs cache).tasks _)
      rw [scored, candidateIds_eq h.tasks]
      exact proveSelection_eq scored h.stateEpoch h.deadlineHorizonMs h.retryPolicy nowMs _

theorem Coherent.reread_recomputePriorities (h : Coherent ledger) (nowMs : Nat) :
    Reread ledger (ledger.recomputePriorities nowMs).2 := by
  have rescored := h.rescored_recomputePriorities nowMs
  rw [h.recomputePriorities_eq] at rescored ⊢
  cases built : ledger.buildGraphCache with
  | error error => exact .refl ledger
  | ok cache =>
      rw [built] at rescored
      exact ⟨rescored, rfl, rfl⟩

theorem reread_readyCandidateIds (ledger : TaskLedger) :
    Reread ledger ledger.readyCandidateIds.2 := by
  rw [TaskLedger.readyCandidateIds]
  split
  · exact .refl ledger
  · exact ⟨⟨fun _ => rfl, rfl, rfl⟩, rfl, rfl⟩

theorem Coherent.reread_orderedReadyTasks (h : Coherent ledger) (nowMs : Nat) :
    Reread ledger (ledger.orderedReadyTasks nowMs).2 := by
  have recomputed := h.reread_recomputePriorities nowMs
  rw [TaskLedger.orderedReadyTasks]
  split
  · exact .refl ledger
  · split
    · rename_i error next failed
      rwa [failed] at recomputed
    · rename_i next computed
      rw [computed] at recomputed
      have all := recomputed.trans (reread_readyCandidateIds next)
      exact ⟨⟨all.tasks, all.stateEpoch, all.deadlineHorizonMs⟩, all.retryPolicy,
        all.nextInsertionOrder⟩

/-- The proof of a selection is the one that is made without caches. -/
theorem Served.selectNextTaskProof (h : Served ledger) (nowMs : Nat) :
    (ledger.selectNextTaskProof blake3 nowMs).1 = ledger.freshSelection blake3 nowMs := by
  have read := (h.coherent.orderedReadyTasks nowMs).1
  have reread := h.coherent.reread_orderedReadyTasks nowMs
  rw [TaskLedger.selectNextTaskProof, freshSelection]
  cases built : ledger.buildGraphCache with
  | error error =>
      rw [freshReadyTasks, built] at read
      split
      · rename_i other next failed
        rw [failed] at read
        exact congrArg Except.error (Except.error.inj read)
      · rename_i ready next listed
        rw [listed] at read
        cases read
  | ok cache =>
      have scored := h.tasks_orderedReadyTasks built nowMs
      rw [freshReadyTasks, built] at read
      split
      · rename_i other next failed
        rw [failed] at read
        cases read
      · rename_i ready next listed
        rw [listed] at read scored reread
        cases read
        have same : next.tasks = (ledger.withScores nowMs cache).tasks := scored
        exact proveSelection_eq same reread.stateEpoch.symm reread.deadlineHorizonMs.symm
          reread.retryPolicy.symm nowMs _

variable {proof : TaskSelectionProof}

theorem proveSelection_ok {ready : List Nat}
    (made : ledger.proveSelection blake3 nowMs ready = .ok (some proof)) :
    proof.nowMs = nowMs ∧ proof.hasValidFields blake3 = true := by
  rw [proveSelection] at made
  split at made
  · cases made
  · split at made
    · cases made
    · obtain ⟨stateHash, -, made⟩ := bind_eq_ok_iff.mp made
      obtain ⟨queueHash, -, made⟩ := bind_eq_ok_iff.mp made
      dsimp only at made
      split at made
      · rename_i valid
        obtain rfl := Option.some.inj (Except.ok.inj made)
        exact ⟨rfl, valid⟩
      · cases made

theorem freshSelection_ok
    (made : ledger.freshSelection blake3 nowMs = .ok (some proof)) :
    proof.nowMs = nowMs ∧ proof.hasValidFields blake3 = true := by
  rw [freshSelection] at made
  split at made
  · cases made
  · exact proveSelection_ok made

/-- A reading call changes nothing but scores and caches. -/
theorem Coherent.reread (h : Coherent ledger) {call : TaskLedgerCall}
    (reading : call.isReading = true) : Reread ledger (ledger.call blake3 call) := by
  cases call with
  | op op =>
      cases op with
      | recomputePriorities nowMs => exact h.reread_recomputePriorities nowMs
      | orderedReadyTasks nowMs => exact h.reread_orderedReadyTasks nowMs
      | selectNextTask nowMs => exact h.reread_orderedReadyTasks nowMs
      | selectNextTaskProof nowMs =>
          rw [TaskLedger.call, TaskLedger.step, selectNextTaskProof_ledger]
          exact h.reread_orderedReadyTasks nowMs
      | _ => cases reading
  | validatesTaskSelectionProof proof =>
      rw [TaskLedger.call]
      obtain same | read := validatesTaskSelectionProof_ledger blake3 ledger proof
      · rw [same]
        exact .refl ledger
      · rw [read]
        exact h.reread_orderedReadyTasks proof.nowMs

theorem Served.validatesTaskSelectionProof (h : Served ledger)
    (made : ledger.freshSelection blake3 nowMs = .ok (some proof)) :
    (ledger.validatesTaskSelectionProof blake3 proof).1 = .ok true := by
  obtain ⟨rfl, valid⟩ := freshSelection_ok made
  rw [TaskLedger.validatesTaskSelectionProof, if_pos valid]
  show Except.map _ (ledger.selectNextTaskProof blake3 proof.nowMs).1 = _
  rw [h.selectNextTaskProof, made]
  exact congrArg Except.ok (decide_eq_true rfl)

/-! ### Runs -/

theorem Served.run_reading {readings : List TaskLedgerCall} (h : Served ledger)
    (reading : ∀ call ∈ readings, call.isReading = true)
    (leaves : Along (call blake3) LeavesScores ledger readings) :
    Served (run (call blake3) ledger readings) ∧
      Reread ledger (run (call blake3) ledger readings) := by
  induction readings generalizing ledger with
  | nil => exact ⟨h, .refl ledger⟩
  | cons first readings ih =>
      obtain ⟨head, rest⟩ := List.forall_mem_cons.mp reading
      obtain ⟨served, reread⟩ := ih (h.after_call leaves.1) rest leaves.2
      exact ⟨served, (h.coherent.reread head).trans reread⟩

theorem served_new (deadlineHorizonMs : Nat) : Served (new deadlineHorizonMs) :=
  .of_cleared (coherent_new deadlineHorizonMs) rfl

/-- A proof stays valid while the ledger is only read, as long as no computation of the priorities
changes the scores behind a queue that is kept. -/
theorem run_validatesTaskSelectionProof (blake3 : Hasher) (deadlineHorizonMs : Nat)
    (calls : List TaskLedgerCall) (nowMs : Nat) (proof : TaskSelectionProof)
    (readings : List TaskLedgerCall) :
    let ledger := run (call blake3) (new deadlineHorizonMs) calls
    let next := run (call blake3) (ledger.selectNextTaskProof blake3 nowMs).2 readings
    Along (call blake3) LeavesScores (new deadlineHorizonMs)
        (calls ++ .op (.selectNextTaskProof nowMs) :: readings) →
      (∀ call ∈ readings, call.isReading = true) →
      (ledger.selectNextTaskProof blake3 nowMs).1 = .ok (some proof) →
      (next.validatesTaskSelectionProof blake3 proof).1 = .ok true := by
  intro ledger next leaves reading made
  obtain ⟨before, -, behind⟩ := along_append.mp leaves
  have served : Served ledger :=
    run_invariant_along (fun _ _ kept leaves => kept.after_call leaves) before
      (served_new deadlineHorizonMs)
  have proved : Served (ledger.selectNextTaskProof blake3 nowMs).2 := by
    rw [selectNextTaskProof_ledger]
    exact served.orderedReadyTasks nowMs
  have same : Reread ledger (ledger.selectNextTaskProof blake3 nowMs).2 := by
    rw [selectNextTaskProof_ledger]
    exact served.coherent.reread_orderedReadyTasks nowMs
  obtain ⟨after, reread⟩ := proved.run_reading reading behind
  have remade : next.freshSelection blake3 nowMs = .ok (some proof) := by
    rw [← (same.trans reread).freshSelection_eq served.coherent.filed, ← served.selectNextTaskProof]
    exact made
  exact after.validatesTaskSelectionProof remade

/-- A ledger of one task whose deadline draws near. -/
def deadlineLedger (blake3 : Hasher) : TaskLedger :=
  run (call blake3) (new 10) [.op (.insertTask (.new 1 [] 0 (some 10) none))]

/-- A hash function that tells short inputs apart. -/
def polynomialHasher : Hasher := fun input =>
  .ofNat (input.foldl (fun value byte => 257 * value + byte.toNat + 1) 1)

theorem exists_proof_of_any {answer : Except TaskLedgerError (Option TaskSelectionProof)}
    {holds : TaskSelectionProof → Bool} (h : answer.toOption.join.any holds = true) :
    ∃ proof, answer = .ok (some proof) ∧ holds proof = true := by
  match answer with
  | .ok (some proof) => exact ⟨proof, rfl, h⟩
  | .ok none => cases h
  | .error _ => cases h

theorem deadline_proof_validates :
    ∃ proof, ((deadlineLedger polynomialHasher).selectNextTaskProof polynomialHasher 0).1 =
        .ok (some proof) ∧
      ((run (call polynomialHasher)
        ((deadlineLedger polynomialHasher).selectNextTaskProof polynomialHasher 0).2
        [.op (.recomputePriorities 0), .op (.orderedReadyTasks 5), .op (.recomputePriorities 5),
          .op (.selectNextTask 7)]).validatesTaskSelectionProof polynomialHasher proof).1 =
            .ok true := by
  obtain ⟨proof, made, -⟩ : ∃ proof,
      ((deadlineLedger polynomialHasher).selectNextTaskProof polynomialHasher 0).1 =
        .ok (some proof) ∧ true = true := exists_proof_of_any (by decide +kernel)
  exact ⟨proof, made, run_validatesTaskSelectionProof polynomialHasher 10
    [.op (.insertTask (.new 1 [] 0 (some 10) none))] 0 proof _ (by decide +kernel)
    (by decide) made⟩

/-- The scores move on behind the queue that is kept, and the proof of its time is refused. -/
theorem recomputed_scores_refuse_proof :
    ∃ proof, ((deadlineLedger polynomialHasher).selectNextTaskProof polynomialHasher 0).1 =
        .ok (some proof) ∧
      ((run (call polynomialHasher)
        ((deadlineLedger polynomialHasher).selectNextTaskProof polynomialHasher 0).2
        [.op (.recomputePriorities 5)]).validatesTaskSelectionProof polynomialHasher proof).1 =
          .ok false := by
  obtain ⟨proof, made, refused⟩ : ∃ proof,
      ((deadlineLedger polynomialHasher).selectNextTaskProof polynomialHasher 0).1 =
        .ok (some proof) ∧
      decide (((run (call polynomialHasher)
        ((deadlineLedger polynomialHasher).selectNextTaskProof polynomialHasher 0).2
        [.op (.recomputePriorities 5)]).validatesTaskSelectionProof polynomialHasher proof).1 =
          .ok false) = true := exists_proof_of_any (by decide +kernel)
  exact ⟨proof, made, of_decide_eq_true refused⟩

end TaskLedger

end Aegis.Task
