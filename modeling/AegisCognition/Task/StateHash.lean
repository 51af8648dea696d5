import AegisCognition.Replay.TamperEvidence
import AegisCognition.Task.Metrics
import AegisCognition.Task.SelectionProof

/-!
# What the hash of a ledger binds

The hash of a ledger is taken of its own fields and of the hash of every card, the hash of a card of
its fields and of the hash of its dependencies. Each of the three messages determines what it was
written from. So ledgers with the same hash are the same but for their caches, unless two of the
messages that are hashed for them collide.
-/

namespace Aegis.Task

open Std Foundation Replay List

variable {blake3 : Hasher} {ledger first second : TaskLedger} {hash : Hash}

/-! ### Fields -/

theorem delimits_u32Le : Delimits (· ≤ u32Max) u32Le :=
  (delimits_leBytes 4).mono fun _ inside => Nat.lt_of_le_of_lt inside (by decide)

theorem delimits_u64Le : Delimits (· ≤ u64Max) u64Le :=
  (delimits_leBytes 8).mono fun _ inside => Nat.lt_of_le_of_lt inside (by decide)

theorem delimits_u128Le : Delimits (· ≤ u128Max) u128Le :=
  (delimits_leBytes 16).mono fun _ inside => Nat.lt_of_le_of_lt inside (by decide)

theorem delimits_optionalU64 :
    Delimits (fun value => ∀ inner ∈ value, inner ≤ u64Max) optionalU64 :=
  .option (by decide : (0 : UInt8) ≠ 1) delimits_u64Le rfl fun _ => rfl

/-- The numbers of 64 bits with a sign. -/
def IsI64 (value : Int) : Prop :=
  -2 ^ 63 ≤ value ∧ value < 2 ^ 63

theorem delimits_i64 : Delimits IsI64 fun value => u64Le (BitVec.ofInt 64 value).toNat := by
  apply Delimits.of_length fun _ => length_leBytes 8 _
  intro first second hf hs same
  have inside (value : Int) : (BitVec.ofInt 64 value).toNat ≤ u64Max :=
    Nat.le_of_lt_succ (BitVec.ofInt 64 value).isLt
  have words := BitVec.eq_of_toNat_eq (delimits_u64Le.inj (inside first) (inside second) same)
  have back (value : Int) (bounds : IsI64 value) : (BitVec.ofInt 64 value).toInt = value := by
    obtain ⟨low, high⟩ := bounds
    rw [BitVec.toInt_ofInt, Int.bmod_def]
    omega
  rw [← back first hf, words, back second hs]

theorem delimits_optionalI64 : Delimits (fun value => ∀ inner ∈ value, IsI64 inner) optionalI64 :=
  .option (by decide : (0 : UInt8) ≠ 1) delimits_i64 rfl fun _ => rfl

theorem delimits_retryNotBefore :
    Delimits (fun value : Option ℕ+ => ∀ inner ∈ value.map PNat.val, inner ≤ u64Max)
      fun value => optionalU64 (value.map PNat.val) :=
  delimits_optionalU64.comap (Option.map_injective PNat.coe_injective)

theorem delimits_status : Delimits (fun _ => True) fun status : TaskStatus => [status.code] := by
  refine .of_length (fun _ => length_singleton) ?_
  intro first second _ _ same
  cases first <;> cases second <;> first | rfl | cases same

/-! ### Values of the machine -/

/-- The fields of a card are values of their machine types. -/
structure TaskCard.Typed (card : TaskCard) : Prop where
  taskId : card.taskId ≤ u128Max
  attemptId : card.attemptId ≤ u64Max
  dependencyIds : ∀ dependencyId ∈ card.dependencyIds, dependencyId ≤ u128Max
  deterministicPriorityScore : card.deterministicPriorityScore ≤ u64Max
  suggestedPriority : ∀ priority ∈ card.suggestedPriority, IsI64 priority
  criticalPathLen : card.criticalPathLen ≤ u32Max
  blockedDescendantCount : card.blockedDescendantCount ≤ u32Max
  evidenceUnblockCount : card.evidenceUnblockCount ≤ u32Max
  hardDeadlineMs : ∀ deadlineMs ∈ card.hardDeadlineMs, deadlineMs ≤ u64Max
  retryNotBeforeMs : ∀ notBeforeMs ∈ card.retryNotBeforeMs.map PNat.val, notBeforeMs ≤ u64Max
  insertionOrder : card.insertionOrder ≤ u64Max

/-- The fields of a retry policy are values of their machine types. -/
structure RetryPolicy.Typed (policy : RetryPolicy) : Prop where
  maxTotalAttempts : policy.maxTotalAttempts ≤ u8Max
  initialBackoffMs : policy.initialBackoffMs ≤ 2 ^ 16 - 1
  maxBackoffMs : policy.maxBackoffMs ≤ 2 ^ 16 - 1

/-- What a ledger holds are values of their machine types. -/
structure TaskLedger.Typed (ledger : TaskLedger) : Prop where
  stateEpoch : ledger.stateEpoch ≤ u64Max
  deadlineHorizonMs : ledger.deadlineHorizonMs ≤ u64Max
  nextInsertionOrder : ledger.nextInsertionOrder ≤ u64Max
  retryPolicy : ledger.retryPolicy.Typed
  tasks : ∀ taskId card, ledger.task taskId = some card → taskId ≤ u128Max ∧ card.Typed

/-! ### Messages determine what they are written from -/

/-- The dependencies run to the end of the message, so that their number is not needed. -/
theorem taskDependencyMessage_inj {first second : List Nat} (hf : ∀ id ∈ first, id ≤ u128Max)
    (hs : ∀ id ∈ second, id ≤ u128Max)
    (same : taskDependencyMessage first = taskDependencyMessage second) : first = second := by
  rw [taskDependencyMessage, taskDependencyMessage] at same
  obtain ⟨-, same⟩ := append_inj same (by simp [u64Le])
  apply delimits_u128Le.flatMap_inj _ hf hs same
  intro id empty
  have length := length_leBytes 16 id
  rw [show leBytes 16 id = [] from empty] at length
  cases length

/-- Two cards with the same message agree in all fields but the dependencies, and in the hash of
these. -/
theorem taskCardStateMessage_inj {first second : TaskCard} (hf : first.Typed) (hs : second.Typed)
    (same : taskCardStateMessage blake3 first = taskCardStateMessage blake3 second) :
    taskDependencyHash blake3 first.dependencyIds = taskDependencyHash blake3 second.dependencyIds ∧
      { first with dependencyIds := [] } = { second with dependencyIds := [] } := by
  rw [taskCardStateMessage, taskCardStateMessage] at same
  simp only [append_assoc] at same
  have same := append_cancel_left same
  obtain ⟨taskId, same⟩ := delimits_u128Le hf.taskId hs.taskId same
  obtain ⟨attemptId, same⟩ := delimits_u64Le hf.attemptId hs.attemptId same
  obtain ⟨status, same⟩ := delimits_status trivial trivial same
  obtain ⟨dependencies, same⟩ := delimits_hash trivial trivial same
  obtain ⟨score, same⟩ :=
    delimits_u64Le hf.deterministicPriorityScore hs.deterministicPriorityScore same
  obtain ⟨priority, same⟩ := delimits_optionalI64 hf.suggestedPriority hs.suggestedPriority same
  obtain ⟨path, same⟩ := delimits_u32Le hf.criticalPathLen hs.criticalPathLen same
  obtain ⟨blocked, same⟩ :=
    delimits_u32Le hf.blockedDescendantCount hs.blockedDescendantCount same
  obtain ⟨unblocked, same⟩ := delimits_u32Le hf.evidenceUnblockCount hs.evidenceUnblockCount same
  obtain ⟨deadline, same⟩ := delimits_optionalU64 hf.hardDeadlineMs hs.hardDeadlineMs same
  obtain ⟨notBefore, same⟩ :=
    delimits_retryNotBefore hf.retryNotBeforeMs hs.retryNotBeforeMs same
  have order := delimits_u64Le.inj hf.insertionOrder hs.insertionOrder same
  refine ⟨dependencies, ?_⟩
  cases first
  cases second
  congr

/-- The entry of a task determines the task, unless messages that are hashed for it collide. -/
theorem delimits_taskEntry {messages : Set (List UInt8)} (apart : Set.InjOn blake3 messages) :
    Delimits (fun entry => entry.1 ≤ u128Max ∧ entry.2.Typed ∧
        taskCardStateMessage blake3 entry.2 ∈ messages ∧
        taskDependencyMessage entry.2.dependencyIds ∈ messages) (taskEntryBytes blake3) := by
  rintro ⟨taskId, card⟩ ⟨otherId, other⟩ rest rest' ⟨id, typed, mem, depends⟩
    ⟨id', typed', mem', depends'⟩ same
  have front : (taskId, taskCardStateHash blake3 card) = (otherId, taskCardStateHash blake3 other) ∧
      rest = rest' := delimits_u128Le.pair delimits_hash ⟨id, trivial⟩ ⟨id', trivial⟩ same
  obtain ⟨both, back⟩ := front
  obtain ⟨rfl, hash⟩ := Prod.mk.inj both
  have message := apart mem mem' hash
  obtain ⟨dependencies, fields⟩ := taskCardStateMessage_inj typed typed' message
  have ids := taskDependencyMessage_inj typed.dependencyIds typed'.dependencyIds
    (apart depends depends' dependencies)
  refine ⟨?_, back⟩
  cases card
  cases other
  cases ids
  simp only [TaskCard.mk.injEq] at fields
  simp [fields]

theorem taskEntryBytes_ne_nil (blake3 : Hasher) (entry : Nat × TaskCard) :
    taskEntryBytes blake3 entry ≠ [] := by
  intro empty
  have length := congrArg List.length empty
  rw [taskEntryBytes, length_append, Hash.length_eq, length_nil] at length
  omega

namespace TaskLedger

/-- The messages that are hashed for the hash of a ledger. -/
def stateMessages (blake3 : Hasher) (ledger : TaskLedger) : List (List UInt8) :=
  taskLedgerStateMessage blake3 ledger.stateEpoch ledger.deadlineHorizonMs ledger.retryPolicy
      ledger.tasks ::
    ledger.tasks.toList.flatMap fun entry =>
      [taskCardStateMessage blake3 entry.2, taskDependencyMessage entry.2.dependencyIds]

/-- Two ledgers with the same message agree in their own fields, and in the entries of their
tasks. -/
theorem taskLedgerStateMessage_inj (hf : first.Typed) (hs : second.Typed)
    (same : taskLedgerStateMessage blake3 first.stateEpoch first.deadlineHorizonMs
        first.retryPolicy first.tasks =
      taskLedgerStateMessage blake3 second.stateEpoch second.deadlineHorizonMs
        second.retryPolicy second.tasks) :
    first.stateEpoch = second.stateEpoch ∧ first.deadlineHorizonMs = second.deadlineHorizonMs ∧
      first.retryPolicy = second.retryPolicy ∧
      first.tasks.toList.flatMap (taskEntryBytes blake3) =
        second.tasks.toList.flatMap (taskEntryBytes blake3) := by
  rw [taskLedgerStateMessage, taskLedgerStateMessage] at same
  simp only [append_assoc] at same
  have same := append_cancel_left same
  obtain ⟨stateEpoch, same⟩ := delimits_u64Le hf.stateEpoch hs.stateEpoch same
  obtain ⟨horizon, same⟩ := delimits_u64Le hf.deadlineHorizonMs hs.deadlineHorizonMs same
  have wide {small : Nat} (number : Nat) (inside : number ≤ small) (le : small ≤ u64Max) :
      number ≤ u64Max := inside.trans le
  obtain ⟨attempts, same⟩ := delimits_u64Le
    (wide _ hf.retryPolicy.maxTotalAttempts (by decide))
    (wide _ hs.retryPolicy.maxTotalAttempts (by decide)) same
  obtain ⟨initial, same⟩ := delimits_u64Le
    (wide _ hf.retryPolicy.initialBackoffMs (by decide))
    (wide _ hs.retryPolicy.initialBackoffMs (by decide)) same
  obtain ⟨longest, same⟩ := delimits_u64Le
    (wide _ hf.retryPolicy.maxBackoffMs (by decide))
    (wide _ hs.retryPolicy.maxBackoffMs (by decide)) same
  obtain ⟨-, same⟩ := append_inj same (by simp [u64Le])
  refine ⟨stateEpoch, horizon, ?_, same⟩
  cases firstPolicy : first.retryPolicy
  cases secondPolicy : second.retryPolicy
  rw [firstPolicy, secondPolicy] at attempts initial longest
  cases attempts
  cases initial
  cases longest
  rfl

theorem Typed.hashed {messages : Set (List UInt8)} (typed : ledger.Typed)
    (hashes : ∀ message ∈ ledger.stateMessages blake3, message ∈ messages) :
    ∀ entry ∈ ledger.tasks.toList, entry.1 ≤ u128Max ∧ entry.2.Typed ∧
      taskCardStateMessage blake3 entry.2 ∈ messages ∧
      taskDependencyMessage entry.2.dependencyIds ∈ messages := by
  intro entry mem
  have found := ExtTreeMap.mem_toList_iff_getElem?_eq_some.mp mem
  obtain ⟨id, card⟩ := typed.tasks entry.1 entry.2 found
  have listed (message : List UInt8)
      (own : message ∈ [taskCardStateMessage blake3 entry.2,
        taskDependencyMessage entry.2.dependencyIds]) : message ∈ messages :=
    hashes message (mem_cons_of_mem _ (mem_flatMap.mpr ⟨entry, mem, own⟩))
  exact ⟨id, card, listed _ mem_cons_self,
    listed _ (mem_cons_of_mem _ mem_cons_self)⟩

end TaskLedger

/-! ### Ledgers of the machine -/

/-- The arguments of a call are values of their machine types. -/
def TaskLedgerCall.Typed : TaskLedgerCall → Prop
  | .op (.insertTask task) => task.Typed
  | .op (.scheduleRetryWait _ notBeforeMs) => notBeforeMs ≤ u64Max
  | .op (.startRetryAttempt _ attemptId _) => attemptId ≤ u64Max
  | _ => True

variable {next : TaskLedger} {card : TaskCard} {taskId nowMs : Nat}

theorem TaskCard.typed_new {dependencyIds : List Nat} {evidenceUnblockCount : Nat}
    {hardDeadlineMs : Option Nat} {suggestedPriority : Option Int} (id : taskId ≤ u128Max)
    (dependencies : ∀ dependencyId ∈ dependencyIds, dependencyId ≤ u128Max)
    (unblocked : evidenceUnblockCount ≤ u32Max)
    (deadline : ∀ deadlineMs ∈ hardDeadlineMs, deadlineMs ≤ u64Max)
    (priority : ∀ priority ∈ suggestedPriority, IsI64 priority) :
    (TaskCard.new taskId dependencyIds evidenceUnblockCount hardDeadlineMs
      suggestedPriority).Typed where
  taskId := id
  attemptId := show 1 ≤ u64Max by decide
  dependencyIds := dependencies
  deterministicPriorityScore := Nat.zero_le _
  suggestedPriority := priority
  criticalPathLen := Nat.zero_le _
  blockedDescendantCount := Nat.zero_le _
  evidenceUnblockCount := unblocked
  hardDeadlineMs := deadline
  retryNotBeforeMs := nofun
  insertionOrder := Nat.zero_le _

theorem TaskCard.Typed.withStatus (h : card.Typed) (status : TaskStatus) :
    (card.withStatus status).Typed := by
  rw [TaskCard.withStatus]
  split
  · exact h
  · refine { h with retryNotBeforeMs := ?_ }
    dsimp only
    split
    · exact h.retryNotBeforeMs
    · intro _ held
      cases held

theorem computePriorityScore_le (path blocked unblocked pressure : Nat) :
    computePriorityScore path blocked unblocked pressure ≤ u64Max := by
  rw [computePriorityScore]
  apply saturatingAdd_le

theorem TaskCard.Typed.scored (h : card.Typed) {path blocked score : Nat} (path_le : path ≤ u32Max)
    (blocked_le : blocked ≤ u32Max) (score_le : score ≤ u64Max) :
    (card.scored path blocked score).Typed :=
  { h with
    deterministicPriorityScore := score_le
    criticalPathLen := path_le
    blockedDescendantCount := blocked_le }

theorem TaskCard.Typed.applyPriorityScore (h : card.Typed) {path blocked : Nat}
    (path_le : path ≤ u32Max) (blocked_le : blocked ≤ u32Max) (nowMs horizonMs : Nat) :
    (card.applyPriorityScore path blocked nowMs horizonMs).Typed := by
  rw [TaskCard.applyPriorityScore]
  exact h.scored path_le blocked_le (computePriorityScore_le ..)

namespace TaskLedger

section

variable (h : ledger.Typed)
include h

theorem Typed.put (id : taskId ≤ u128Max) (typed : card.Typed) :
    (ledger.put taskId card).Typed := by
  refine ⟨saturatingAdd_le, h.deadlineHorizonMs, h.nextInsertionOrder, h.retryPolicy, ?_⟩
  intro other found known
  obtain ⟨rfl, rfl⟩ | ⟨-, old⟩ := OrderedMap.getElem?_insert_eq_some_iff.mp known
  · exact ⟨id, typed⟩
  · exact h.tasks other found old

theorem Typed.insertTask (typed : card.Typed) :
    (ledger.insertTask card).2.Typed := by
  rw [TaskLedger.insertTask]
  split
  · exact h
  split
  · exact h
  split
  · exact h
  have room : Typed { ledger with
      nextInsertionOrder := saturatingAdd u64Max ledger.nextInsertionOrder 1
      graphCache := none } :=
    ⟨h.stateEpoch, h.deadlineHorizonMs, saturatingAdd_le, h.retryPolicy, h.tasks⟩
  refine room.put typed.taskId { typed with
    dependencyIds := ?_
    insertionOrder := h.nextInsertionOrder }
  intro dependencyId mem
  have sorted := (destutter_sublist _ _).mem mem
  exact typed.dependencyIds dependencyId (mem_insertionSort _ |>.mp sorted)

theorem Typed.transitionStatus (taskId : Nat) (status : TaskStatus) :
    (ledger.transitionStatus taskId status).2.Typed := by
  rw [TaskLedger.transitionStatus]
  split
  · exact h
  · rw [setStatus]
    split
    · exact h
    · rename_i found
      obtain ⟨id, typed⟩ := h.tasks taskId _ found
      split
      · exact h
      · exact h.put id (typed.withStatus status)

theorem Typed.completeLoop (fuel taskId : Nat) :
    (completeLoop fuel ledger taskId).2.Typed :=
  completeLoop_invariant (fun _ taskId status kept => kept.transitionStatus taskId status) fuel
    taskId h

theorem Typed.scheduleRetryWait (taskId : Nat) {notBeforeMs : Nat}
    (time : notBeforeMs ≤ u64Max) : (ledger.scheduleRetryWait taskId notBeforeMs).2.Typed := by
  rw [TaskLedger.scheduleRetryWait]
  split
  · split
    · exact h
    · split
      · exact h
      · rename_i found
        obtain ⟨id, typed⟩ := h.tasks taskId _ found
        refine h.put id { typed with retryNotBeforeMs := ?_ }
        rintro _ ⟨⟩
        exact time
  · exact h

theorem Typed.startRetryAttempt (taskId : Nat) {attemptId : Nat} (nowMs : Nat)
    (attempt : attemptId ≤ u64Max) : (ledger.startRetryAttempt taskId attemptId nowMs).2.Typed := by
  rw [TaskLedger.startRetryAttempt]
  split
  · exact h
  · split
    · exact h
    · rename_i found
      obtain ⟨id, typed⟩ := h.tasks taskId _ found
      exact h.put id { typed with
        attemptId := attempt
        retryNotBeforeMs := fun _ held => by cases held }

end

/-- Scores and metrics are values of their machine types. -/
theorem Coherent.typed_scoredTasks (coherent : Coherent ledger) (h : ledger.Typed)
    {cache : TaskGraphCache} (built : ledger.buildGraphCache = .ok cache)
    (found : (ledger.scoredTasks nowMs cache)[taskId]? = some card) :
    taskId ≤ u128Max ∧ card.Typed := by
  rw [scoredTasks, coherent.filed.getElem?_applyPriorityScores built] at found
  obtain ⟨old, known, rfl⟩ := Option.map_eq_some_iff.mp found
  obtain ⟨id, typed⟩ := h.tasks taskId old known
  have mem : taskId ∈ ledger.tasks := mem_tasks_iff.mpr (Option.isSome_iff_exists.mpr ⟨old, known⟩)
  have measured := (coherent.filed.isGraph built).measured mem old nowMs ledger.deadlineHorizonMs
  obtain ⟨longest, -, path⟩ := measured.criticalPath
  exact ⟨id, typed.applyPriorityScore (path.trans_le (Nat.min_le_right _ _))
    (measured.blockedDescendants.trans_le (Nat.min_le_right _ _)) _ _⟩

theorem Typed.of_reread (h : ledger.Typed) (same : Reread ledger next)
    (tasks : ∀ taskId card, next.task taskId = some card → taskId ≤ u128Max ∧ card.Typed) :
    next.Typed :=
  ⟨same.stateEpoch ▸ h.stateEpoch, same.deadlineHorizonMs ▸ h.deadlineHorizonMs,
    same.nextInsertionOrder ▸ h.nextInsertionOrder, same.retryPolicy ▸ h.retryPolicy, tasks⟩

theorem Coherent.typed_recomputePriorities (coherent : Coherent ledger) (h : ledger.Typed)
    (nowMs : Nat) : (ledger.recomputePriorities nowMs).2.Typed := by
  have same := coherent.reread_recomputePriorities nowMs
  rw [coherent.recomputePriorities_eq] at same ⊢
  cases built : ledger.buildGraphCache with
  | error error => exact h
  | ok cache =>
      rw [built] at same
      exact h.of_reread same fun taskId card found => coherent.typed_scoredTasks h built found

theorem Coherent.typed_orderedReadyTasks (coherent : Coherent ledger) (h : ledger.Typed)
    (nowMs : Nat) : (ledger.orderedReadyTasks nowMs).2.Typed := by
  obtain ⟨same, -⟩ | ⟨cache, taskIds, built, scored, -⟩ := coherent.orderedReadyTasks_cases nowMs
  · rwa [same]
  · apply h.of_reread (coherent.reread_orderedReadyTasks nowMs)
    intro taskId card found
    rw [task, scored] at found
    exact coherent.typed_scoredTasks h built found

theorem Coherent.typed_call (coherent : Coherent ledger) (h : ledger.Typed) {call : TaskLedgerCall}
    (typed : call.Typed) : (ledger.call blake3 call).Typed := by
  cases call with
  | op op =>
      cases op with
      | insertTask task => exact h.insertTask typed
      | markStatus taskId status => exact h.transitionStatus taskId status
      | transitionStatus taskId status => exact h.transitionStatus taskId status
      | completeTask taskId => exact h.completeLoop 5 taskId
      | scheduleRetryWait taskId notBeforeMs => exact h.scheduleRetryWait taskId typed
      | startRetryAttempt taskId attemptId nowMs => exact h.startRetryAttempt taskId nowMs typed
      | recomputePriorities nowMs => exact coherent.typed_recomputePriorities h nowMs
      | orderedReadyTasks nowMs => exact coherent.typed_orderedReadyTasks h nowMs
      | selectNextTask nowMs => exact coherent.typed_orderedReadyTasks h nowMs
      | selectNextTaskProof nowMs =>
          rw [TaskLedger.call, TaskLedger.step, selectNextTaskProof_ledger]
          exact coherent.typed_orderedReadyTasks h nowMs
  | validatesTaskSelectionProof proof =>
      rw [TaskLedger.call]
      obtain same | read := validatesTaskSelectionProof_ledger blake3 ledger proof
      · rwa [same]
      · rw [read]
        exact coherent.typed_orderedReadyTasks h proof.nowMs

theorem Coherent.after_call (coherent : Coherent ledger) (blake3 : Hasher) (call : TaskLedgerCall) :
    Coherent (ledger.call blake3 call) := by
  cases call with
  | op op => exact coherent.step blake3 op
  | validatesTaskSelectionProof proof =>
      rw [TaskLedger.call]
      obtain same | read := validatesTaskSelectionProof_ledger blake3 ledger proof
      · rwa [same]
      · rw [read]
        exact (coherent.orderedReadyTasks proof.nowMs).2

theorem typed_new {deadlineHorizonMs : Nat} (horizon : deadlineHorizonMs ≤ u64Max) :
    Typed (new deadlineHorizonMs) where
  stateEpoch := Nat.zero_le _
  deadlineHorizonMs := horizon
  nextInsertionOrder := show 1 ≤ u64Max by decide
  retryPolicy := show RetryPolicy.standard.Typed from ⟨by decide, by decide, by decide⟩
  tasks := by simp [new, task]

/-- Every ledger that calls with values of the machine reach holds such values. -/
theorem run_typed (blake3 : Hasher) {deadlineHorizonMs : Nat} (horizon : deadlineHorizonMs ≤ u64Max)
    {calls : List TaskLedgerCall} (typed : ∀ call ∈ calls, call.Typed) :
    (run (call blake3) (new deadlineHorizonMs) calls).Typed := by
  have keep (ledger : TaskLedger) (next : TaskLedgerCall) (held : Coherent ledger ∧ ledger.Typed)
      (given : next.Typed) : Coherent (ledger.call blake3 next) ∧ (ledger.call blake3 next).Typed :=
    ⟨held.1.after_call blake3 next, held.1.typed_call held.2 given⟩
  have legal : Along (call blake3) (fun _ call => call.Typed) (new deadlineHorizonMs) calls :=
    along_iff_at_step.mpr fun before next after split => typed next (by simp [split])
  exact (run_invariant_along keep legal ⟨coherent_new deadlineHorizonMs, typed_new horizon⟩).2

/-! ### Ledgers with the same hash -/

/-- The hash of a ledger binds its epoch, its deadline horizon, its retry policy and its tasks with
all their fields: two ledgers with the same hash agree in these, unless messages that are hashed for
them collide. -/
theorem ledgerStateHash_binds (blake3 : Hasher) (first second : TaskLedger) (hash : Hash)
    (typed : first.Typed) (typed' : second.Typed)
    (apart : Set.InjOn blake3
      { message | message ∈ first.stateMessages blake3 ∨ message ∈ second.stateMessages blake3 })
    (hashed : first.ledgerStateHash blake3 = .ok hash)
    (hashed' : second.ledgerStateHash blake3 = .ok hash) :
    first.stateEpoch = second.stateEpoch ∧ first.deadlineHorizonMs = second.deadlineHorizonMs ∧
      first.retryPolicy = second.retryPolicy ∧ first.tasks = second.tasks := by
  obtain ⟨_, -, hashed⟩ := bind_eq_ok_iff.mp hashed
  obtain ⟨_, -, hashed'⟩ := bind_eq_ok_iff.mp hashed'
  have same := (Except.ok.inj hashed).trans (Except.ok.inj hashed').symm
  rw [taskLedgerStateHash, taskLedgerStateHash] at same
  have message := apart (.inl mem_cons_self) (.inr mem_cons_self) same
  obtain ⟨epoch, horizon, policy, entries⟩ := taskLedgerStateMessage_inj typed typed' message
  refine ⟨epoch, horizon, policy, ?_⟩
  have entries := (delimits_taskEntry apart).flatMap_inj (taskEntryBytes_ne_nil blake3)
    (typed.hashed fun _ => .inl) (typed'.hashed fun _ => .inr) entries
  exact ExtTreeMap.toList_inj.mp entries

/-- A ledger of two tasks, the second of which needs the first, after a reading call. -/
def readLedger (reading : TaskLedgerOp) : TaskLedger :=
  run (call polynomialHasher) (new 10)
    [.op (.insertTask (.new 1 [] 0 (some 10) (some (-3)))),
      .op (.insertTask (.new 2 [1] 4 none none)), .op reading]

theorem typed_readLedger {reading : TaskLedgerOp} (typed : (TaskLedgerCall.op reading).Typed) :
    (readLedger reading).Typed := by
  apply run_typed polynomialHasher (by decide)
  have priority : ∀ priority ∈ some (-3 : Int), IsI64 priority := by
    rintro _ ⟨⟩
    exact ⟨by decide, by decide⟩
  intro call mem
  obtain rfl | rfl | rfl : call = _ ∨ call = _ ∨ call = _ := by simpa using mem
  · exact TaskCard.typed_new (by decide) (by decide) (by decide) (by decide) priority
  · exact TaskCard.typed_new (by decide) (by decide) (by decide) nofun nofun
  · exact typed

/-- The priorities are computed, and the ready queue is read: the caches differ, the hash does
not. -/
theorem readLedger_hash_binds :
    ∃ hash,
      (readLedger (.recomputePriorities 5)).ledgerStateHash polynomialHasher = .ok hash ∧
      (readLedger (.orderedReadyTasks 5)).ledgerStateHash polynomialHasher = .ok hash ∧
      (readLedger (.recomputePriorities 5)).tasks = (readLedger (.orderedReadyTasks 5)).tasks := by
  let first := readLedger (.recomputePriorities 5)
  let second := readLedger (.orderedReadyTasks 5)
  let hash := taskLedgerStateHash polynomialHasher first.stateEpoch first.deadlineHorizonMs
    first.retryPolicy first.tasks
  have apart : ∀ message ∈ first.stateMessages polynomialHasher ++
        second.stateMessages polynomialHasher,
      ∀ other ∈ first.stateMessages polynomialHasher ++ second.stateMessages polynomialHasher,
        polynomialHasher message = polynomialHasher other → message = other := by
    decide +kernel
  have hashed : first.ledgerStateHash polynomialHasher = .ok hash := by decide +kernel
  have hashed' : second.ledgerStateHash polynomialHasher = .ok hash := by decide +kernel
  refine ⟨hash, hashed, hashed', ?_⟩
  have bound := ledgerStateHash_binds polynomialHasher first second hash
    (typed_readLedger trivial) (typed_readLedger trivial)
    (fun message mem other mem' => apart message (mem_append.mpr mem) other
      (mem_append.mpr mem')) hashed hashed'
  exact bound.2.2.2

end TaskLedger

end Aegis.Task
