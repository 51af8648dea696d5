import AegisCognition.Conversation.Transition

/-!
# Executions that can still be closed

Finishing an execution moves its turn as well, so it needs a turn that is still open. The
operations that close a turn together with its execution keep that, and so does recovery.
A transition that closes a turn alone does not: it leaves a running execution that no
later call can finish. That is the only way in which an execution gets stuck.
-/

namespace Aegis.Conversation

open Foundation

variable {externals : Externals} {tables after : Tables} {scope : Scope}

/-- Every running execution belongs to a turn that is still open. -/
def Tables.Unstuck (tables : Tables) : Prop :=
  ∀ execution ∈ tables.executions, execution.status = .running →
    ∃ turn ∈ tables.turns, turn.key = execution.turnKey ∧ turn.status.isOpen

/-- The request that closes an execution at the current revision of its conversation. -/
def closingRequest (conversation : ConversationRecord)
    (execution : ConversationExecutionRecord) (status : String) (atMs : Nat) :
    FinishExecution :=
  { conversationId := conversation.conversationId, ownerId := conversation.ownerId
    expectedRevision := conversation.revision, atMs, executionId := execution.executionId
    status }

/-- While its conversation is active and its revision can grow, the execution can be closed
as cancelled and as interrupted at the current revision. -/
def Tables.Closable (externals : Externals) (tables : Tables)
    (execution : ConversationExecutionRecord) : Prop :=
  ∀ conversation ∈ tables.conversations,
    conversation.conversationId = execution.conversationId → conversation.status = .active →
    conversation.revision < i64Max → ∀ atMs, 0 < atMs → atMs ≤ i64Max →
    ∀ text status, (text, status) ∈ [("CANCELLED", .cancelled), ("INTERRUPTED", .interrupted)] →
      ∃ record, (perform externals tables
          (.finishExecution (closingRequest conversation execution text atMs))).reply =
            .ok (.execution record) ∧
        record.executionId = execution.executionId ∧ record.status = status

/-- No running execution is stuck: its turn is open and the execution can be closed. -/
def Tables.NoStuckExecution (externals : Externals) (tables : Tables) : Prop :=
  ∀ execution ∈ tables.executions, execution.status = .running →
    (∃ turn, tables.turn? execution.conversationId execution.turnId = some turn ∧
      turn.status.isOpen) ∧
    tables.Closable externals execution

theorem Edit.unstuck (edit : Edit True tables after) (u : tables.Unstuck) : after.Unstuck := by
  cases edit with
  | addTurn row part fresh covered next first =>
      intro execution mem runs
      obtain ⟨turn, here, rest⟩ := u execution mem runs
      exact ⟨turn, List.mem_append_left _ here, rest⟩
  | reviseTurns p f kept covered pending closes =>
      intro execution mem runs
      obtain ⟨turn, here, key, isOpen⟩ := u execution mem runs
      refine ⟨_, mem_updateWhere_of_mem here, ?_⟩
      split
      next selected =>
        refine ⟨(kept turn).1.trans key, ?_⟩
        by_contra closed
        exact closes trivial turn here selected (by simpa using closed) execution mem key.symm runs
      next => exact ⟨key, isOpen⟩
  | addExecution row fresh covered pending idle unmarked =>
      intro execution mem runs
      obtain old | rfl := mem_concat_cases mem
      · exact u execution old runs
      · exact pending
  | endExecutions p f kept covered ends =>
      intro execution mem
      obtain ⟨row, here, rfl⟩ := mem_updateWhere.mp mem
      intro runs
      split at runs
      next => exact absurd runs (ends row)
      next unselected =>
        rw [if_neg unselected]
        exact u row here runs
  | addCheckpoint row execution revision found owner running covered next =>
      intro other mem
      obtain ⟨old, here, rfl⟩ := mem_updateWhere.mp mem
      split <;> exact u old here
  | _ => exact u

theorem Edits.unstuck (edits : Edits True tables after) (u : tables.Unstuck) : after.Unstuck := by
  induction edits with
  | refl => exact u
  | tail _ last ih => exact last.unstuck ih

theorem run_unstuck {calls : List Call}
    (legal : Along (step externals) (fun tables call => ¬ tables.StrandedBy call)
      Tables.empty calls) : (reached externals calls).Unstuck := by
  have keep : ∀ tables call, Consistent tables ∧ tables.Unstuck → ¬ tables.StrandedBy call →
      Consistent (step externals tables call) ∧ (step externals tables call).Unstuck :=
    fun tables call both closes =>
      ⟨both.1.step, (step_edits both.1 fun _ => closes).unstuck both.2⟩
  exact (run_invariant_along keep legal ⟨consistent_empty, nofun⟩).2

variable {conversation : ConversationRecord}

theorem activeConversation_of_mem (h : Consistent tables)
    (mem : conversation ∈ tables.conversations) (active : conversation.status = .active)
    (same : scope.conversationId = conversation.conversationId)
    (owner : scope.ownerId = conversation.ownerId) :
    tables.activeConversation scope = some conversation := by
  refine find?_eq_some_of_unique h.conversationKeys mem ?_ ?_
  · simp [same, owner, active]
  · intro other _ meets
    simp only [Bool.and_eq_true, beq_iff_eq] at meets
    exact meets.1.1.trans same

theorem runningExecution_of_mem (h : Consistent tables)
    {execution : ConversationExecutionRecord}
    (active : tables.activeConversation scope = some conversation)
    (mem : execution ∈ tables.executions) (runs : execution.status = .running)
    (same : conversation.conversationId = execution.conversationId) :
    tables.runningExecution scope execution.executionId = some (conversation, execution) := by
  have found : tables.executions.find? (fun row =>
      row.conversationId == conversation.conversationId &&
        row.executionId == execution.executionId && row.status == .running) =
      some execution := by
    refine find?_eq_some_of_unique h.executionKeys mem ?_ ?_
    · simp [same, runs]
    · intro other _ meets
      simp only [Bool.and_eq_true, beq_iff_eq] at meets
      exact meets.1.2
  simp [Tables.runningExecution, active, found]

theorem turn?_of_mem (h : Consistent tables) {turn : TurnRow} (mem : turn ∈ tables.turns)
    {conversationId turnId : String} (key : turn.key = (conversationId, turnId)) :
    tables.turn? conversationId turnId = some turn := by
  refine find?_eq_some_of_unique h.turnKeys mem (beq_iff_eq.mpr key) ?_
  intro other _ meets
  exact (beq_iff_eq.mp meets).trans key.symm

theorem turnTransitionAllowed_of_isOpen {current : TurnStatus} (isOpen : current.isOpen)
    {next : TerminalStatus} (gives : next = .cancelled ∨ next = .interrupted) :
    turnTransitionAllowed current next.toTurn = true := by
  obtain rfl | rfl := gives <;> cases current <;> simp_all [TurnStatus.isOpen] <;> rfl

/-- Closing an execution whose turn is open succeeds. -/
theorem finishExecution_answers (h : Consistent tables)
    {execution : ConversationExecutionRecord} {turn : TurnRow} {text : String}
    {status : TerminalStatus} {atMs : Nat} (conversationMem : conversation ∈ tables.conversations)
    (active : conversation.status = .active) (room : conversation.revision < i64Max)
    (timed : 0 < atMs) (fits : atMs ≤ i64Max) (mem : execution ∈ tables.executions)
    (runs : execution.status = .running)
    (same : conversation.conversationId = execution.conversationId)
    (turnMem : turn ∈ tables.turns) (key : turn.key = execution.turnKey)
    (parsed : TerminalStatus.parse text = some status)
    (allowed : turnTransitionAllowed turn.status status.toTurn = true) :
    ∃ record, (perform externals tables
        (.finishExecution (closingRequest conversation execution text atMs))).reply =
          .ok (.execution record) ∧
      record.executionId = execution.executionId ∧ record.status = status.toExecution := by
  have found := activeConversation_of_mem h conversationMem active
    (rfl : (closingRequest conversation execution text atMs).conversationId = _) rfl
  have joined := runningExecution_of_mem h found mem runs same
  have located : tables.turn? conversation.conversationId execution.turnId = some turn :=
    turn?_of_mem h turnMem (by rw [key, same]; rfl)
  obtain ⟨revision, bumped, moved⟩ := revise_next_iff.mpr
    ⟨(⟨room, fits⟩ : (closingRequest conversation execution text atMs).toScope.Fits),
      rfl (a := tables.revised (closingRequest conversation execution text atMs).toScope id)⟩
  have ran : ∃ after, finishExecution tables (closingRequest conversation execution text atMs) =
      .ok after ∧ after.executions = updateWhere
        (fun row => row.executionId == execution.executionId && row.status == .running)
        (fun row => { row with
          status := status.toExecution, revision, finishedAtMs := some atMs })
        tables.executions := by
    simp only [finishExecution, bind_eq_ok_iff, refuseWhen_eq_ok_iff, okOr_eq_ok_iff,
      requireRevision, pure_eq_ok_iff, not_not]
    exact ⟨_, ⟨status, parsed, ⟨⟩, timed.ne', _, joined, ⟨⟩, rfl, turn, located, ⟨⟩,
      by simp [allowed], revision, bumped, _, moved, rfl⟩, rfl⟩
  obtain ⟨after, ran, executions⟩ := ran
  have read : after.execution? execution.executionId = some { execution with
      status := status.toExecution, revision, finishedAtMs := some atMs } := by
    have old : tables.execution? execution.executionId = some execution :=
      find?_eq_some_of_unique h.executionKeys mem (beq_self_eq_true _)
        fun _ _ meets => beq_iff_eq.mp meets
    rw [Tables.execution?, executions, find?_updateWhere]
    · rw [← Tables.execution?, old]
      simp [runs]
    · exact fun _ => rfl
  refine ⟨{ execution with status := status.toExecution, revision, finishedAtMs := some atMs },
    ?_, rfl, rfl⟩
  simp only [perform, transaction, ran, readBack]
  change Reply.execution <$> after.getExecution execution.executionId = _
  rw [Tables.getExecution, read]
  rfl

theorem Tables.Unstuck.noStuckExecution (h : Consistent tables) (u : tables.Unstuck) :
    tables.NoStuckExecution externals := by
  intro execution mem runs
  obtain ⟨turn, turnMem, key, isOpen⟩ := u execution mem runs
  refine ⟨⟨turn, turn?_of_mem h turnMem key, isOpen⟩, ?_⟩
  intro conversation conversationMem same active room atMs timed fits text status gives
  obtain ⟨terminal, parsed, ends, closing⟩ : ∃ terminal, TerminalStatus.parse text = some terminal ∧
      terminal.toExecution = status ∧ (terminal = .cancelled ∨ terminal = .interrupted) := by
    simp only [List.mem_cons, Prod.mk.injEq, List.not_mem_nil, or_false] at gives
    obtain ⟨rfl, rfl⟩ | ⟨rfl, rfl⟩ := gives
    · exact ⟨.cancelled, rfl, rfl, .inl rfl⟩
    · exact ⟨.interrupted, rfl, rfl, .inr rfl⟩
  rw [← ends]
  exact finishExecution_answers h conversationMem active room timed fits mem runs same turnMem key
    parsed (turnTransitionAllowed_of_isOpen isOpen closing)

/-- A call that closes the turn of a running execution leaves that execution stuck. -/
theorem stuck_of_strandedBy {call : Call}
    (strands : tables.StrandedBy call) :
    ¬ (step externals tables call).NoStuckExecution externals := by
  cases call with
  | transitionTurn request =>
      obtain ⟨status, accepts, closed, busy⟩ := strands
      have ran := transitionTurn_ok_iff.mpr ⟨status, accepts, rfl⟩
      simp only [Tables.Idle, not_forall, not_not] at busy
      obtain ⟨execution, mem, key, runs⟩ := busy
      simp only [step, perform, transaction, ran]
      intro noStuck
      obtain ⟨⟨turn, located, isOpen⟩, -⟩ := noStuck execution mem runs
      -- the turn of the execution is the one that the call has closed
      obtain ⟨turnMem, same⟩ := mem_of_turn? located
      obtain ⟨old, -, rfl⟩ := mem_updateWhere.mp turnMem
      split at same
      next selected =>
        rw [if_pos selected] at isOpen
        simp [closed] at isOpen
      next unselected =>
        apply unselected
        rw [beq_iff_eq, same]
        exact key
  | _ => exact strands.elim

/-- The executions of a run can all be closed exactly when no call of the run closes the
turn of a running execution. -/
theorem executions_closable_iff (externals : Externals) (calls : List Call) :
    (∀ before after, calls = before ++ after →
      (reached externals before).NoStuckExecution externals) ↔
    Along (step externals) (fun tables call => ¬ tables.StrandedBy call) Tables.empty calls := by
  constructor
  · intro noStuck
    rw [along_iff_at_step]
    intro before call after split strands
    apply stuck_of_strandedBy strands
    have whole : calls = (before ++ [call]) ++ after := by simp [split]
    have := noStuck _ _ whole
    rwa [reached, run_append] at this
  · rintro legal before after rfl
    exact (run_unstuck legal.append_left).noStuckExecution (reached_consistent before)

/-! ### A stuck execution -/

def turnQueued : Call :=
  .appendTurn
    { conversationId := "conv-1", ownerId := "owner-a", expectedRevision := 1, atMs := 2
      turnId := "turn-1", role := "assistant", content := "partial", connectionId := none
      modelId := none, status := "QUEUED" }

def executionStarted : Call :=
  .startExecution
    { conversationId := "conv-1", ownerId := "owner-a", expectedRevision := 2, atMs := 3
      executionId := "exec-1", turnId := "turn-1", providerKind := "local"
      connectionId := "local", modelId := "model-a" }

/-- The turn is completed alone, while its execution runs. -/
def turnCompleted : Call :=
  .transitionTurn
    { conversationId := "conv-1", ownerId := "owner-a", expectedRevision := 3, atMs := 4
      turnId := "turn-1", status := "COMPLETED" }

def strandingCalls : List Call :=
  [conversationOpened, turnQueued, executionStarted, turnCompleted]

def strandedExecution : ConversationExecutionRecord :=
  { executionId := "exec-1", conversationId := "conv-1", turnId := "turn-1"
    providerKind := "local", connectionId := "local", modelId := "model-a", status := .running
    checkpointSeq := 0, revision := 3, startedAtMs := 3, finishedAtMs := none }

theorem strandingCalls_leave_stuck_execution :
    ¬ (reached plainExternals strandingCalls).NoStuckExecution plainExternals := by
  intro noStuck
  have mem : strandedExecution ∈ (reached plainExternals strandingCalls).executions := by
    decide +kernel
  obtain ⟨⟨turn, located, isOpen⟩, -⟩ := noStuck strandedExecution mem rfl
  have closed : ((reached plainExternals strandingCalls).turn? "conv-1" "turn-1").all
      (fun turn => !turn.status.isOpen) = true := by
    decide +kernel
  have found : (reached plainExternals strandingCalls).turn? "conv-1" "turn-1" = some turn :=
    located
  simp [found, isOpen] at closed

end Aegis.Conversation
