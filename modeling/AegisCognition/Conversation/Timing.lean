import AegisCognition.Conversation.Execution

/-!
# Finishing times

A turn, an execution and a tool call have a finishing time exactly if their status is a final one.
Every operation keeps that but two: a turn that is appended as cancelled, and one that is moved to
cancelled alone, get no finishing time. The finishing of an execution gives its turn one.
-/

namespace Aegis.Conversation

open Foundation Tables ToolCallStatus TurnStatus List

variable {externals : Externals} {tables after : Tables} {scope : Scope}

/-- The statuses that a turn ends in. -/
def TurnStatus.isFinal : TurnStatus → Bool
  | .completed | .failed | .cancelled | .interrupted => true
  | .queued | .running | .waitingApproval => false

def TurnRow.Timed (row : TurnRow) : Prop :=
  row.finishedAtMs.isSome ↔ row.status.isFinal

def ConversationExecutionRecord.Timed (row : ConversationExecutionRecord) : Prop :=
  row.finishedAtMs.isSome ↔ row.status ≠ .running

def ConversationToolCallRecord.Timed (row : ConversationToolCallRecord) : Prop :=
  row.completedAtMs.isSome ↔
    row.status = .completed ∨ row.status = .failed ∨ row.status = .cancelled

/-- All finishing times match the statuses next to them. -/
structure Tables.Timed (tables : Tables) : Prop where
  turns : ∀ row ∈ tables.turns, row.Timed
  executions : ∀ row ∈ tables.executions, row.Timed
  toolCalls : ∀ row ∈ tables.toolCalls, row.Timed

theorem timed_empty : Tables.empty.Timed where
  turns _ mem := absurd mem not_mem_nil
  executions _ mem := absurd mem not_mem_nil
  toolCalls _ mem := absurd mem not_mem_nil

/-! ### Statuses -/

theorem isFinal_toTurn (status : TerminalStatus) : status.toTurn.isFinal = true := by
  cases status <;> rfl

theorem settled_of_parseResult {text : String} {status : ToolCallStatus}
    (parsed : parseResult text = some status) :
    status = .completed ∨ status = .failed ∨ status = .cancelled := by
  unfold parseResult at parsed
  split at parsed <;> cases parsed <;> simp

theorem settled_of_parseReconciliation {text : String} {status : ToolCallStatus}
    (parsed : parseReconciliation text = some status) :
    status = .completed ∨ status = .failed ∨ status = .cancelled := by
  unfold parseReconciliation at parsed
  split at parsed <;> cases parsed <;> simp

/-! ### Appending a turn -/

/-- What the repository checks before it appends a turn. -/
structure AcceptsTurn (tables : Tables) (request : AppendTurn) (role : Role) (status : TurnStatus) :
    Prop where
  valid : validateTurn request = .ok (role, status)
  current : ∃ conversation, tables.ownedConversation request.toScope = some conversation ∧
    conversation.revision = request.expectedRevision ∧ conversation.status = .active
  fresh : tables.turn? request.conversationId request.turnId = none
  room : 1 + (tables.turns.filter (·.conversationId == request.conversationId)).length ≤ i64Max
  fits : request.toScope.Fits

def AppendTurn.row (request : AppendTurn) (tables : Tables) (role : Role) (status : TurnStatus) :
    TurnRow where
  conversationId := request.conversationId
  turnId := request.turnId
  ordinal := 1 + (tables.turns.filter (·.conversationId == request.conversationId)).length
  role := role
  status := status
  connectionId := request.connectionId
  modelId := request.modelId
  revision := request.expectedRevision + 1
  createdAtMs := request.atMs
  finishedAtMs := if status.recordsFinish then some request.atMs else none
  executionId := none

theorem appendTurn_ok_iff {request : AppendTurn} (h : Consistent tables) :
    appendTurn tables request = .ok after ↔ ∃ role status,
      AcceptsTurn tables request role status ∧
      after = { tables.revised request.toScope id with
        turns := tables.turns ++ [request.row tables role status]
        parts := tables.parts ++
          [{ conversationId := request.conversationId, turnId := request.turnId, partIndex := 0
             kind := .text, content := request.content }] } := by
  simp only [appendTurn, bind_eq_ok_iff, refuseWhen_eq_ok_iff, okOr_eq_ok_iff, requireRevision,
    insertTurn, insertPart, pure_eq_ok_iff, not_not]
  constructor
  · rintro ⟨⟨role, status⟩, valid, conversation, found, -, rev, -, active, -, missing, ordinal,
      next, revision, bumped, revised, moved, _, ⟨-, fresh, -, -, -, -, rfl⟩, -, -, -, -, rfl⟩
    obtain ⟨fits, rfl, rfl⟩ := revise_ok bumped moved
    obtain ⟨room, rfl⟩ := (nextIndex_eq_ok_iff (h.ordinals _)).mp next
    refine ⟨role, status, ⟨valid, ⟨conversation, found, rev, active⟩, ?_, room, fits⟩, rfl⟩
    exact Option.not_isSome_iff_eq_none.mp missing
  · rintro ⟨role, status, accepts, rfl⟩
    obtain ⟨conversation, found, rev, active⟩ := accepts.current
    obtain ⟨revision, bumped, moved⟩ :=
      revise_next_iff.mpr ⟨accepts.fits, rfl (a := tables.revised request.toScope id)⟩
    obtain rfl := (revise_ok bumped moved).2.1
    have fresh : ∀ row ∈ tables.turns, row.key ≠ (request.conversationId, request.turnId) := by
      simpa [Tables.turn?] using accepts.fresh
    have next := (nextIndex_eq_ok_iff (h.ordinals request.conversationId)).mpr ⟨accepts.room, rfl⟩
    refine ⟨(role, status), accepts.valid, conversation, found, ⟨⟩, rev, ⟨⟩, active, ⟨⟩, ?_, _,
      next, _, bumped, _, moved, _, ⟨⟨⟩, ?_, ⟨⟩, ?_, ⟨⟩, ?_, rfl⟩, ⟨⟩, ?_, ⟨⟩, ?_, rfl⟩
    · simp [accepts.fresh]
    · apply any_eq_false_iff.mpr
      intro row mem same
      exact fresh row mem (beq_iff_eq.mp same)
    · -- the ordinals of the conversation end before the new one
      apply any_eq_false_iff.mpr
      intro row mem same
      simp only [Bool.and_eq_true, beq_iff_eq] at same
      have numbered : row.ordinal ∈ (tables.turns.filter
          (·.conversationId == request.conversationId)).map (·.ordinal) := by
        exact mem_map_of_mem (mem_filter.mpr ⟨mem, beq_iff_eq.mpr same.1⟩)
      rw [h.ordinals, mem_range'_1] at numbered
      omega
    · obtain ⟨row, mem, id, -⟩ := atRevision_of_owned found rev
      simp only [Bool.not_eq_true', Bool.not_eq_false, any_eq_true]
      refine ⟨_, mem_updateWhere_of_mem mem, ?_⟩
      split <;> simpa using id
    · -- a part refers to a turn, and the turn is new
      apply any_eq_false_iff.mpr
      intro part mem same
      simp only [Bool.and_eq_true, beq_iff_eq] at same
      obtain ⟨turn, here, key⟩ := h.partTurns part mem
      exact fresh turn here (key.trans same.1)
    · simp [TurnRow.key, ConversationPartRecord.turnKey]

/-! ### The operations -/

namespace Tables.Timed

variable (h : tables.Timed)

include h

theorem revised {assign : ConversationRecord → ConversationRecord} :
    (tables.revised scope assign).Timed :=
  ⟨h.turns, h.executions, h.toolCalls⟩

theorem createConversation {request : CreateConversation}
    (ok : createConversation tables request = .ok after) : after.Timed := by
  simp only [Conversation.createConversation, bind_eq_ok_iff, insertConversation,
    pure_eq_ok_iff] at ok
  obtain ⟨-, -, -, -, createdAtMs, -, -, -, rfl⟩ := ok
  exact ⟨h.turns, h.executions, h.toolCalls⟩

theorem startExecution {request : StartExecution}
    (ok : startExecution tables request = .ok after) : after.Timed := by
  simp only [Conversation.startExecution, bind_eq_ok_iff, insertExecution, pure_eq_ok_iff] at ok
  obtain ⟨-, -, -, -, -, -, conversation, -, -, -, turn, -, -, -, -, -, -, -, revision, bumped,
    revised, moved, -, -, -, -, rfl⟩ := ok
  obtain ⟨-, rfl, rfl⟩ := revise_ok bumped moved
  have started : ∀ row ∈ (if turn.status = .queued then
      updateWhere
        (fun row => row.key == (request.conversationId, request.turnId) && row.status == .queued)
        (fun row => { row with
          status := .running, revision := request.expectedRevision + 1 }) tables.turns
      else tables.turns), row.Timed := by
    split
    · apply forall_mem_updateWhere h.turns
      intro row _ selected timed
      simp only [Bool.and_eq_true, beq_iff_eq] at selected
      rw [TurnRow.Timed, selected.2] at timed
      exact timed
    · exact h.turns
  refine ⟨forall_mem_updateWhere started ?_, forall_mem_concat h.executions ?_, h.toolCalls⟩
  · exact fun _ _ _ timed => timed
  · simp [ConversationExecutionRecord.Timed]

theorem checkpointExecution {request : CheckpointExecution}
    (ok : checkpointExecution externals tables request = .ok after) : after.Timed := by
  simp only [Conversation.checkpointExecution, bind_eq_ok_iff, insertCheckpoint,
    pure_eq_ok_iff] at ok
  obtain ⟨-, -, -, -, joined, -, -, -, execution, -, -, -, -, -, revision, bumped, revised, moved,
    sequence, -, -, -, -, -, rfl⟩ := ok
  obtain ⟨-, rfl, rfl⟩ := revise_ok bumped moved
  exact ⟨h.turns, forall_mem_updateWhere h.executions fun _ _ _ timed => timed, h.toolCalls⟩

theorem finishExecution {request : FinishExecution}
    (ok : finishExecution tables request = .ok after) : after.Timed := by
  simp only [Conversation.finishExecution, bind_eq_ok_iff, pure_eq_ok_iff] at ok
  obtain ⟨status, -, -, -, joined, -, -, -, turn, -, -, -, revision, bumped, revised, moved, rfl⟩ :=
    ok
  obtain ⟨-, rfl, rfl⟩ := revise_ok bumped moved
  refine ⟨forall_mem_updateWhere h.turns ?_, forall_mem_updateWhere h.executions ?_, h.toolCalls⟩
  · intro row _ _ _
    simp [TurnRow.Timed, isFinal_toTurn]
  · intro row _ _ _
    simp [ConversationExecutionRecord.Timed, toExecution_ne_running]

theorem recordToolCall {request : RecordToolCall}
    (ok : recordToolCall externals tables request = .ok after) : after.Timed := by
  simp only [Conversation.recordToolCall, bind_eq_ok_iff, insertToolCall, pure_eq_ok_iff] at ok
  obtain ⟨-, -, -, -, -, -, -, -, conversation, -, -, -, turn, -, -, -, -, -, revision, bumped,
    revised, moved, -, -, -, -, rfl⟩ := ok
  obtain ⟨-, rfl, rfl⟩ := revise_ok bumped moved
  refine ⟨h.turns, h.executions, forall_mem_concat h.toolCalls ?_⟩
  simp [ConversationToolCallRecord.Timed]

theorem recordToolResult {request : RecordToolResult}
    (ok : recordToolResult tables request = .ok after) : after.Timed := by
  simp only [Conversation.recordToolResult, bind_eq_ok_iff, okOr_eq_ok_iff, pure_eq_ok_iff] at ok
  obtain ⟨-, -, -, -, status, parsed, conversation, -, -, -, call, -, -, -, turn, -, -, -,
    revision, bumped, revised, moved, rfl⟩ := ok
  obtain ⟨-, rfl, rfl⟩ := revise_ok bumped moved
  refine ⟨h.turns, h.executions, forall_mem_updateWhere h.toolCalls ?_⟩
  intro row _ _ _
  simp [ConversationToolCallRecord.Timed, settled_of_parseResult parsed]

theorem reconcileToolCall {request : ReconcileToolCall}
    (ok : reconcileToolCall tables request = .ok after) : after.Timed := by
  simp only [Conversation.reconcileToolCall, bind_eq_ok_iff, okOr_eq_ok_iff, pure_eq_ok_iff] at ok
  obtain ⟨-, -, -, -, status, parsed, joined, -, -, -, revision, bumped, revised, moved, rfl⟩ := ok
  obtain ⟨-, rfl, rfl⟩ := revise_ok bumped moved
  refine ⟨h.turns, h.executions, forall_mem_updateWhere h.toolCalls ?_⟩
  intro row _ _ _
  simp [ConversationToolCallRecord.Timed, settled_of_parseReconciliation parsed]

theorem appendTurnPart {request : AppendTurnPart}
    (ok : appendTurnPart tables request = .ok after) : after.Timed := by
  simp only [Conversation.appendTurnPart, bind_eq_ok_iff, insertPart, pure_eq_ok_iff] at ok
  obtain ⟨-, -, -, -, kind, -, -, -, conversation, -, -, -, turn, -, -, -, partIndex, -, revision,
    bumped, revised, moved, -, -, -, -, rfl⟩ := ok
  obtain ⟨-, rfl, rfl⟩ := revise_ok bumped moved
  exact ⟨forall_mem_updateWhere h.turns fun _ _ _ timed => timed, h.executions, h.toolCalls⟩

theorem switchModel {request : SwitchModel}
    (ok : switchModel tables request = .ok after) : after.Timed := by
  simp only [Conversation.switchModel, bind_eq_ok_iff] at ok
  obtain ⟨-, -, conversation, -, -, -, -, -, revision, bumped, moved⟩ := ok
  obtain ⟨-, rfl, rfl⟩ := revise_ok bumped moved
  exact h.revised

theorem setStatus {request : SetStatus}
    (ok : setStatus tables request = .ok after) : after.Timed := by
  simp only [Conversation.setStatus, bind_eq_ok_iff] at ok
  obtain ⟨status, -, -, -, conversation, -, -, -, revision, bumped, moved⟩ := ok
  obtain ⟨-, rfl, rfl⟩ := revise_ok bumped moved
  exact h.revised

/-- Recovery times what it cancels and interrupts, and leaves ambiguous calls untimed. -/
theorem recovered (nowMs revision : Nat) (conversationId : String) :
    (tables.recovered nowMs revision conversationId).Timed := by
  refine ⟨forall_mem_updateWhere h.turns ?_, forall_mem_updateWhere h.executions ?_,
    forall_mem_updateWhere (forall_mem_updateWhere h.toolCalls ?_) ?_⟩
  · intro row _ _ _
    simp [TurnRow.Timed, isFinal]
  · intro row _ _ _
    simp [ConversationExecutionRecord.Timed]
  · intro row _ _ _
    simp [ConversationToolCallRecord.Timed]
  · intro row _ selected timed
    simp only [Bool.and_eq_true, beq_iff_eq] at selected
    simpa [ConversationToolCallRecord.Timed, selected.2] using timed

theorem recoverIncompleteRuns {nowMs : Nat}
    (ok : recoverIncompleteRuns nowMs tables = .ok after) : after.Timed := by
  simp only [Conversation.recoverIncompleteRuns, bind_eq_ok_iff] at ok
  obtain ⟨-, -, ok⟩ := ok
  refine foldlM_invariant (motive := fun _ middle => middle.Timed) ?_ h ok
  intro _ id _ middle next _ timed round
  obtain ⟨-, rfl⟩ | ⟨conversation, -, -, -, rfl⟩ := recoverConversation_ok_iff.mp round
  · exact timed
  · exact timed.recovered _ _ _

end Tables.Timed

/-! ### Runs -/

/-- The call is accepted and leaves a cancelled turn without a finishing time: it appends one as
cancelled, or moves one to cancelled without its execution. -/
def Tables.CancelsUntimed (tables : Tables) : Call → Prop
  | .appendTurn request => ∃ role, AcceptsTurn tables request role .cancelled
  | .transitionTurn request => AcceptsTransition tables request .cancelled
  | _ => False

theorem appendTurn_timed_iff {request : AppendTurn} (consistent : Consistent tables)
    (h : tables.Timed) :
    (step externals tables (.appendTurn request)).Timed ↔
      ¬ tables.CancelsUntimed (.appendTurn request) := by
  cases ran : appendTurn tables request with
  | error error =>
      have refused : ¬ tables.CancelsUntimed (.appendTurn request) := by
        rintro ⟨role, accepts⟩
        cases ran.symm.trans ((appendTurn_ok_iff consistent).mpr ⟨role, .cancelled, accepts, rfl⟩)
      simp only [step, perform, transaction, ran]
      exact iff_of_true h refused
  | ok after =>
      obtain ⟨role, status, accepts, rfl⟩ := (appendTurn_ok_iff consistent).mp ran
      simp only [step, perform, transaction, ran]
      have cancels : tables.CancelsUntimed (.appendTurn request) ↔ status = .cancelled := by
        constructor
        · rintro ⟨_, cancelled⟩
          exact congrArg Prod.snd (Except.ok.inj (accepts.valid.symm.trans cancelled.valid))
        · rintro rfl
          exact ⟨role, accepts⟩
      have row_timed : (request.row tables role status).Timed ↔ status ≠ .cancelled := by
        rw [TurnRow.Timed]
        cases status <;> simp [AppendTurn.row, recordsFinish, isFinal]
      rw [cancels]
      constructor
      · intro timed
        exact row_timed.mp (timed.turns _ mem_concat_self)
      · intro kept
        exact ⟨forall_mem_concat h.turns (row_timed.mpr kept), h.executions, h.toolCalls⟩

theorem transitionTurn_timed_iff {request : TransitionTurn} (h : tables.Timed) :
    (step externals tables (.transitionTurn request)).Timed ↔
      ¬ tables.CancelsUntimed (.transitionTurn request) := by
  cases ran : transitionTurn tables request with
  | error error =>
      have refused : ¬ tables.CancelsUntimed (.transitionTurn request) := by
        intro accepts
        cases ran.symm.trans (transitionTurn_ok_iff.mpr ⟨.cancelled, accepts, rfl⟩)
      simp only [step, perform, transaction, ran]
      exact iff_of_true h refused
  | ok after =>
      obtain ⟨status, accepts, rfl⟩ := transitionTurn_ok_iff.mp ran
      simp only [step, perform, transaction, ran]
      have cancels : tables.CancelsUntimed (.transitionTurn request) ↔ status = .cancelled := by
        constructor
        · intro cancelled
          exact Option.some.inj (accepts.parsed.symm.trans cancelled.parsed)
        · rintro rfl
          exact accepts
      rw [cancels]
      constructor
      · rintro timed rfl
        obtain ⟨turn, located, -⟩ := accepts.allowed
        obtain ⟨mem, key⟩ := mem_of_turn? located
        have moved := timed.turns _ (mem_updateWhere_of_mem mem)
        simp [key, TurnRow.Timed, recordsFinish, isFinal] at moved
      · intro kept
        refine ⟨forall_mem_updateWhere h.turns ?_, h.executions, h.toolCalls⟩
        intro row _ _ _
        cases status <;> simp_all [TurnRow.Timed, recordsFinish, isFinal]

/-- The finishing times still match after a call if and only if it cancels no turn alone. -/
theorem step_timed_iff (call : Call) (consistent : Consistent tables) (h : tables.Timed) :
    (step externals tables call).Timed ↔ ¬ tables.CancelsUntimed call := by
  have kept (other : ¬ tables.CancelsUntimed call)
      (keeps : ∀ after, transaction externals tables call = .ok after → after.Timed) :
      (step externals tables call).Timed ↔ ¬ tables.CancelsUntimed call := by
    refine iff_of_true ?_ other
    cases ran : transaction externals tables call with
    | error error => simpa [step, perform, ran] using h
    | ok after => simpa [step, perform, ran] using keeps after ran
  cases call with
  | appendTurn request => exact appendTurn_timed_iff consistent h
  | transitionTurn request => exact transitionTurn_timed_iff h
  | createConversation request => exact kept not_false fun _ ok => h.createConversation ok
  | startExecution request => exact kept not_false fun _ ok => h.startExecution ok
  | checkpointExecution request => exact kept not_false fun _ ok => h.checkpointExecution ok
  | finishExecution request => exact kept not_false fun _ ok => h.finishExecution ok
  | recordToolCall request => exact kept not_false fun _ ok => h.recordToolCall ok
  | recordToolResult request => exact kept not_false fun _ ok => h.recordToolResult ok
  | reconcileToolCall request => exact kept not_false fun _ ok => h.reconcileToolCall ok
  | appendTurnPart request => exact kept not_false fun _ ok => h.appendTurnPart ok
  | switchModel request => exact kept not_false fun _ ok => h.switchModel ok
  | setStatus request => exact kept not_false fun _ ok => h.setStatus ok
  | reopen nowMs => exact kept not_false fun _ ok => h.recoverIncompleteRuns ok

/-- The finishing times match throughout a run exactly when no call of it cancels a turn alone. -/
theorem finishing_times_match_iff (externals : Externals) (calls : List Call) :
    (∀ before after, calls = before ++ after → (reached externals before).Timed) ↔
    Along (step externals) (fun tables call => ¬ tables.CancelsUntimed call) Tables.empty calls :=
  run_prefixes_iff_along (fun _ _ consistent => consistent.step)
    (fun _ call consistent timed => step_timed_iff call consistent timed) consistent_empty
    timed_empty

/-! ### A cancelled turn -/

/-- A turn that is cancelled before any execution answers it. -/
def turnCancelled : Call :=
  .transitionTurn
    { conversationId := "conv-1", ownerId := "owner-a", expectedRevision := 2, atMs := 3
      turnId := "turn-1", status := "CANCELLED" }

def untimedTurn : TurnRow :=
  { conversationId := "conv-1", turnId := "turn-1", ordinal := 1, role := .assistant
    status := .cancelled, connectionId := none, modelId := none, revision := 3, createdAtMs := 2
    finishedAtMs := none, executionId := none }

theorem cancelled_turn_untimed :
    ¬ (reached plainExternals [conversationOpened, turnQueued, turnCancelled]).Timed := by
  intro timed
  have mem : untimedTurn ∈
      (reached plainExternals [conversationOpened, turnQueued, turnCancelled]).turns := by
    decide +kernel
  have finished := (timed.turns untimedTurn mem).mpr rfl
  cases finished

end Aegis.Conversation
