import AegisCognition.Conversation.Record
import AegisCognition.Foundation.Scan

/-!
# Operations of the conversation repository

Each operation is one transaction over the tables: it reads rows, refuses, updates and
inserts. A refusal drops the transaction, so it is an error and no tables. An operation
that has committed then reads back the row it answers with.

The insertions check the keys and references that the schema declares.
-/

namespace Aegis.Conversation

open Foundation Tables

/-- What the repository takes from other libraries: reading a text as JSON, and the
hexadecimal BLAKE3 digest of a text. -/
structure Externals where
  isJson : String → Bool
  isJsonObject : String → Bool
  blake3Hex : String → String

namespace Tables

/-! ### Insertions -/

section

variable (tables : Tables)

def insertConversation (row : ConversationRecord) : Except RepositoryError Tables := do
  refuseWhen (tables.conversations.any (·.conversationId == row.conversationId))
    (.sqlite .constraintViolation)
  pure { tables with conversations := tables.conversations ++ [row] }

def insertTurn (row : TurnRow) : Except RepositoryError Tables := do
  refuseWhen (tables.turns.any (·.key == row.key)) (.sqlite .constraintViolation)
  refuseWhen
    (tables.turns.any fun turn =>
      turn.conversationId == row.conversationId && turn.ordinal == row.ordinal)
    (.sqlite .constraintViolation)
  refuseWhen (!tables.conversations.any (·.conversationId == row.conversationId))
    (.sqlite .constraintViolation)
  pure { tables with turns := tables.turns ++ [row] }

def insertPart (row : ConversationPartRecord) : Except RepositoryError Tables := do
  refuseWhen
    (tables.parts.any fun part =>
      part.turnKey == row.turnKey && part.partIndex == row.partIndex)
    (.sqlite .constraintViolation)
  refuseWhen (!tables.turns.any (·.key == row.turnKey)) (.sqlite .constraintViolation)
  pure { tables with parts := tables.parts ++ [row] }

def insertExecution (row : ConversationExecutionRecord) : Except RepositoryError Tables := do
  refuseWhen (tables.executions.any (·.executionId == row.executionId))
    (.sqlite .constraintViolation)
  refuseWhen (!tables.turns.any (·.key == row.turnKey)) (.sqlite .constraintViolation)
  pure { tables with executions := tables.executions ++ [row] }

def insertCheckpoint (row : ConversationCheckpointRecord) : Except RepositoryError Tables := do
  refuseWhen
    (tables.checkpoints.any fun checkpoint =>
      checkpoint.executionId == row.executionId && checkpoint.sequence == row.sequence)
    (.sqlite .constraintViolation)
  refuseWhen (!tables.executions.any (·.executionId == row.executionId))
    (.sqlite .constraintViolation)
  pure { tables with checkpoints := tables.checkpoints ++ [row] }

def insertToolCall (row : ConversationToolCallRecord) : Except RepositoryError Tables := do
  refuseWhen (tables.toolCalls.any (·.callId == row.callId)) (.sqlite .constraintViolation)
  refuseWhen (!tables.turns.any (·.key == row.requestKey)) (.sqlite .constraintViolation)
  pure { tables with toolCalls := tables.toolCalls ++ [row] }

end

/-! ### Reads -/

section

variable (tables : Tables)

/-- The conversation of a request, in whatever status it is. -/
def ownedConversation (scope : Scope) : Option ConversationRecord :=
  tables.conversations.find? fun row =>
    row.conversationId == scope.conversationId && row.ownerId == scope.ownerId

def activeConversation (scope : Scope) : Option ConversationRecord :=
  tables.conversations.find? fun row =>
    row.conversationId == scope.conversationId && row.ownerId == scope.ownerId &&
      row.status == .active

def turn? (conversationId turnId : String) : Option TurnRow :=
  tables.turns.find? (·.key == (conversationId, turnId))

def execution? (executionId : String) : Option ConversationExecutionRecord :=
  tables.executions.find? (·.executionId == executionId)

def toolCall? (callId : String) : Option ConversationToolCallRecord :=
  tables.toolCalls.find? (·.callId == callId)

/-- The join of an active conversation with one of its running executions. -/
def runningExecution (scope : Scope) (executionId : String) :
    Option (ConversationRecord × ConversationExecutionRecord) := do
  let conversation ← tables.activeConversation scope
  let execution ← tables.executions.find? fun row =>
    row.conversationId == conversation.conversationId && row.executionId == executionId &&
      row.status == .running
  pure (conversation, execution)

/-- The join of an active conversation with one of its ambiguous tool calls. -/
def ambiguousToolCall (scope : Scope) (callId : String) :
    Option (ConversationRecord × ConversationToolCallRecord) := do
  let conversation ← tables.activeConversation scope
  let call ← tables.toolCalls.find? fun row =>
    row.conversationId == conversation.conversationId && row.callId == callId &&
      row.status == .ambiguous
  pure (conversation, call)

end

/-- `COALESCE(MAX(column), first - 1) + 1`, read back as an `i64`. -/
def nextIndex (first : Nat) (column : List Nat) : Except RepositoryError Nat := do
  let next := column.max?.elim first (· + 1)
  refuseWhen (i64Max < next) (.sqlite .invalidColumnType)
  pure next

/-- The contents of the parts of a turn, joined in the order of their indexes. -/
def content (tables : Tables) (turn : TurnRow) : String :=
  String.join (((tables.parts.filter (·.turnKey == turn.key)).insertionSort
    (·.partIndex ≤ ·.partIndex)).map (·.content))

section

variable (tables : Tables)

def turnRecord (turn : TurnRow) : ConversationTurnRecord :=
  { turn with content := tables.content turn }

def getTurn (conversationId turnId : String) : Except RepositoryError ConversationTurnRecord := do
  let turn ← okOr .notFound (tables.turn? conversationId turnId)
  pure (tables.turnRecord turn)

def getExecution (executionId : String) : Except RepositoryError ConversationExecutionRecord :=
  okOr .notFound (tables.execution? executionId)

def getToolCall (callId : String) : Except RepositoryError ConversationToolCallRecord :=
  okOr .notFound (tables.toolCall? callId)

def getConversation (conversationId ownerId : String) :
    Except RepositoryError (Option ConversationSnapshot) := do
  refuseWhen (isUnusable maxIdBytes conversationId || isUnusable maxIdBytes ownerId)
    (.invalidInput "invalid conversation identity")
  let conversation := tables.conversations.find? fun row =>
    row.conversationId == conversationId && row.ownerId == ownerId
  let executions := tables.executions.filter (·.conversationId == conversationId)
  pure <| conversation.map fun conversation =>
    { conversation
      turns := ((tables.turns.filter (·.conversationId == conversationId)).insertionSort
        (·.ordinal ≤ ·.ordinal)).map tables.turnRecord
      parts := (tables.parts.filter (·.conversationId == conversationId)).insertionSort
        fun a b => a.turnId < b.turnId ∨ a.turnId = b.turnId ∧ a.partIndex ≤ b.partIndex
      executions := executions.insertionSort fun a b =>
        a.startedAtMs < b.startedAtMs ∨
          a.startedAtMs = b.startedAtMs ∧ a.executionId ≤ b.executionId
      checkpoints := (tables.checkpoints.filter fun row =>
          executions.any (·.executionId == row.executionId)).insertionSort
        fun a b => a.executionId < b.executionId ∨
          a.executionId = b.executionId ∧ a.sequence ≤ b.sequence
      toolCalls := (tables.toolCalls.filter (·.conversationId == conversationId)).insertionSort
        fun a b => a.createdAtMs < b.createdAtMs ∨
          a.createdAtMs = b.createdAtMs ∧ a.callId ≤ b.callId }

/-- The conversation of a snapshot read back after a commit. -/
def getConversationRecord (conversationId ownerId : String) :
    Except RepositoryError ConversationRecord := do
  let snapshot ← tables.getConversation conversationId ownerId
  let snapshot ← okOr .notFound snapshot
  pure snapshot.conversation

end

/-! ### The revision of a conversation -/

/-- Move the conversation of a request to its next revision, with the other columns that
the operation assigns. -/
def revise (tables : Tables) (scope : Scope) (revision : Nat)
    (assign : ConversationRecord → ConversationRecord) : Except RepositoryError Tables := do
  let revision ← toI64Revision revision
  let updatedAtMs ← toI64Timestamp scope.atMs
  let expected ← toI64Revision scope.expectedRevision
  pure { tables with
    conversations := updateWhere
      (fun row => row.conversationId == scope.conversationId && row.ownerId == scope.ownerId &&
        row.revision == expected)
      (fun row => assign { row with revision, updatedAtMs }) tables.conversations }

end Tables

/-- The client has seen the revision that the conversation is at. -/
def requireRevision (conversation : ConversationRecord) (scope : Scope) :
    Except RepositoryError Unit :=
  refuseWhen (conversation.revision ≠ scope.expectedRevision)
    (.conflict "conversation revision conflict")

/-- The statuses whose turn is given a finishing time. -/
def TurnStatus.recordsFinish : TurnStatus → Bool
  | .completed | .interrupted | .failed => true
  | _ => false

def finishedAt (status : TurnStatus) (atMs : Nat) : Except RepositoryError (Option Nat) :=
  if status.recordsFinish then some <$> toI64Timestamp atMs else .ok none

/-! ### Transactions -/

def createConversation (tables : Tables) (request : CreateConversation) :
    Except RepositoryError Tables := do
  validateConversation request
  refuseWhen (tables.conversations.any (·.conversationId == request.conversationId))
    (.conflict "conversation already exists")
  let createdAtMs ← toI64Timestamp request.createdAtMs
  tables.insertConversation
    { conversationId := request.conversationId, ownerId := request.ownerId
      title := request.title, connectionId := request.connectionId
      modelId := request.modelId, status := .active, revision := 1, createdAtMs
      updatedAtMs := createdAtMs }

def appendTurn (tables : Tables) (request : AppendTurn) : Except RepositoryError Tables := do
  let parsed ← validateTurn request
  let conversation ← okOr .notFound (tables.ownedConversation request.toScope)
  requireRevision conversation request.toScope
  refuseWhen (conversation.status ≠ .active) (.conflict "conversation is not active")
  refuseWhen (tables.turn? request.conversationId request.turnId).isSome
    (.conflict "turn already exists")
  let ordinal ← nextIndex 1
    ((tables.turns.filter (·.conversationId == request.conversationId)).map (·.ordinal))
  let revision ← nextRevision request.expectedRevision
  let tables ← tables.revise request.toScope revision id
  let tables ← tables.insertTurn
    { conversationId := request.conversationId, turnId := request.turnId, ordinal
      role := parsed.1, status := parsed.2, connectionId := request.connectionId
      modelId := request.modelId, revision, createdAtMs := request.atMs
      finishedAtMs := if parsed.2.recordsFinish then some request.atMs else none
      executionId := none }
  tables.insertPart
    { conversationId := request.conversationId, turnId := request.turnId, partIndex := 0
      kind := .text, content := request.content }

def startExecution (tables : Tables) (request : StartExecution) :
    Except RepositoryError Tables := do
  validateIdentity request.conversationId request.ownerId request.turnId
  refuseWhen
    (isUnusable maxIdBytes request.executionId || isUnusable maxProviderBytes request.providerKind)
    (.invalidInput "invalid execution identity")
  validateConnectionModel request.connectionId request.modelId request.atMs
  let conversation ← okOr .notFound (tables.activeConversation request.toScope)
  requireRevision conversation request.toScope
  let turn ← okOr .notFound (tables.turn? request.conversationId request.turnId)
  refuseWhen (turn.status ≠ .queued ∧ turn.status ≠ .running)
    (.conflict "execution requires a pending or streaming turn")
  refuseWhen (tables.execution? request.executionId).isSome (.conflict "execution already exists")
  refuseWhen
    (tables.executions.any fun row =>
      row.turnKey == (request.conversationId, request.turnId) && row.status == .running)
    (.conflict "turn already has a running execution")
  let revision ← nextRevision request.expectedRevision
  let tables ← tables.revise request.toScope revision id
  let started := if turn.status = .queued then
      updateWhere
        (fun row => row.key == (request.conversationId, request.turnId) && row.status == .queued)
        (fun row => { row with status := .running, revision }) tables.turns
    else tables.turns
  let turns := updateWhere (fun row => row.key == (request.conversationId, request.turnId))
    (fun row => { row with executionId := some request.executionId, revision }) started
  insertExecution { tables with turns }
    { executionId := request.executionId, conversationId := request.conversationId
      turnId := request.turnId, providerKind := request.providerKind
      connectionId := request.connectionId, modelId := request.modelId, status := .running
      checkpointSeq := 0, revision, startedAtMs := request.atMs, finishedAtMs := none }

def checkpointExecution (externals : Externals) (tables : Tables)
    (request : CheckpointExecution) : Except RepositoryError Tables := do
  refuseWhen
    (isBlank request.conversationId || isBlank request.ownerId || isBlank request.executionId ||
      isUnusable maxStatusBytes request.state ||
      request.continuationJson.utf8ByteSize > maxContinuationBytes ||
      request.atMs == 0 || request.sequence == 0)
    (.invalidInput "invalid execution checkpoint")
  refuseWhen (!externals.isJson request.continuationJson)
    (.invalidInput "continuation_json must be valid JSON")
  let joined ← okOr .notFound (tables.runningExecution request.toScope request.executionId)
  requireRevision joined.1 request.toScope
  let execution ← okOr (.sqlite .queryReturnedNoRows) (tables.execution? request.executionId)
  refuseWhen (u64Max < execution.checkpointSeq + 1) (.conflict "checkpoint sequence overflow")
  refuseWhen (request.sequence ≠ execution.checkpointSeq + 1)
    (.conflict "checkpoint sequence must advance by one")
  let revision ← nextRevision request.expectedRevision
  let tables ← tables.revise request.toScope revision id
  let sequence ← toI64Revision request.sequence
  let executions := updateWhere
    (fun row => row.executionId == request.executionId && row.status == .running)
    (fun row => { row with checkpointSeq := sequence, revision }) tables.executions
  insertCheckpoint { tables with executions }
    { executionId := request.executionId, sequence, state := request.state
      continuationJson := request.continuationJson
      continuationHash := externals.blake3Hex request.continuationJson
      createdAtMs := request.atMs }

def finishExecution (tables : Tables) (request : FinishExecution) :
    Except RepositoryError Tables := do
  let status ← okOr (.invalidInput "invalid execution terminal status")
    (TerminalStatus.parse request.status)
  refuseWhen (request.atMs = 0) (.invalidInput "timestamp must be non-zero")
  let joined ← okOr .notFound (tables.runningExecution request.toScope request.executionId)
  requireRevision joined.1 request.toScope
  let turn ← okOr (.sqlite .queryReturnedNoRows)
    (tables.turn? request.conversationId joined.2.turnId)
  refuseWhen (!turnTransitionAllowed turn.status status.toTurn)
    (.conflict "execution cannot close the turn from its current status")
  let revision ← nextRevision request.expectedRevision
  let tables ← tables.revise request.toScope revision id
  let executions := updateWhere
    (fun row => row.executionId == request.executionId && row.status == .running)
    (fun row => { row with
      status := status.toExecution, revision, finishedAtMs := some request.atMs })
    tables.executions
  let turns := updateWhere
    (fun row => row.key == (request.conversationId, joined.2.turnId))
    (fun row => { row with status := status.toTurn, revision, finishedAtMs := some request.atMs })
    tables.turns
  pure { tables with executions, turns }

def recordToolCall (externals : Externals) (tables : Tables) (request : RecordToolCall) :
    Except RepositoryError Tables := do
  validateIdentity request.conversationId request.ownerId request.requestTurnId
  refuseWhen
    (isUnusable maxIdBytes request.callId || isUnusable maxModelBytes request.toolName ||
      request.argumentsJson.utf8ByteSize > maxContentBytes || request.atMs == 0)
    (.invalidInput "invalid tool call")
  refuseWhen (!externals.isJson request.argumentsJson)
    (.invalidInput "arguments_json must be valid JSON")
  refuseWhen (!externals.isJsonObject request.argumentsJson)
    (.invalidInput "arguments_json must be an object")
  let conversation ← okOr .notFound (tables.activeConversation request.toScope)
  requireRevision conversation request.toScope
  let turn ← okOr .notFound (tables.turn? request.conversationId request.requestTurnId)
  refuseWhen (turn.role ≠ .assistant ∨ turn.status ≠ .running ∧ turn.status ≠ .completed)
    (.conflict "tool calls must originate from a running or completed assistant turn")
  refuseWhen (tables.toolCall? request.callId).isSome (.conflict "tool call already exists")
  let revision ← nextRevision request.expectedRevision
  let tables ← tables.revise request.toScope revision id
  tables.insertToolCall
    { callId := request.callId, conversationId := request.conversationId
      requestTurnId := request.requestTurnId, resultTurnId := none
      toolName := request.toolName, argumentsJson := request.argumentsJson
      resultContent := none, status := .requested, revision, createdAtMs := request.atMs
      completedAtMs := none }

section

variable (tables : Tables)

def recordToolResult (request : RecordToolResult) : Except RepositoryError Tables := do
  validateIdentity request.conversationId request.ownerId request.resultTurnId
  refuseWhen
    (isUnusable maxIdBytes request.callId ||
      request.resultContent.utf8ByteSize > maxContentBytes || request.resultContent.isEmpty ||
      request.atMs == 0)
    (.invalidInput "invalid tool result")
  let status ← okOr (.invalidInput "invalid tool result")
    (ToolCallStatus.parseResult request.status)
  let conversation ← okOr .notFound (tables.activeConversation request.toScope)
  requireRevision conversation request.toScope
  let call ← okOr .notFound <| tables.toolCalls.find? fun row =>
    row.callId == request.callId && row.conversationId == request.conversationId
  refuseWhen (call.status ≠ .requested) (.conflict "tool call has already been settled")
  let turn ← okOr .notFound (tables.turn? request.conversationId request.resultTurnId)
  refuseWhen (turn.role ≠ .tool) (.conflict "tool result must be recorded on a tool turn")
  let revision ← nextRevision request.expectedRevision
  let tables ← tables.revise request.toScope revision id
  pure { tables with
    toolCalls := updateWhere (fun row => row.callId == request.callId && row.status == .requested)
      (fun row => { row with
        resultTurnId := some request.resultTurnId, resultContent := some request.resultContent
        status, revision, completedAtMs := some request.atMs })
      tables.toolCalls }

def reconcileToolCall (request : ReconcileToolCall) : Except RepositoryError Tables := do
  validateIdentity request.conversationId request.ownerId request.callId
  refuseWhen
    (request.note.isEmpty || request.note.utf8ByteSize > maxContentBytes || request.atMs == 0)
    (.invalidInput "invalid tool reconciliation")
  let status ← okOr (.invalidInput "invalid tool reconciliation")
    (ToolCallStatus.parseReconciliation request.status)
  let joined ← okOr .notFound (tables.ambiguousToolCall request.toScope request.callId)
  requireRevision joined.1 request.toScope
  let revision ← nextRevision request.expectedRevision
  let tables ← tables.revise request.toScope revision id
  pure { tables with
    toolCalls := updateWhere
      (fun row => row.callId == request.callId && row.conversationId == request.conversationId &&
        row.status == .ambiguous)
      (fun row => { row with
        status, resultContent := some request.note, revision, completedAtMs := some request.atMs })
      tables.toolCalls }

def appendTurnPart (request : AppendTurnPart) : Except RepositoryError Tables := do
  validateIdentity request.conversationId request.ownerId request.turnId
  refuseWhen
    (isUnusable maxPartKindBytes request.kind || request.content.isEmpty ||
      request.content.utf8ByteSize > maxContentBytes)
    (.invalidInput "invalid conversation part")
  let kind ← validatePartKind request.kind
  refuseWhen (request.atMs = 0) (.invalidInput "timestamp must be non-zero")
  let conversation ← okOr .notFound (tables.activeConversation request.toScope)
  requireRevision conversation request.toScope
  let turn ← okOr .notFound (tables.turn? request.conversationId request.turnId)
  refuseWhen (!turn.status.isOpen)
    (.conflict "parts can only be appended to a pending or streaming turn")
  let partIndex ← nextIndex 0
    ((tables.parts.filter (·.turnKey == (request.conversationId, request.turnId))).map
      (·.partIndex))
  let revision ← nextRevision request.expectedRevision
  let tables ← tables.revise request.toScope revision id
  let turns := updateWhere (fun row => row.key == (request.conversationId, request.turnId))
    (fun row => { row with revision }) tables.turns
  insertPart { tables with turns }
    { conversationId := request.conversationId, turnId := request.turnId, partIndex, kind
      content := request.content }

def transitionTurn (request : TransitionTurn) : Except RepositoryError Tables := do
  validateIdentity request.conversationId request.ownerId request.turnId
  let status ← validateTurnStatus request.status
  refuseWhen (request.atMs = 0) (.invalidInput "timestamp must be non-zero")
  let conversation ← okOr .notFound (tables.activeConversation request.toScope)
  requireRevision conversation request.toScope
  let turn ← okOr .notFound (tables.turn? request.conversationId request.turnId)
  refuseWhen (!turnTransitionAllowed turn.status status)
    (.conflict "invalid conversation turn status transition")
  let revision ← nextRevision request.expectedRevision
  let finishedAtMs ← finishedAt status request.atMs
  let tables ← tables.revise request.toScope revision id
  pure { tables with
    turns := updateWhere (fun row => row.key == (request.conversationId, request.turnId))
      (fun row => { row with status, revision, finishedAtMs }) tables.turns }

/-- A model is only switched once nothing is pending and nothing but text was exchanged. -/
def switchModel (request : SwitchModel) : Except RepositoryError Tables := do
  validateConnectionModel request.connectionId request.modelId request.atMs
  let conversation ← okOr .notFound (tables.activeConversation request.toScope)
  requireRevision conversation request.toScope
  refuseWhen
    ((tables.turns.any fun row =>
        row.conversationId == request.conversationId && row.status.isOpen) ||
      (tables.toolCalls.any fun row =>
        row.conversationId == request.conversationId && !row.status.isSettled) ||
      (tables.parts.any fun row =>
        row.conversationId == request.conversationId && row.kind != .text) ||
      tables.toolCalls.any (·.conversationId == request.conversationId))
    (.conflict "model switch requires resolved state and verified target capabilities")
  let revision ← nextRevision request.expectedRevision
  tables.revise request.toScope revision fun row =>
    { row with connectionId := request.connectionId, modelId := request.modelId }

def setStatus (request : SetStatus) : Except RepositoryError Tables := do
  let status ← validateStatus request.status
  refuseWhen
    (isUnusable maxIdBytes request.conversationId || isUnusable maxIdBytes request.ownerId ||
      request.atMs == 0)
    (.invalidInput "invalid conversation status request")
  let conversation ← okOr .notFound (tables.ownedConversation request.toScope)
  requireRevision conversation request.toScope
  let revision ← nextRevision request.expectedRevision
  tables.revise request.toScope revision fun row => { row with status }

end

/-! ### Recovery after a restart -/

/-- The conversations with something left unfinished, each once. -/
def incompleteConversations (tables : Tables) : List String :=
  (((tables.turns.filter fun row => row.status == .queued || row.status == .running).map
      (·.conversationId)) ++
    ((tables.executions.filter fun row => row.status == .running).map (·.conversationId)) ++
    ((tables.toolCalls.filter fun row => row.status == .requested).map
      (·.conversationId))).dedup

/-- One round of the recovery loop. -/
def recoverConversation (nowMs : Nat) (tables : Tables) (conversationId : String) :
    Except RepositoryError Tables :=
  match tables.conversations.find? fun row =>
    row.conversationId == conversationId && row.status == .active with
  | none => .ok tables
  | some conversation => do
      let revision ← nextRevision conversation.revision
      let revision ← toI64Revision revision
      let nowMs ← toI64Timestamp nowMs
      let conversations := updateWhere
        (fun row => row.conversationId == conversationId && row.status == .active)
        (fun row => { row with revision, updatedAtMs := nowMs }) tables.conversations
      let cancelled := updateWhere
        (fun row => row.conversationId == conversationId && row.status == .requested &&
          tables.turns.any fun turn =>
            turn.key == row.requestKey && turn.status == .waitingApproval)
        (fun row => { row with
          status := .cancelled
          resultContent := some "Not run: approval was pending when the application restarted."
          revision, completedAtMs := some nowMs })
        tables.toolCalls
      let turns := updateWhere
        (fun row => row.conversationId == conversationId && row.status.isOpen)
        (fun row => { row with status := .interrupted, revision, finishedAtMs := some nowMs })
        tables.turns
      let executions := updateWhere
        (fun row => row.conversationId == conversationId && row.status == .running)
        (fun row => { row with status := .interrupted, revision, finishedAtMs := some nowMs })
        tables.executions
      let toolCalls := updateWhere
        (fun row => row.conversationId == conversationId && row.status == .requested)
        (fun row => { row with status := .ambiguous, revision }) cancelled
      pure { tables with conversations, turns, executions, toolCalls }

def recoverIncompleteRuns (nowMs : Nat) (tables : Tables) : Except RepositoryError Tables := do
  refuseWhen (u64Max < nowMs) (.invalidInput "system timestamp out of range")
  (incompleteConversations tables).foldlM (recoverConversation nowMs) tables

/-! ### Calls -/

/-- A call that some client makes: the creation of a conversation, one of the eleven
revisioned operations, or the opening of the repository. -/
inductive Call
  | createConversation (request : CreateConversation)
  | appendTurn (request : AppendTurn)
  | startExecution (request : StartExecution)
  | checkpointExecution (request : CheckpointExecution)
  | finishExecution (request : FinishExecution)
  | recordToolCall (request : RecordToolCall)
  | recordToolResult (request : RecordToolResult)
  | reconcileToolCall (request : ReconcileToolCall)
  | appendTurnPart (request : AppendTurnPart)
  | transitionTurn (request : TransitionTurn)
  | switchModel (request : SwitchModel)
  | setStatus (request : SetStatus)
  | reopen (nowMs : Nat)

inductive Reply
  | conversation (record : ConversationRecord)
  | turn (record : ConversationTurnRecord)
  | execution (record : ConversationExecutionRecord)
  | toolCall (record : ConversationToolCallRecord)
  | opened

def Call.scope? : Call → Option Scope
  | .createConversation _ | .reopen _ => none
  | .appendTurn request => some request.toScope
  | .startExecution request => some request.toScope
  | .checkpointExecution request => some request.toScope
  | .finishExecution request => some request.toScope
  | .recordToolCall request => some request.toScope
  | .recordToolResult request => some request.toScope
  | .reconcileToolCall request => some request.toScope
  | .appendTurnPart request => some request.toScope
  | .transitionTurn request => some request.toScope
  | .switchModel request => some request.toScope
  | .setStatus request => some request.toScope

section

variable (externals : Externals)

/-- The transaction a call runs. -/
def transaction (tables : Tables) : Call → Except RepositoryError Tables
  | .createConversation request => createConversation tables request
  | .appendTurn request => appendTurn tables request
  | .startExecution request => startExecution tables request
  | .checkpointExecution request => checkpointExecution externals tables request
  | .finishExecution request => finishExecution tables request
  | .recordToolCall request => recordToolCall externals tables request
  | .recordToolResult request => recordToolResult tables request
  | .reconcileToolCall request => reconcileToolCall tables request
  | .appendTurnPart request => appendTurnPart tables request
  | .transitionTurn request => transitionTurn tables request
  | .switchModel request => switchModel tables request
  | .setStatus request => setStatus tables request
  | .reopen nowMs => recoverIncompleteRuns nowMs tables

/-- What a call reads back after its commit. -/
def readBack (tables : Tables) : Call → Except RepositoryError Reply
  | .createConversation request =>
      .conversation <$> tables.getConversationRecord request.conversationId request.ownerId
  | .appendTurn request => .turn <$> tables.getTurn request.conversationId request.turnId
  | .startExecution request => .execution <$> tables.getExecution request.executionId
  | .checkpointExecution request => .execution <$> tables.getExecution request.executionId
  | .finishExecution request => .execution <$> tables.getExecution request.executionId
  | .recordToolCall request => .toolCall <$> tables.getToolCall request.callId
  | .recordToolResult request => .toolCall <$> tables.getToolCall request.callId
  | .reconcileToolCall request => .toolCall <$> tables.getToolCall request.callId
  | .appendTurnPart request => .turn <$> tables.getTurn request.conversationId request.turnId
  | .transitionTurn request => .turn <$> tables.getTurn request.conversationId request.turnId
  | .switchModel request =>
      .conversation <$> tables.getConversationRecord request.conversationId request.ownerId
  | .setStatus request =>
      .conversation <$> tables.getConversationRecord request.conversationId request.ownerId
  | .reopen _ => .ok .opened

structure Outcome where
  reply : Except RepositoryError Reply
  tables : Tables

/-- A failed transaction is rolled back; a committed one stays, whatever the read after it
answers. -/
def perform (tables : Tables) (call : Call) : Outcome :=
  match transaction externals tables call with
  | .error error => ⟨.error error, tables⟩
  | .ok committed => ⟨readBack committed call, committed⟩

/-- The tables after a call. -/
def step (tables : Tables) (call : Call) : Tables :=
  (perform externals tables call).tables

/-- The tables after these calls on a new database, in the order in which the store
serialises them. -/
def reached (calls : List Call) : Tables :=
  run (step externals) Tables.empty calls

end

/-! ### The start of a sample run -/

/-- A run without tool calls and checkpoints reads no JSON and takes no digest. -/
def plainExternals : Externals := ⟨fun text => text == "{}", fun text => text == "{}", id⟩

def conversationOpened : Call :=
  .createConversation
    { conversationId := "conv-1", ownerId := "owner-a", title := "Test"
      connectionId := "local", modelId := "model-a", createdAtMs := 1 }

end Aegis.Conversation
