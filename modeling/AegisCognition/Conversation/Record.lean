import AegisCognition.Foundation.Machine
import AegisCognition.Foundation.Table
import AegisCognition.Foundation.Text

/-!
# Rows and requests of the conversation repository

The repository owns six tables: conversations, their turns, the parts of a turn, the
executions that answer a turn, the checkpoints of an execution and the tool calls of a
conversation. A status column only ever holds one of the texts that its writers accept,
so it is an enumeration here, and a request that carries a status as text is parsed by the
check that the source makes on it.

Integers are stored as `i64` and handed out as `u64`; every write converts from `u64`, so
a stored integer is a natural number below `2 ^ 63`.
-/

namespace Aegis.Conversation

open Foundation

inductive ConversationStatus
  | active | interrupted | completed | failed
  deriving DecidableEq

inductive TurnStatus
  | queued | running | waitingApproval | completed | failed | cancelled | interrupted
  deriving DecidableEq

inductive ExecutionStatus
  | running | completed | failed | cancelled | interrupted
  deriving DecidableEq

inductive ToolCallStatus
  | requested | completed | failed | cancelled | ambiguous
  deriving DecidableEq

inductive Role
  | system | user | assistant | tool
  deriving DecidableEq

inductive PartKind
  | text | imageRef | audioRef | fileRef | toolCall | toolResult | providerExtension
  deriving DecidableEq

/-- The four statuses in which an execution can be finished. -/
inductive TerminalStatus
  | completed | failed | cancelled | interrupted

def TerminalStatus.toTurn : TerminalStatus → TurnStatus
  | .completed => .completed
  | .failed => .failed
  | .cancelled => .cancelled
  | .interrupted => .interrupted

def TerminalStatus.toExecution : TerminalStatus → ExecutionStatus
  | .completed => .completed
  | .failed => .failed
  | .cancelled => .cancelled
  | .interrupted => .interrupted

/-- The turn waits for something: it is queued, running or waiting for an approval. -/
def TurnStatus.isOpen : TurnStatus → Bool
  | .queued | .running | .waitingApproval => true
  | _ => false

/-- The call has been answered, refused or given up. -/
def ToolCallStatus.isSettled : ToolCallStatus → Bool
  | .requested | .ambiguous => false
  | _ => true

structure ConversationRecord where
  conversationId : String
  ownerId : String
  title : String
  connectionId : String
  modelId : String
  status : ConversationStatus
  revision : Nat
  createdAtMs : Nat
  updatedAtMs : Nat
  deriving DecidableEq

/-- A row of `conversation_turns`. -/
structure TurnRow where
  conversationId : String
  turnId : String
  ordinal : Nat
  role : Role
  status : TurnStatus
  connectionId : Option String
  modelId : Option String
  revision : Nat
  createdAtMs : Nat
  finishedAtMs : Option Nat
  executionId : Option String
  deriving DecidableEq

/-- A turn as it is handed out: its row with the joined content of its parts. -/
structure ConversationTurnRecord extends TurnRow where
  content : String

structure ConversationPartRecord where
  conversationId : String
  turnId : String
  partIndex : Nat
  kind : PartKind
  content : String
  deriving DecidableEq

structure ConversationExecutionRecord where
  executionId : String
  conversationId : String
  turnId : String
  providerKind : String
  connectionId : String
  modelId : String
  status : ExecutionStatus
  checkpointSeq : Nat
  revision : Nat
  startedAtMs : Nat
  finishedAtMs : Option Nat
  deriving DecidableEq

structure ConversationCheckpointRecord where
  executionId : String
  sequence : Nat
  state : String
  continuationJson : String
  continuationHash : String
  createdAtMs : Nat
  deriving DecidableEq

structure ConversationToolCallRecord where
  callId : String
  conversationId : String
  requestTurnId : String
  resultTurnId : Option String
  toolName : String
  argumentsJson : String
  resultContent : Option String
  status : ToolCallStatus
  revision : Nat
  createdAtMs : Nat
  completedAtMs : Option Nat
  deriving DecidableEq

/-- The tables of the repository, each in insertion order. -/
structure Tables where
  conversations : List ConversationRecord
  turns : List TurnRow
  parts : List ConversationPartRecord
  executions : List ConversationExecutionRecord
  checkpoints : List ConversationCheckpointRecord
  toolCalls : List ConversationToolCallRecord
  deriving DecidableEq

/-- The tables that opening a new database creates. -/
def Tables.empty : Tables := ⟨[], [], [], [], [], []⟩

structure ConversationSnapshot where
  conversation : ConversationRecord
  turns : List ConversationTurnRecord
  parts : List ConversationPartRecord
  executions : List ConversationExecutionRecord
  checkpoints : List ConversationCheckpointRecord
  toolCalls : List ConversationToolCallRecord

/-- What the store itself refuses. -/
inductive SqliteError
  | queryReturnedNoRows | constraintViolation | invalidColumnType
  deriving DecidableEq

inductive RepositoryError
  | sqlite (error : SqliteError)
  | invalidInput (message : String)
  | conflict (message : String)
  | notFound
  deriving DecidableEq

/-! ### Keys -/

/-- The primary key of a turn. -/
def TurnRow.key (turn : TurnRow) : String × String := (turn.conversationId, turn.turnId)

/-- The turn a part belongs to. -/
def ConversationPartRecord.turnKey (part : ConversationPartRecord) : String × String :=
  (part.conversationId, part.turnId)

/-- The turn an execution answers. -/
def ConversationExecutionRecord.turnKey (execution : ConversationExecutionRecord) :
    String × String :=
  (execution.conversationId, execution.turnId)

def ConversationToolCallRecord.requestKey (call : ConversationToolCallRecord) : String × String :=
  (call.conversationId, call.requestTurnId)

/-! ### Bounds -/

def maxIdBytes : Nat := 128
def maxTitleBytes : Nat := 256
def maxModelBytes : Nat := 256
def maxConnectionBytes : Nat := 128
def maxRoleBytes : Nat := 32
def maxPartKindBytes : Nat := 32
def maxStatusBytes : Nat := 32
def maxProviderBytes : Nat := 64
def maxContentBytes : Nat := 4 * 1024 * 1024
def maxContinuationBytes : Nat := 256 * 1024

/-- The largest `i64`, the largest integer a column holds. -/
abbrev i64Max : Nat := 2 ^ 63 - 1

def nextRevision (current : Nat) : Except RepositoryError Nat :=
  if current + 1 ≤ u64Max then .ok (current + 1)
  else .error (.conflict "conversation revision overflow")

def toI64Revision (value : Nat) : Except RepositoryError Nat :=
  if value ≤ i64Max then .ok value else .error (.conflict "revision out of range")

def toI64Timestamp (value : Nat) : Except RepositoryError Nat :=
  if value ≤ i64Max then .ok value else .error (.invalidInput "timestamp out of range")

/-! ### Texts of the enumerations -/

def Role.parse : String → Option Role
  | "system" => some .system
  | "user" => some .user
  | "assistant" => some .assistant
  | "tool" => some .tool
  | _ => none

def PartKind.parse : String → Option PartKind
  | "TEXT" => some .text
  | "IMAGE_REF" => some .imageRef
  | "AUDIO_REF" => some .audioRef
  | "FILE_REF" => some .fileRef
  | "TOOL_CALL" => some .toolCall
  | "TOOL_RESULT" => some .toolResult
  | "PROVIDER_EXTENSION" => some .providerExtension
  | _ => none

def ConversationStatus.parse : String → Option ConversationStatus
  | "ACTIVE" => some .active
  | "INTERRUPTED" => some .interrupted
  | "COMPLETED" => some .completed
  | "FAILED" => some .failed
  | _ => none

def TurnStatus.parse : String → Option TurnStatus
  | "QUEUED" => some .queued
  | "RUNNING" => some .running
  | "WAITING_APPROVAL" => some .waitingApproval
  | "COMPLETED" => some .completed
  | "FAILED" => some .failed
  | "CANCELLED" => some .cancelled
  | "INTERRUPTED" => some .interrupted
  | _ => none

def TerminalStatus.parse : String → Option TerminalStatus
  | "COMPLETED" => some .completed
  | "FAILED" => some .failed
  | "CANCELLED" => some .cancelled
  | "INTERRUPTED" => some .interrupted
  | _ => none

/-- The statuses a tool result can report. -/
def ToolCallStatus.parseResult : String → Option ToolCallStatus
  | "COMPLETED" => some .completed
  | "FAILED" => some .failed
  | _ => none

/-- The statuses an operator can reconcile an ambiguous call to. -/
def ToolCallStatus.parseReconciliation : String → Option ToolCallStatus
  | "CANCELLED" => some .cancelled
  | "FAILED" => some .failed
  | _ => none

def turnTransitionAllowed : TurnStatus → TurnStatus → Bool
  | .queued, .running => true
  | .queued, .waitingApproval => true
  | .queued, .cancelled => true
  | .queued, .interrupted => true
  | .running, .waitingApproval => true
  | .running, .completed => true
  | .running, .failed => true
  | .running, .cancelled => true
  | .running, .interrupted => true
  | .waitingApproval, .running => true
  | .waitingApproval, .cancelled => true
  | .waitingApproval, .interrupted => true
  | _, _ => false

/-! ### Requests -/

/-- What every revisioned request carries: the conversation and its owner, the revision the
client has seen, and the time of the request. -/
structure Scope where
  conversationId : String
  ownerId : String
  expectedRevision : Nat
  atMs : Nat

structure CreateConversation where
  conversationId : String
  ownerId : String
  title : String
  connectionId : String
  modelId : String
  createdAtMs : Nat

structure AppendTurn extends Scope where
  turnId : String
  role : String
  content : String
  connectionId : Option String
  modelId : Option String
  status : String

structure StartExecution extends Scope where
  executionId : String
  turnId : String
  providerKind : String
  connectionId : String
  modelId : String

structure CheckpointExecution extends Scope where
  executionId : String
  sequence : Nat
  state : String
  continuationJson : String

structure FinishExecution extends Scope where
  executionId : String
  status : String

structure RecordToolCall extends Scope where
  callId : String
  requestTurnId : String
  toolName : String
  argumentsJson : String

structure RecordToolResult extends Scope where
  callId : String
  resultTurnId : String
  resultContent : String
  status : String

structure ReconcileToolCall extends Scope where
  callId : String
  status : String
  note : String

structure AppendTurnPart extends Scope where
  turnId : String
  kind : String
  content : String

structure TransitionTurn extends Scope where
  turnId : String
  status : String

structure SwitchModel extends Scope where
  connectionId : String
  modelId : String

structure SetStatus extends Scope where
  status : String

/-! ### Input checks -/

/-- The text is blank or longer than its column allows. -/
def isUnusable (limit : Nat) (text : String) : Bool :=
  isBlank text || text.utf8ByteSize > limit

def validateIdentity (conversationId ownerId turnId : String) : Except RepositoryError Unit :=
  if isUnusable maxIdBytes conversationId || isUnusable maxIdBytes ownerId ||
      isUnusable maxIdBytes turnId then
    .error (.invalidInput "invalid conversation identity")
  else .ok ()

def validateConnectionModel (connectionId modelId : String) (timestamp : Nat) :
    Except RepositoryError Unit :=
  if isUnusable maxConnectionBytes connectionId || isUnusable maxModelBytes modelId ||
      timestamp == 0 then
    .error (.invalidInput "invalid connection or model selection")
  else .ok ()

def validateConversation (request : CreateConversation) : Except RepositoryError Unit :=
  if isUnusable maxIdBytes request.conversationId || isUnusable maxIdBytes request.ownerId ||
      isUnusable maxTitleBytes request.title || request.createdAtMs == 0 then
    .error (.invalidInput "invalid conversation metadata")
  else validateConnectionModel request.connectionId request.modelId request.createdAtMs

def validateStatus (status : String) : Except RepositoryError ConversationStatus :=
  match ConversationStatus.parse status with
  | some parsed => .ok parsed
  | none => .error (.invalidInput "invalid conversation status")

def validateTurnStatus (status : String) : Except RepositoryError TurnStatus :=
  match TurnStatus.parse status with
  | some parsed => .ok parsed
  | none => .error (.invalidInput "invalid conversation turn status")

def validatePartKind (kind : String) : Except RepositoryError PartKind :=
  match PartKind.parse kind with
  | some parsed => .ok parsed
  | none => .error (.invalidInput "invalid conversation part kind")

/-- An optional column of a turn: absent, or a usable text. -/
def validateOptional (limit : Nat) (message : String) (text : Option String) :
    Except RepositoryError Unit :=
  if text.any (isUnusable limit) then .error (.invalidInput message) else .ok ()

/-- Only an open turn may start without content. -/
def validateTurn (request : AppendTurn) : Except RepositoryError (Role × TurnStatus) := do
  let invalid := isUnusable maxIdBytes request.conversationId ||
    isUnusable maxIdBytes request.ownerId || isUnusable maxIdBytes request.turnId ||
    isUnusable maxRoleBytes request.role ||
    (request.content.isEmpty && !(TurnStatus.parse request.status).any TurnStatus.isOpen) ||
    request.content.utf8ByteSize > maxContentBytes ||
    request.status.utf8ByteSize > maxStatusBytes || request.atMs == 0
  match Role.parse request.role, invalid with
  | some role, false =>
      let status ← validateTurnStatus request.status
      validateOptional maxConnectionBytes "invalid turn connection_id" request.connectionId
      validateOptional maxModelBytes "invalid turn model_id" request.modelId
      pure (role, status)
  | _, _ => .error (.invalidInput "invalid conversation turn")

end Aegis.Conversation
