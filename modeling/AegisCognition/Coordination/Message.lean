import AegisCognition.Coordination.Canonical

/-!
# Packets and messages

What children and the root exchange: result packets with claims and artifact references, and the
envelopes that carry requests and results. Every record checks its own fields; packets and
messages also bound the size of their canonical bytes.
-/

namespace Aegis.Coordination

open Foundation JsonValue Text List

def maxArtifacts : Nat := 64
def maxMessageBytes : Nat := 64 * 1024

def text (value : String) : JsonValue := .text (ofString value)

/-- An object with the given keys. -/
def dict (members : List (String × JsonValue)) : JsonValue :=
  .dict (members.map fun member => (ofString member.1, member.2))

def texts (values : List Text) : JsonValue := .list (values.map .text)

def optional (value : Option JsonValue) : JsonValue := value.getD .null

section Json

variable {members : List (String × JsonValue)}

/-- The keys of the objects that the code builds are ASCII texts. -/
theorem hasSurrogate_dict (keys : List String) (same : members.map Prod.fst = keys)
    (plain : keys.all fun key => key.toList.all fun c => c.toNat < 0x80) :
    (dict members).hasSurrogate = members.any fun member => member.2.hasSurrogate := by
  rw [dict, hasSurrogate, membersHaveSurrogate_eq, any_map]
  induction members generalizing keys with
  | nil => rfl
  | cons member members ih =>
      obtain rfl := same
      rw [map_cons, all_cons, Bool.and_eq_true] at plain
      rw [any_cons, any_cons, ih _ rfl plain.2, Function.comp_apply,
        any_ofString _ plain.1, Bool.false_or]

theorem hasLongInt_dict :
    (dict members).hasLongInt = members.any fun member => member.2.hasLongInt := by
  rw [dict, hasLongInt, membersHaveLongInt_eq, any_map]
  rfl

theorem hasSurrogate_texts {values : List Text} :
    (texts values).hasSurrogate = values.any fun value => value.any isSurrogate := by
  rw [texts, hasSurrogate, itemsHaveSurrogate_eq, any_map]
  rfl

theorem hasLongInt_texts {values : List Text} : (texts values).hasLongInt = false := by
  rw [texts, hasLongInt, itemsHaveLongInt_eq, any_map]
  exact any_eq_false.mpr fun _ _ => Bool.false_ne_true

end Json

structure AgentArtifactRef where
  «namespace» : Text
  artifactId : Text
  uri : Text
  digest : Text
  sizeBytes : Nat
  mediaType : Text
  redacted : Bool

namespace AgentArtifactRef

def validate (artifact : AgentArtifactRef) : Except CoordinationError Unit := do
  nonEmpty artifact.namespace "artifact namespace" maxStringChars
  nonEmpty artifact.artifactId "artifact id" maxStringChars
  nonEmpty artifact.uri "artifact uri" maxStringChars
  checkDigest artifact.digest "artifact digest"
  nonEmpty artifact.mediaType "artifact media_type" maxStringChars

def asDict (artifact : AgentArtifactRef) : Except CoordinationError JsonValue := do
  artifact.validate
  .ok <| dict
    [("namespace", .text artifact.namespace), ("artifact_id", .text artifact.artifactId),
      ("uri", .text artifact.uri), ("digest", .text artifact.digest),
      ("size_bytes", .int artifact.sizeBytes), ("media_type", .text artifact.mediaType),
      ("redacted", .bool artifact.redacted)]

end AgentArtifactRef

structure AgentClaim where
  statement : Text
  evidenceClass : Text
  evidenceRefs : List Text

/-- The parent of a task has an id of its own. -/
def checkParent (taskId : Nat) (parentTaskId : Option Nat) (name : String) :
    Except CoordinationError Unit :=
  checkSome
    (fun parent => do
      positiveId parent name
      require (parent != taskId) (name ++ " cannot equal task_id"))
    parentTaskId

/-! ### Messages -/

inductive MessageKind
  | taskRequest | taskResult

def MessageKind.name : MessageKind → String
  | taskRequest => "TASK_REQUEST"
  | taskResult => "TASK_RESULT"

structure AgentMessage where
  messageKind : MessageKind
  runId : Text
  senderId : Text
  recipientId : Text
  taskId : Nat
  parentTaskId : Option Nat
  attemptId : Nat
  idempotencyKey : Text
  payload : List (Text × JsonValue)
  artifactRefs : List AgentArtifactRef
  tokenBudget : Option Nat
  deadlineMs : Option Nat

def root : Text := ofString "root"

/-- The name of a child, `subagent:` and its number. -/
def subagent (taskId : Nat) : Except CoordinationError Text := do
  .ok (ofString "subagent:" ++ (← ofInt taskId))

namespace AgentMessage

def payloadDict (message : AgentMessage) : Except CoordinationError JsonValue := do
  let artifacts ← message.artifactRefs.mapM AgentArtifactRef.asDict
  .ok <| dict
    [("schema", text "aegis-agent-message-v1"), ("message_kind", text message.messageKind.name),
      ("run_id", .text message.runId), ("sender_id", .text message.senderId),
      ("recipient_id", .text message.recipientId), ("task_id", .int message.taskId),
      ("parent_task_id", optional (message.parentTaskId.map .int)),
      ("attempt_id", .int message.attemptId), ("idempotency_key", .text message.idempotencyKey),
      ("payload", .dict message.payload), ("artifact_refs", .list artifacts),
      ("token_budget", optional (message.tokenBudget.map .int)),
      ("deadline_ms", optional (message.deadlineMs.map .int))]

def messageHash (sha256 : Sha256) (message : AgentMessage) : Except CoordinationError Text := do
  digestOf sha256 (← message.payloadDict)

/-- The bytes of the message that its hash is made of. -/
def hashedBytes (message : AgentMessage) : Except CoordinationError (List UInt8) := do
  canonicalBytes (← message.payloadDict)

theorem messageHash_of_hashedBytes {sha256 : Sha256} (message : AgentMessage) {bytes : List UInt8}
    (hashed : message.hashedBytes = .ok bytes) :
    message.messageHash sha256 = .ok (sha256 bytes) := by
  rw [hashedBytes] at hashed
  rw [messageHash]
  cases payload : message.payloadDict with
  | error => simp [payload, bind, Except.bind] at hashed
  | ok value =>
      simp only [payload, bind, Except.bind] at hashed
      simp [digestOf, hashed, bind, Except.bind]

/-- Who sends the message to whom. -/
def checkRouting (message : AgentMessage) : Except CoordinationError Unit := do
  let child ← subagent message.taskId
  match message.messageKind with
  | .taskRequest =>
    require (message.senderId == root && message.recipientId == child)
      "task request routing identity is invalid"
  | .taskResult =>
    require (message.senderId == child && message.recipientId == root)
      "task result sender identity is invalid"

def validate (message : AgentMessage) : Except CoordinationError Unit := do
  nonEmpty message.runId "message run_id" 128
  nonEmpty message.senderId "message sender_id" 128
  nonEmpty message.recipientId "message recipient_id" 128
  positiveId message.taskId "message task_id"
  checkParent message.taskId message.parentTaskId "message parent_task_id"
  positiveInt message.attemptId "message attempt_id"
  nonEmpty message.idempotencyKey "message idempotency_key" 256
  message.checkRouting
  require (message.payload.all fun member => !member.1.isBlank && member.1.all (· != 0))
    "message payload keys must be bounded text"
  require (decide (message.artifactRefs.length ≤ maxArtifacts))
    "message artifact_refs exceed their bound"
  checkEach AgentArtifactRef.validate message.artifactRefs
  checkSome (positiveInt · "message token_budget") message.tokenBudget
  checkSome (positiveInt · "message deadline_ms") message.deadlineMs
  let bytes ← canonicalBytes (← message.payloadDict)
  require (decide (bytes.length ≤ maxMessageBytes)) "message exceeds its bounded wire size"

/-- The members of the envelope and its hash. -/
def asDict (sha256 : Sha256) (message : AgentMessage) : Except CoordinationError JsonValue := do
  message.validate
  let payload ← message.payloadDict
  let messageHash ← message.messageHash sha256
  match payload with
  | .dict members => .ok (.dict (members ++ [(ofString "message_hash", .text messageHash)]))
  | other => .ok other

def toBytes (sha256 : Sha256) (message : AgentMessage) :
    Except CoordinationError (List UInt8) := do
  let encoded ← canonicalBytes (← message.asDict sha256)
  require (decide (encoded.length ≤ maxMessageBytes)) "message exceeds its bounded wire size"
  .ok encoded

end AgentMessage

/-! ### Result packets -/

inductive ResultStatus
  | succeeded | failed | blocked | cancelled | timedOut

structure AgentResultPacket where
  runId : Text
  taskId : Nat
  parentTaskId : Option Nat
  attemptId : Nat
  status : ResultStatus
  summary : Text
  claims : List AgentClaim := []
  artifacts : List AgentArtifactRef := []
  uncertainty : List Text := []
  blockers : List Text := []
  tokensIn : Nat := 0
  tokensOut : Nat := 0
  elapsedMs : Nat := 0
  errorCode : Option Text := none

end Aegis.Coordination
