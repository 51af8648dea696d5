import AegisCognition.Foundation.Bytes

/-!
# Run events

The records of a run's history, their kinds, and the hashes that bind them. The hash
function is a parameter: it takes the byte string that the source feeds to its hasher.
No fact about it is assumed here.

Numbers are fixed-width words. An event is valid when its own hash and the fields that
its kind calls for are in order; what it may follow is the ledger's business.
-/

namespace Aegis.Replay

open Foundation

abbrev EventId := BitVec 64
abbrev RunId := BitVec 128
abbrev SubjectId := BitVec 128

/-- A digest: 32 bytes. -/
structure Hash where
  bytes : List UInt8
  length_eq : bytes.length = 32
  deriving DecidableEq

namespace Hash

attribute [simp] Hash.length_eq

/-- The digest all of whose bytes are the given one. -/
def fill (byte : UInt8) : Hash :=
  ⟨List.replicate 32 byte, List.length_replicate⟩

def zero : Hash := fill 0

/-- The digest whose bytes denote the given number. -/
def ofNat (value : Nat) : Hash :=
  ⟨leBytes 32 value, length_leBytes 32 value⟩

instance : Inhabited Hash := ⟨zero⟩

end Hash

/-- A hash function as its callers see it. -/
abbrev Hasher := List UInt8 → Hash

/-- The hash function that is known on finitely many inputs. -/
def Hasher.ofTable (table : List (List UInt8 × Hash)) : Hasher := fun input =>
  (table.lookup input).getD Hash.zero

def nonzeroHash (hash : Hash) : Bool :=
  hash.bytes.any (· != 0)

def u32Bytes (value : BitVec 32) : List UInt8 := leBytes 4 value.toNat
def u64Bytes (value : BitVec 64) : List UInt8 := leBytes 8 value.toNat
def u128Bytes (value : BitVec 128) : List UInt8 := leBytes 16 value.toNat

@[simp] theorem length_u64Bytes (value : BitVec 64) : (u64Bytes value).length = 8 :=
  length_leBytes 8 _

@[simp] theorem length_u128Bytes (value : BitVec 128) : (u128Bytes value).length = 16 :=
  length_leBytes 16 _

@[simp] theorem ofNat_ofLeBytes_u64Bytes (value : BitVec 64) :
    BitVec.ofNat 64 (ofLeBytes (u64Bytes value)) = value := by
  rw [u64Bytes, ofLeBytes_leBytes value.isLt, BitVec.ofNat_toNat, BitVec.setWidth_eq]

@[simp] theorem ofNat_ofLeBytes_u128Bytes (value : BitVec 128) :
    BitVec.ofNat 128 (ofLeBytes (u128Bytes value)) = value := by
  rw [u128Bytes, ofLeBytes_leBytes value.isLt, BitVec.ofNat_toNat, BitVec.setWidth_eq]

/-- The bytes that a hasher with this domain has read. -/
def domainMessage (domain : String) (payload : List UInt8) : List UInt8 :=
  utf8Bytes domain ++ 0 :: payload

def boolByte (flag : Bool) : UInt8 := if flag then 1 else 0

inductive RunEventKind where
  | missionCompiled
  | contextPackBuilt
  | llmResponseReceived
  | toolCallRequested
  | toolCallCompleted
  | checkpointSealed
  | configChanged
  | workCancelled
  | policyDecisionRecorded
  | approvalTokenRecorded
  | operatorReviewArtifactRecorded
  | coldVectorExpansionRecorded
  | circuitBreakerTripped
  | contextFoldRecorded
  | memoryCommitRecorded
  | contextPackCandidateProofRecorded
  | taskSelectionProofRecorded
  | browserObservationPacketRecorded
  | goalIntakeRecorded
  | agenticEvidenceExecutionRecorded
  | skillAdmissionRecorded
  | browserOpsBenchVerificationRecorded
  | clusterCandidateAccepted
  | shadowSealRecorded
  | labEventRecorded
  deriving DecidableEq

namespace RunEventKind

/-- The discriminant of the source's `repr(u8)` enumeration. -/
def toU8 : RunEventKind → UInt8
  | missionCompiled => 0
  | contextPackBuilt => 1
  | llmResponseReceived => 2
  | toolCallRequested => 3
  | toolCallCompleted => 4
  | checkpointSealed => 5
  | configChanged => 6
  | workCancelled => 7
  | policyDecisionRecorded => 8
  | approvalTokenRecorded => 9
  | operatorReviewArtifactRecorded => 10
  | coldVectorExpansionRecorded => 11
  | circuitBreakerTripped => 12
  | contextFoldRecorded => 13
  | memoryCommitRecorded => 14
  | contextPackCandidateProofRecorded => 15
  | taskSelectionProofRecorded => 16
  | browserObservationPacketRecorded => 17
  | goalIntakeRecorded => 18
  | agenticEvidenceExecutionRecorded => 19
  | skillAdmissionRecorded => 20
  | browserOpsBenchVerificationRecorded => 21
  | clusterCandidateAccepted => 22
  | shadowSealRecorded => 23
  | labEventRecorded => 24

def fromU8 : UInt8 → Option RunEventKind
  | 0 => some missionCompiled
  | 1 => some contextPackBuilt
  | 2 => some llmResponseReceived
  | 3 => some toolCallRequested
  | 4 => some toolCallCompleted
  | 5 => some checkpointSealed
  | 6 => some configChanged
  | 7 => some workCancelled
  | 8 => some policyDecisionRecorded
  | 9 => some approvalTokenRecorded
  | 10 => some operatorReviewArtifactRecorded
  | 11 => some coldVectorExpansionRecorded
  | 12 => some circuitBreakerTripped
  | 13 => some contextFoldRecorded
  | 14 => some memoryCommitRecorded
  | 15 => some contextPackCandidateProofRecorded
  | 16 => some taskSelectionProofRecorded
  | 17 => some browserObservationPacketRecorded
  | 18 => some goalIntakeRecorded
  | 19 => some agenticEvidenceExecutionRecorded
  | 20 => some skillAdmissionRecorded
  | 21 => some browserOpsBenchVerificationRecorded
  | 22 => some clusterCandidateAccepted
  | 23 => some shadowSealRecorded
  | 24 => some labEventRecorded
  | _ => none

@[simp] theorem fromU8_toU8 (kind : RunEventKind) : fromU8 kind.toU8 = some kind := by
  cases kind <;> rfl

/-- The kinds whose events must carry a secondary hash. -/
def requiresSecondaryHash : RunEventKind → Bool
  | contextPackBuilt | contextPackCandidateProofRecorded | llmResponseReceived
  | toolCallCompleted | policyDecisionRecorded | approvalTokenRecorded
  | operatorReviewArtifactRecorded | coldVectorExpansionRecorded
  | agenticEvidenceExecutionRecorded | skillAdmissionRecorded
  | browserOpsBenchVerificationRecorded | clusterCandidateAccepted | shadowSealRecorded
  | circuitBreakerTripped | contextFoldRecorded | memoryCommitRecorded
  | taskSelectionProofRecorded | browserObservationPacketRecorded | goalIntakeRecorded
  | labEventRecorded => true
  | _ => false

end RunEventKind

structure RunEvent where
  eventId : EventId
  runId : RunId
  kind : RunEventKind
  subjectId : SubjectId
  primaryHash : Hash
  secondaryHash : Option Hash
  previousEventHash : Hash
  eventHash : Hash
  deriving DecidableEq

section Hashing

def optionalHashBytes : Option Hash → List UInt8
  | some hash => 1 :: hash.bytes
  | none => [0]

def runEventPreimage (eventId : EventId) (runId : RunId) (kind : RunEventKind)
    (subjectId : SubjectId) (primaryHash : Hash) (secondaryHash : Option Hash)
    (previousEventHash : Hash) : List UInt8 :=
  u64Bytes eventId ++ u128Bytes runId ++ [kind.toU8] ++ u128Bytes subjectId ++
    primaryHash.bytes ++ optionalHashBytes secondaryHash ++ previousEventHash.bytes

def toolCallCompletionPreimage (callId : SubjectId) (typedToolIrHash : Hash)
    (policyProofTraceHash : Hash) (toolExecutionEvidenceHash : Hash) : List UInt8 :=
  utf8Bytes "aegis-tool-call-completion-binding-v1" ++ u128Bytes callId ++
    typedToolIrHash.bytes ++ policyProofTraceHash.bytes ++ toolExecutionEvidenceHash.bytes

def memoryCommitPreimage (sessionId : SubjectId) (toolExecutionEvidenceHash : Hash)
    (memoryCommitProofHash : Hash) : List UInt8 :=
  utf8Bytes "aegis-memory-commit-binding-v1" ++ u128Bytes sessionId ++
    toolExecutionEvidenceHash.bytes ++ memoryCommitProofHash.bytes

variable (blake3 : Hasher)

def computeRunEventHash (eventId : EventId) (runId : RunId) (kind : RunEventKind)
    (subjectId : SubjectId) (primaryHash : Hash) (secondaryHash : Option Hash)
    (previousEventHash : Hash) : Hash :=
  blake3 (runEventPreimage eventId runId kind subjectId primaryHash secondaryHash
    previousEventHash)

def toolCallCompletionBindingHash (callId : SubjectId) (typedToolIrHash : Hash)
    (policyProofTraceHash : Hash) (toolExecutionEvidenceHash : Hash) : Hash :=
  blake3 (toolCallCompletionPreimage callId typedToolIrHash policyProofTraceHash
    toolExecutionEvidenceHash)

def memoryCommitBindingHash (sessionId : SubjectId) (toolExecutionEvidenceHash : Hash)
    (memoryCommitProofHash : Hash) : Hash :=
  blake3 (memoryCommitPreimage sessionId toolExecutionEvidenceHash memoryCommitProofHash)

namespace RunEvent

def computeHash (event : RunEvent) : Hash :=
  computeRunEventHash blake3 event.eventId event.runId event.kind event.subjectId
    event.primaryHash event.secondaryHash event.previousEventHash

/-- The constructor that every named one goes through: the event hash is computed last. -/
def new (eventId : EventId) (runId : RunId) (kind : RunEventKind) (subjectId : SubjectId)
    (primaryHash : Hash) (secondaryHash : Option Hash) (previousEventHash : Hash) : RunEvent :=
  let event : RunEvent :=
    { eventId, runId, kind, subjectId, primaryHash, secondaryHash, previousEventHash,
      eventHash := Hash.zero }
  { event with eventHash := event.computeHash blake3 }

def isValid (event : RunEvent) : Bool :=
  0 < event.runId && 0 < event.eventId && nonzeroHash event.primaryHash &&
    event.secondaryHash.all nonzeroHash && event.eventHash == event.computeHash blake3 &&
    (!event.kind.requiresSecondaryHash || event.secondaryHash.isSome)

end RunEvent

end Hashing

end Aegis.Replay
