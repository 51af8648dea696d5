import AegisCognition.Foundation.Bytes
import AegisCognition.Foundation.Machine
import AegisCognition.Foundation.Scan
import AegisCognition.Foundation.Table
import AegisCognition.Foundation.Text

/-!
# Rows and requests of the memory repository

The repository owns the memory records with their revisions, events, nudge provenance and file
relations, the grants that let others use a scope of an owner, and a text index over the
memories that can be found. A lifecycle, a validation or an event type is only ever written
from a constant of the source, so these columns are enumerations here.

An identifier is a `u128` whose decimal text is stored, so it is kept as the number. Other
integers are stored as `i64` and converted from `u64` on every write.

Hashes have a type of their own: all that the repository does with them is to store and to
compare them.
-/

namespace Aegis.MemoryStore

open Foundation

abbrev Id := BitVec 128

inductive Lifecycle
  | candidate | active | tombstoned | purged
  deriving DecidableEq

inductive Validation
  | unreviewed | accepted | rejected | quarantined
  deriving DecidableEq

inductive EventType
  | memoryCandidateCreated | memoryValidated | memoryCorrected | memoryTombstoned
  | memoryRestored | memoryPurged
  deriving DecidableEq

/-- The three operations that share `transition`. -/
inductive TransitionKind
  | forget | restore | purge

def Lifecycle.text : Lifecycle → String
  | .candidate => "CANDIDATE"
  | .active => "ACTIVE"
  | .tombstoned => "TOMBSTONED"
  | .purged => "PURGED"

def EventType.text : EventType → String
  | .memoryCandidateCreated => "MemoryCandidateCreated"
  | .memoryValidated => "MemoryValidated"
  | .memoryCorrected => "MemoryCorrected"
  | .memoryTombstoned => "MemoryTombstoned"
  | .memoryRestored => "MemoryRestored"
  | .memoryPurged => "MemoryPurged"

def TransitionKind.nextLifecycle : TransitionKind → Lifecycle
  | .forget => .tombstoned
  | .restore => .candidate
  | .purge => .purged

def TransitionKind.eventType : TransitionKind → EventType
  | .forget => .memoryTombstoned
  | .restore => .memoryRestored
  | .purge => .memoryPurged

/-- The memory is neither forgotten nor purged. -/
def Lifecycle.isLive : Lifecycle → Bool
  | .candidate | .active => true
  | .tombstoned | .purged => false

/-- The decisions that leave a memory among those that can be found. -/
def Validation.isSearchable : Validation → Bool
  | .unreviewed | .accepted => true
  | .rejected | .quarantined => false

/-- The lifecycle of a memory after a decision about it. -/
def Validation.nextLifecycle : Validation → Lifecycle
  | .accepted => .active
  | _ => .candidate

/-! ### Rows -/

structure MemoryNudgeProvenance (H : Type) where
  sourceSessionId : Id
  nudgeId : Id
  nudgeHash : H
  candidateHash : H
  relevanceScoreMicros : Nat
  deriving DecidableEq

/-- A row of `memory_records`. -/
structure MemoryRow (H : Type) where
  memoryId : Id
  ownerId : String
  scopeKind : String
  memoryKind : String
  contentHash : Option H
  content : Option String
  lifecycle : Lifecycle
  validation : Validation
  validationBasis : Option String
  validationReason : Option String
  revision : Nat
  observedAtMs : Nat
  requestId : Id
  requestHash : H
  deriving DecidableEq

/-- A row of `memory_revisions`. -/
structure RevisionRow (H : Type) where
  memoryId : Id
  revision : Nat
  contentHash : H
  content : String
  createdAtMs : Nat
  requestId : Id
  deriving DecidableEq

/-- A row of `memory_events`. Its identifier is the text of `EventRow.key`. -/
structure EventRow (H : Type) where
  memoryId : Id
  eventType : EventType
  revision : Nat
  requestId : Id
  requestHash : H
  contentHash : Option H
  occurredAtMs : Nat
  deriving DecidableEq

def EventRow.key {H : Type} (row : EventRow H) : Id × Nat × EventType :=
  (row.memoryId, row.revision, row.eventType)

/-- A row of `memory_file_relations`. -/
structure FileRelationRow (H : Type) where
  relationId : Id
  memoryId : Id
  ownerId : String
  scopeKind : String
  projectId : String
  relativePath : String
  sourceRevision : String
  sourceContentHash : H
  memoryRevision : Nat
  memoryContentHash : H
  createdAtMs : Nat
  deriving DecidableEq

/-- A row of `memory_access_grants`. -/
structure GrantRow where
  subjectId : String
  ownerId : String
  scopeKind : String
  canRead : Bool
  canWrite : Bool
  expiresAtMs : Option Nat
  revision : Nat
  updatedAtMs : Nat
  revokedAtMs : Option Nat
  deriving DecidableEq

/-- A row of the text index `memory_records_fts`. -/
structure IndexRow where
  memoryId : Id
  ownerId : String
  scopeKind : String
  content : String
  deriving DecidableEq

/-- The row of `memory_index_state`. -/
structure IndexState where
  generation : Nat
  dirtyGeneration : Nat
  updatedAtMs : Nat
  deriving DecidableEq

/-- The tables of the repository. The memories whose index is out of date stand in the order
in which opening the store rebuilds them. -/
structure Tables (H : Type) where
  records : List (MemoryRow H)
  revisions : List (RevisionRow H)
  events : List (EventRow H)
  provenance : List (Id × MemoryNudgeProvenance H)
  relations : List (FileRelationRow H)
  grants : List GrantRow
  indexed : List IndexRow
  indexState : IndexState
  indexDirty : List Id
  deriving DecidableEq

/-- The tables that opening a new database creates. -/
def Tables.empty {H : Type} : Tables H := ⟨[], [], [], [], [], [], [], ⟨0, 0, 0⟩, []⟩

/-- What the store itself refuses. -/
inductive SqliteError
  | constraintViolation | invalidColumnType
  deriving DecidableEq

inductive MemoryRepositoryError
  | sqlite (error : SqliteError)
  | invalidInput (message : String)
  | conflict (message : String)
  | permissionDenied
  | idempotencyConflict
  deriving DecidableEq

/-! ### Requests -/

/-- Who asks, and whose memories of which scope the request is about. -/
structure Access where
  subjectId : String
  ownerId : String
  scopeKind : String

/-- What every request about one memory carries. -/
structure RequestHeader extends Access where
  memoryId : Id
  requestId : Id
  observedAtMs : Nat

structure CaptureRequest extends RequestHeader where
  memoryKind : String
  content : String

structure ValidateRequest extends RequestHeader where
  validation : String
  basis : Option String
  reason : Option String
  expectedRevision : Nat

structure CorrectRequest extends RequestHeader where
  content : String
  expectedRevision : Nat

structure TransitionRequest extends RequestHeader where
  expectedRevision : Option Nat

structure LinkRequest (H : Type) extends Access where
  relationId : Id
  memoryId : Id
  projectId : String
  relativePath : String
  sourceRevision : String
  sourceContentHash : H
  expectedMemoryRevision : Nat
  expectedMemoryContentHash : H
  observedAtMs : Nat

structure UnlinkRequest extends Access where
  relationId : Id
  projectId : String
  relativePath : String
  observedAtMs : Nat

/-- A grant to the subject, made by the actor where one is named. -/
structure GrantRequest extends Access where
  actorId : Option String
  canRead : Bool
  canWrite : Bool
  expiresAtMs : Option Nat
  expectedRevision : Option Nat
  updatedAtMs : Nat

structure RevokeRequest extends Access where
  actorId : Option String
  expectedRevision : Nat
  revokedAtMs : Nat

structure MemoryCaptureOutcome (H : Type) where
  contentHash : H
  created : Bool
  indexPending : Bool
  deriving DecidableEq

structure MemoryFileRelationView (H : Type) where
  relationId : Id
  memoryId : Id
  scopeKind : String
  projectId : String
  relativePath : String
  sourceRevision : String
  sourceContentHash : H
  memoryRevision : Nat
  memoryContentHash : H
  createdAtMs : Nat
  memoryLifecycle : Lifecycle
  memoryValidation : Validation
  memoryContentCurrent : Bool

/-! ### Bounds and texts -/

def maxMemoryContentBytes : Nat := 16 * 1024 * 1024
def maxFileRelationProjectIdBytes : Nat := 256
def maxFileRelationSourceRevisionBytes : Nat := 256
def maxFileRelationPathBytes : Nat := 4096
def maxValidationEvidenceBytes : Nat := 16 * 1024

/-- The largest `i64`, the largest integer a column holds. -/
abbrev i64Max : Nat := 2 ^ 63 - 1

def defaultMemoryKind : String := "SEMANTIC_FACT"

def memoryKinds : List String :=
  [defaultMemoryKind, "USER_ASSERTION", "USER_PREFERENCE", "USER_WORKFLOW", "PROCEDURAL_SKILL",
    "SOURCE_OBSERVED", "EXTERNAL_EVIDENCE"]

def validScope (scopeKind : String) : Bool :=
  ["USER_PRIVATE", "AGENT_PRIVATE", "SESSION", "PROJECT", "EXTERNAL"].contains scopeKind

def validMemoryKind (memoryKind : String) : Bool :=
  memoryKinds.contains memoryKind

/-- The text is blank or longer than a number of bytes. -/
def isUnusable (maxBytes : Nat) (text : String) : Bool :=
  isBlank text || maxBytes < text.utf8ByteSize

/-- An integer as a column holds it. -/
def toI64 (error : MemoryRepositoryError) (value : Nat) : Except MemoryRepositoryError Nat :=
  if value ≤ i64Max then .ok value else .error error

def toI64Timestamp : Nat → Except MemoryRepositoryError Nat :=
  toI64 (.invalidInput "timestamp out of range")

def toI64Revision : Nat → Except MemoryRepositoryError Nat :=
  toI64 (.conflict "memory revision out of range")

/-- The next value of a counter kept as a `u64`. -/
def successor (overflow : String) (value : Nat) : Except MemoryRepositoryError Nat :=
  okOr (.conflict overflow) (checkedAdd u64Max value 1)

/-! ### Hashes -/

/-- What the repository takes from another library: the BLAKE3 digest of a byte string. The
hash of thirty-two zero bytes is the one value that a nudge must not carry. -/
structure Externals (H : Type) where
  blake3 : List UInt8 → H
  zeroHash : H

/-- What both hash functions feed to the hasher after their own label. -/
def scopedBytes (memoryId : Id) (ownerId scopeKind content : String) : List UInt8 :=
  leBytes 16 memoryId.toNat ++ utf8Bytes ownerId ++ 0 :: (utf8Bytes scopeKind ++
    0 :: utf8Bytes content)

def contentMaterial (memoryId : Id) (ownerId scopeKind content : String) : List UInt8 :=
  utf8Bytes "aegis-memory-content-v1" ++ 0 :: scopedBytes memoryId ownerId scopeKind content

/-- The bytes under the hash of a request, whose last part is the text of a memory or the label
of an operation. -/
def requestMaterial (header : RequestHeader) (content : String) : List UInt8 :=
  utf8Bytes "aegis-memory-request-v1" ++ 0 :: (leBytes 16 header.requestId.toNat ++
    scopedBytes header.memoryId header.ownerId header.scopeKind content)

section Hashes

variable {H : Type} (externals : Externals H)

def hashContent (memoryId : Id) (ownerId scopeKind content : String) : H :=
  externals.blake3 (contentMaterial memoryId ownerId scopeKind content)

def hashRequest (header : RequestHeader) (content : String) : H :=
  externals.blake3 (requestMaterial header content)

/-- `MemoryCandidate::content_hash_for`. -/
def candidateHashFor (content : String) : H :=
  externals.blake3 (utf8Bytes "aegis-memory-candidate-v1" ++ 0 :: utf8Bytes content)

end Hashes

/-! ### Checks of requests -/

def validateIdentity (access : Access) (timestampMs : Nat) : Except MemoryRepositoryError Unit :=
  refuseWhen
    (isUnusable 256 access.subjectId || isUnusable 256 access.ownerId ||
      !validScope access.scopeKind || 64 < access.scopeKind.utf8ByteSize || timestampMs == 0)
    (.invalidInput "invalid memory access identity")

/-- The path starts like `C:`. -/
def isDriveAbsolute : List Char → Bool
  | drive :: ':' :: _ => drive.isAlpha
  | _ => false

/-- A part of a path that no relation may go through. -/
def isForbiddenPart (part : List Char) : Bool :=
  part.isEmpty || part == ['.'] || part == ['.', '.'] ||
    part.map Char.toLower == ".git".toList || part.map Char.toLower == ".aegis".toList

def validateFileRelationTarget (projectId relativePath : String) :
    Except MemoryRepositoryError Unit :=
  refuseWhen
    (isUnusable maxFileRelationProjectIdBytes projectId || projectId.toList.any isControl ||
      relativePath.isEmpty || maxFileRelationPathBytes < relativePath.utf8ByteSize ||
      relativePath.toList.head? == some '/' || isDriveAbsolute relativePath.toList ||
      relativePath.toList.contains '\\' || relativePath.toList.any isControl ||
      (relativePath.toList.splitOn '/').any isForbiddenPart)
    (.invalidInput "invalid project or normalized relative path")

def validateFileRelationInput {H : Type} (request : LinkRequest H) :
    Except MemoryRepositoryError Unit := do
  refuseWhen
    (request.relationId = 0 ∨ request.memoryId = 0 ∨ request.expectedMemoryRevision = 0 ∨
      request.observedAtMs = 0)
    (.invalidInput "file relation identifiers, revision, and time must be non-zero")
  refuseWhen
    (isUnusable maxFileRelationSourceRevisionBytes request.sourceRevision ||
      request.sourceRevision.toList.any isControl)
    (.invalidInput "invalid source revision")
  refuseWhen (i64Max < request.expectedMemoryRevision ∨ i64Max < request.observedAtMs)
    (.invalidInput "file relation revision or time is out of range")
  validateFileRelationTarget request.projectId request.relativePath

/-- What a nudge says about itself and the text it captures. -/
def validateProvenance {H : Type} [DecidableEq H] (externals : Externals H)
    (provenance : MemoryNudgeProvenance H) (content : String) :
    Except MemoryRepositoryError Unit :=
  refuseWhen
    (provenance.sourceSessionId = 0 ∨ provenance.nudgeId = 0 ∨
      provenance.nudgeHash = externals.zeroHash ∨ provenance.candidateHash = externals.zeroHash ∨
      1000000 < provenance.relevanceScoreMicros ∨
      provenance.candidateHash ≠ candidateHashFor externals content)
    (.invalidInput "invalid memory nudge provenance")

/-- The decision that a request for validation asks for. -/
def Validation.parse : String → Option Validation
  | "ACCEPTED" => some .accepted
  | "REJECTED" => some .rejected
  | "QUARANTINED" => some .quarantined
  | _ => none

/-- `str::trim`, where nothing counts as no text. -/
def trimmedText (text : Option String) : Option String :=
  (text.map trim).filter (· ≠ "")

/-- The decision with its evidence: an acceptance has a basis and no reason, a rejection or a
quarantine a reason and no basis. -/
def validateDecision (validation : String) (basis reason : Option String) :
    Except MemoryRepositoryError Validation :=
  match Validation.parse validation with
  | none => .error (.invalidInput "validation must be ACCEPTED, REJECTED, or QUARANTINED")
  | some .accepted =>
      if basis.isSome ∧ reason.isNone then .ok .accepted
      else .error
        (.invalidInput "accepted validation requires a non-empty basis and no reason")
  | some decision =>
      if reason.isSome ∧ basis.isNone then .ok decision
      else .error
        (.invalidInput "rejected or quarantined validation requires a reason and no basis")

end Aegis.MemoryStore
