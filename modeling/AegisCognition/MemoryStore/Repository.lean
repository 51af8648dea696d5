import AegisCognition.MemoryStore.Record

/-!
# Operations of the memory repository

Each operation checks its request, looks up whether the request has been seen before, and
otherwise runs one transaction over the tables. A refusal is an error and no tables. Access is
checked before everything else, so a request is not even looked up for a subject that may not
write.

The insertions check the keys and references that the schema declares. Its checks on the
length of a text hold of every request that passes its own checks.
-/

namespace Aegis.MemoryStore

open Foundation

variable {H : Type} [DecidableEq H]

/-- The grant lets its subject read or write at this time. -/
def GrantRow.allows (grant : GrantRow) (write : Bool) (nowMs : Nat) : Bool :=
  grant.revokedAtMs.isNone && grant.expiresAtMs.all (nowMs < ·) &&
    if write then grant.canWrite else grant.canRead

/-- The rows of the text index for a memory: one where it can be found, none otherwise. -/
def MemoryRow.indexRows (row : MemoryRow H) : List IndexRow :=
  if row.lifecycle.isLive && row.validation.isSearchable then
    (row.content.map fun content =>
      { memoryId := row.memoryId, ownerId := row.ownerId, scopeKind := row.scopeKind
        content }).toList
  else []

/-- The row that a request is about, at a revision. -/
def RequestHeader.selects (header : RequestHeader) (revision : Nat) (row : MemoryRow H) : Bool :=
  row.memoryId == header.memoryId && row.ownerId == header.ownerId &&
    row.scopeKind == header.scopeKind && row.revision == revision

/-- The label under the hash of a request for a transition. -/
def TransitionKind.label (kind : TransitionKind) : String :=
  kind.eventType.text ++ ":" ++ kind.nextLifecycle.text

/-- What a transition writes into the record. -/
def TransitionKind.assign (kind : TransitionKind) (row : MemoryRow H) : MemoryRow H :=
  match kind with
  | .forget => { row with lifecycle := .tombstoned }
  | .restore =>
      { row with
        lifecycle := .candidate, validation := .unreviewed, validationBasis := none
        validationReason := none }
  | .purge => { row with lifecycle := .purged, contentHash := none, content := none }

/-- The transitions between lifecycles that are refused whatever the revision. -/
def TransitionKind.requireFrom (kind : TransitionKind) (current : Lifecycle) :
    Except MemoryRepositoryError Unit := do
  refuseWhen (kind.nextLifecycle = .tombstoned ∧ current = .purged)
    (.conflict "purged memory cannot be restored by forget")
  refuseWhen (kind.nextLifecycle = .candidate ∧ current ≠ .tombstoned)
    (.conflict "only tombstoned memory can be restored")

namespace Tables

/-! ### Insertions -/

section

variable (tables : Tables H)

def insertRecord (row : MemoryRow H) : Except MemoryRepositoryError (Tables H) := do
  refuseWhen (tables.records.any (·.memoryId == row.memoryId)) (.sqlite .constraintViolation)
  refuseWhen (tables.records.any (·.requestId == row.requestId)) (.sqlite .constraintViolation)
  pure { tables with records := tables.records ++ [row] }

def insertRevision (row : RevisionRow H) : Except MemoryRepositoryError (Tables H) := do
  refuseWhen
    (tables.revisions.any fun other =>
      other.memoryId == row.memoryId && other.revision == row.revision)
    (.sqlite .constraintViolation)
  refuseWhen (tables.revisions.any (·.requestId == row.requestId)) (.sqlite .constraintViolation)
  refuseWhen (!tables.records.any (·.memoryId == row.memoryId)) (.sqlite .constraintViolation)
  pure { tables with revisions := tables.revisions ++ [row] }

def insertEvent (row : EventRow H) : Except MemoryRepositoryError (Tables H) := do
  let revision ← toI64Revision row.revision
  let occurredAtMs ← toI64Timestamp row.occurredAtMs
  refuseWhen (tables.events.any (·.key == row.key)) (.sqlite .constraintViolation)
  refuseWhen (tables.events.any (·.requestId == row.requestId)) (.sqlite .constraintViolation)
  refuseWhen (!tables.records.any (·.memoryId == row.memoryId)) (.sqlite .constraintViolation)
  pure { tables with events := tables.events ++ [{ row with revision, occurredAtMs }] }

def insertProvenance (memoryId : Id) (row : MemoryNudgeProvenance H) :
    Except MemoryRepositoryError (Tables H) := do
  refuseWhen (tables.provenance.any (·.1 == memoryId)) (.sqlite .constraintViolation)
  refuseWhen (!tables.records.any (·.memoryId == memoryId)) (.sqlite .constraintViolation)
  pure { tables with provenance := tables.provenance ++ [(memoryId, row)] }

/-- The provenance of a nudge, where a capture has one. -/
def insertNudge (memoryId : Id) :
    Option (MemoryNudgeProvenance H) → Except MemoryRepositoryError (Tables H)
  | some provenance => tables.insertProvenance memoryId provenance
  | none => .ok tables

def insertRelation (row : FileRelationRow H) : Except MemoryRepositoryError (Tables H) := do
  refuseWhen (tables.relations.any (·.relationId == row.relationId))
    (.sqlite .constraintViolation)
  refuseWhen
    (tables.relations.any fun other =>
      other.memoryId == row.memoryId && other.ownerId == row.ownerId &&
        other.scopeKind == row.scopeKind && other.projectId == row.projectId &&
        other.relativePath == row.relativePath)
    (.sqlite .constraintViolation)
  refuseWhen (!tables.records.any (·.memoryId == row.memoryId)) (.sqlite .constraintViolation)
  pure { tables with relations := tables.relations ++ [row] }

end

/-! ### Reads -/

section

variable (tables : Tables H)

def record? (memoryId : Id) : Option (MemoryRow H) :=
  tables.records.find? (·.memoryId == memoryId)

/-- The memory of a request, in whatever lifecycle it is. -/
def scopedRecord? (access : Access) (memoryId : Id) : Option (MemoryRow H) :=
  tables.records.find? fun row =>
    row.memoryId == memoryId && row.ownerId == access.ownerId &&
      row.scopeKind == access.scopeKind

def capture? (requestId : Id) : Option (MemoryRow H) :=
  tables.records.find? (·.requestId == requestId)

def event? (requestId : Id) : Option (EventRow H) :=
  tables.events.find? (·.requestId == requestId)

def grant? (access : Access) : Option GrantRow :=
  tables.grants.find? fun row =>
    row.subjectId == access.subjectId && row.ownerId == access.ownerId &&
      row.scopeKind == access.scopeKind

def isIndexDirty (memoryId : Id) : Bool :=
  tables.indexDirty.contains memoryId

def requireAccess (access : Access) (write : Bool) (nowMs : Nat) :
    Except MemoryRepositoryError Unit := do
  validateIdentity access nowMs
  if access.subjectId = access.ownerId then pure ()
  else refuseWhen (!(tables.grant? access).any (·.allows write nowMs)) .permissionDenied

/-- Bring the text index up to date with the record of a memory. Where a time is given the
index moves to its next generation. -/
def syncIndex (memoryId : Id) (observedAtMs : Option Nat) :
    Except MemoryRepositoryError (Tables H) := do
  let generation := tables.indexState.generation + 1
  -- Past the largest `i64` the sum is a floating-point number, which is not read back.
  refuseWhen (i64Max < generation) (.sqlite .invalidColumnType)
  let others := tables.indexed.filter (·.memoryId != memoryId)
  let indexed := others ++ ((tables.record? memoryId).elim [] MemoryRow.indexRows)
  let indexDirty := tables.indexDirty.filter (· != memoryId)
  match observedAtMs with
  | some observedAtMs => do
      let updatedAtMs ← toI64Timestamp observedAtMs
      let dirtyGeneration :=
        if indexDirty.isEmpty then generation else tables.indexState.dirtyGeneration
      pure { tables with
        indexed, indexDirty, indexState := { generation, dirtyGeneration, updatedAtMs } }
  | none =>
      let dirtyGeneration := if indexDirty.isEmpty then tables.indexState.generation
        else tables.indexState.dirtyGeneration
      pure { tables with
        indexed, indexDirty, indexState := { tables.indexState with dirtyGeneration } }

/-- `rebuild_pending_indexes`: each rebuild is a transaction of its own, and the first that
fails ends the loop. -/
def rebuildPendingIndexes : Except MemoryRepositoryError Unit × Tables H :=
  go tables tables.indexDirty
where
  go (tables : Tables H) : List Id → Except MemoryRepositoryError Unit × Tables H
    | [] => (.ok (), tables)
    | memoryId :: pending =>
        match tables.syncIndex memoryId none with
        | .ok rebuilt => go rebuilt pending
        | .error error => (.error error, tables)

end

/-! ### Grants -/

/-- The grant stands at the revision that the request expects, where it expects one. -/
def requireGrantRevision (current : Option GrantRow) : Option Nat →
    Except MemoryRepositoryError Unit
  | none => .ok ()
  | some expected =>
      match current with
      | some grant =>
          refuseWhen (grant.revision ≠ expected) (.conflict "grant revision conflict")
      | none => .error (.conflict "grant does not exist")

section

variable (tables : Tables H)

/-- The actor of a request about a grant, where one is named, may write in its scope. -/
def requireActor (access : Access) (nowMs : Nat) : Option String → Except MemoryRepositoryError Unit
  | none => .ok ()
  | some actorId => tables.requireAccess { access with subjectId := actorId } true nowMs

def grantAccess (request : GrantRequest) : Except MemoryRepositoryError (Nat × Tables H) := do
  validateIdentity request.toAccess request.updatedAtMs
  refuseWhen (!request.canRead && request.canWrite)
    (.invalidInput "write grant requires read grant")
  refuseWhen (request.expiresAtMs.any (· ≤ request.updatedAtMs))
    (.invalidInput "grant expiry must be in the future")
  refuseWhen (request.expiresAtMs.any (i64Max < ·)) (.invalidInput "grant expiry out of range")
  let current := tables.grant? request.toAccess
  requireGrantRevision current request.expectedRevision
  let next ← successor "grant revision overflow" (current.elim 0 (·.revision))
  let revision ← toI64 (.conflict "grant revision out of range") next
  let updatedAtMs ← toI64Timestamp request.updatedAtMs
  let row : GrantRow :=
    { subjectId := request.subjectId, ownerId := request.ownerId
      scopeKind := request.scopeKind, canRead := request.canRead
      canWrite := request.canWrite, expiresAtMs := request.expiresAtMs, revision, updatedAtMs
      revokedAtMs := none }
  let grants := if current.isSome then
      updateWhere
        (fun other => other.subjectId == request.subjectId && other.ownerId == request.ownerId &&
          other.scopeKind == request.scopeKind)
        (fun _ => row) tables.grants
    else tables.grants ++ [row]
  pure (next, { tables with grants })

def revokeAccess (request : RevokeRequest) : Except MemoryRepositoryError (Nat × Tables H) := do
  validateIdentity request.toAccess request.revokedAtMs
  let grant ← okOr (.conflict "grant does not exist") (tables.grant? request.toAccess)
  refuseWhen (grant.revision ≠ request.expectedRevision) (.conflict "grant revision conflict")
  let next ← successor "grant revision overflow" request.expectedRevision
  let revision ← toI64 (.conflict "grant revision out of range") next
  let revokedAtMs ← toI64Timestamp request.revokedAtMs
  let expected ← toI64 (.conflict "grant revision out of range") request.expectedRevision
  let grants := updateWhere
    (fun other => other.subjectId == request.subjectId && other.ownerId == request.ownerId &&
      other.scopeKind == request.scopeKind && other.revision == expected)
    (fun other => { other with
      canRead := false, canWrite := false, revision, revokedAtMs := some revokedAtMs
      updatedAtMs := revokedAtMs })
    tables.grants
  pure (next, { tables with grants })

/-- `grant_access_as` where an actor is named, `grant_access` otherwise. -/
def grantAccessAs (request : GrantRequest) : Except MemoryRepositoryError (Nat × Tables H) := do
  tables.requireActor request.toAccess request.updatedAtMs request.actorId
  tables.grantAccess request

/-- `revoke_access_as` where an actor is named, `revoke_access` otherwise. -/
def revokeAccessAs (request : RevokeRequest) : Except MemoryRepositoryError (Nat × Tables H) := do
  tables.requireActor request.toAccess request.revokedAtMs request.actorId
  tables.revokeAccess request

end

/-! ### Requests about a memory -/

/-- The checks that capture makes after access has been granted. -/
def validateCapture (request : CaptureRequest) : Except MemoryRepositoryError Unit := do
  refuseWhen (request.memoryId = 0 ∨ request.requestId = 0) (.invalidInput "ids must be non-zero")
  refuseWhen (isUnusable 256 request.ownerId) (.invalidInput "owner_id must be non-empty")
  refuseWhen (!validScope request.scopeKind || 64 < request.scopeKind.utf8ByteSize)
    (.invalidInput "invalid scope_kind")
  refuseWhen (!validMemoryKind request.memoryKind || 64 < request.memoryKind.utf8ByteSize)
    (.invalidInput "invalid memory_kind")
  refuseWhen (isUnusable maxMemoryContentBytes request.content || request.observedAtMs == 0)
    (.invalidInput "content and observed_at_ms must be non-empty")

/-- The checks that the other requests start with. -/
def validateHeader (header : RequestHeader) (message : String) (wrong : Bool) :
    Except MemoryRepositoryError Unit := do
  refuseWhen (header.memoryId = 0 ∨ header.requestId = 0 ∨ header.observedAtMs = 0)
    (.invalidInput "ids and time must be non-zero")
  refuseWhen
    (isUnusable 256 header.ownerId || !validScope header.scopeKind ||
      64 < header.scopeKind.utf8ByteSize || wrong)
    (.invalidInput message)

section

variable (tables : Tables H) (externals : Externals H) (request : CaptureRequest)

/-- The transaction of a capture whose request and memory are new. -/
def insertCapture (provenance : Option (MemoryNudgeProvenance H)) :
    Except MemoryRepositoryError (Tables H) := do
  let contentHash := hashContent externals request.memoryId request.ownerId request.scopeKind
    request.content
  let requestHash := hashRequest externals request.toRequestHeader request.content
  let observedAtMs ← toI64Timestamp request.observedAtMs
  let tables ← tables.insertRecord
    { memoryId := request.memoryId, ownerId := request.ownerId, scopeKind := request.scopeKind
      memoryKind := request.memoryKind, contentHash := some contentHash
      content := some request.content, lifecycle := .candidate, validation := .unreviewed
      validationBasis := none, validationReason := none, revision := 1, observedAtMs
      requestId := request.requestId, requestHash }
  let tables ← tables.insertRevision
    { memoryId := request.memoryId, revision := 1, contentHash, content := request.content
      createdAtMs := observedAtMs, requestId := request.requestId }
  let tables ← tables.insertEvent
    { memoryId := request.memoryId, eventType := .memoryCandidateCreated, revision := 1
      requestId := request.requestId, requestHash, contentHash := some contentHash
      occurredAtMs := request.observedAtMs }
  let tables ← tables.insertNudge request.memoryId provenance
  tables.syncIndex request.memoryId (some request.observedAtMs)

/-- The answer to a capture that has passed its checks: from the record made under its
identifier, or by capturing the memory. -/
def answerCapture (provenance : Option (MemoryNudgeProvenance H)) :
    Except MemoryRepositoryError (MemoryCaptureOutcome H × Tables H) :=
  match tables.capture? request.requestId with
  | some existing => do
      -- The column is read as a hash: it is not one once the memory has been purged.
      let contentHash ← okOr (.sqlite .invalidColumnType) existing.contentHash
      refuseWhen
        (existing.requestHash ≠ hashRequest externals request.toRequestHeader request.content ∨
          existing.memoryKind ≠ request.memoryKind)
        .idempotencyConflict
      pure (⟨contentHash, false, tables.isIndexDirty request.memoryId⟩, tables)
  | none =>
      match tables.record? request.memoryId with
      | some row =>
          if row.lifecycle.isLive then .error (.conflict "memory id already exists")
          else .error (.conflict "forgotten memory cannot be recaptured")
      | none => do
          let after ← tables.insertCapture externals request provenance
          pure (⟨hashContent externals request.memoryId request.ownerId request.scopeKind
            request.content, true, false⟩, after)

def captureWithKindAsProvenance (provenance : Option (MemoryNudgeProvenance H)) :
    Except MemoryRepositoryError (MemoryCaptureOutcome H × Tables H) := do
  tables.requireAccess request.toAccess true request.observedAtMs
  validateCapture request
  tables.answerCapture externals request provenance

/-- `capture_nudged_candidate` where a nudge is named, `capture_with_kind_as` otherwise. -/
def capture (provenance : Option (MemoryNudgeProvenance H)) :
    Except MemoryRepositoryError (MemoryCaptureOutcome H × Tables H) := do
  match provenance with
  | some nudge => do
      validateProvenance externals nudge request.content
      tables.captureWithKindAsProvenance externals request provenance
  | none => tables.captureWithKindAsProvenance externals request provenance

end

/-- The revision under which a request has been recorded, or what `fresh` does where it has not
been seen. -/
def replayOr (tables : Tables H) (requestId : Id) (requestHash : H)
    (fresh : Except MemoryRepositoryError (Nat × Tables H)) :
    Except MemoryRepositoryError (Nat × Tables H) :=
  match tables.event? requestId with
  | some existing => do
      refuseWhen (existing.requestHash ≠ requestHash) .idempotencyConflict
      pure (existing.revision, tables)
  | none => fresh

section

variable (tables : Tables H) (header : RequestHeader)

/-- The memory of a request that only a live memory at the expected revision answers, with its
next revision. -/
def liveRecord (message : String) (expectedRevision : Nat) :
    Except MemoryRepositoryError (MemoryRow H × Nat) := do
  let row ← okOr (.conflict "memory not found in scope")
    (tables.scopedRecord? header.toAccess header.memoryId)
  refuseWhen (!row.lifecycle.isLive) (.conflict message)
  refuseWhen (row.revision ≠ expectedRevision) (.conflict "memory revision conflict")
  let next ← successor "memory revision overflow" row.revision
  pure (row, next)

/-- `UPDATE memory_records ... WHERE memory_id AND owner_id AND scope_kind AND revision`, of
which the row moves to its next revision. -/
def reviseRecord (revision next : Nat) (assign : MemoryRow H → MemoryRow H) :
    Except MemoryRepositoryError (Tables H) := do
  let next ← toI64Revision next
  let observedAtMs ← toI64Timestamp header.observedAtMs
  let revision ← toI64Revision revision
  pure { tables with
    records := updateWhere (header.selects revision)
      (fun row => assign { row with revision := next, observedAtMs }) tables.records }

/-- The same, which has to have changed one row. -/
def reviseOne (revision next : Nat) (assign : MemoryRow H → MemoryRow H) :
    Except MemoryRepositoryError (Tables H) := do
  let after ← tables.reviseRecord header revision next assign
  refuseWhen (tables.records.countP (header.selects revision) ≠ 1)
    (.conflict "memory revision conflict")
  pure after

/-- Record the event of a change and bring the text index up to date. -/
def finishChange (eventType : EventType) (revision : Nat) (requestHash : H)
    (contentHash : Option H) :
    Except MemoryRepositoryError (Tables H) := do
  let tables ← tables.insertEvent
    { memoryId := header.memoryId, eventType, revision, requestId := header.requestId
      requestHash, contentHash, occurredAtMs := header.observedAtMs }
  tables.syncIndex header.memoryId (some header.observedAtMs)

end

/-- The text under the hash of a request for validation. -/
def validationMaterial (validation : String) (basis reason : Option String) : String :=
  "validation:" ++ validation ++ ":" ++ basis.getD "" ++ ":" ++ reason.getD ""

section

variable (tables : Tables H)

def validateAs (externals : Externals H) (request : ValidateRequest) :
    Except MemoryRepositoryError (Nat × Tables H) := do
  tables.requireAccess request.toAccess true request.observedAtMs
  validateHeader request.toRequestHeader "invalid memory scope" false
  let basis := trimmedText request.basis
  let reason := trimmedText request.reason
  let decision ← validateDecision request.validation basis reason
  refuseWhen
    (basis.any (maxValidationEvidenceBytes < ·.utf8ByteSize) ||
      reason.any (maxValidationEvidenceBytes < ·.utf8ByteSize))
    (.invalidInput "validation evidence exceeds the maximum size")
  let requestHash := hashRequest externals request.toRequestHeader
    (validationMaterial request.validation basis reason)
  tables.replayOr request.requestId requestHash do
    let (row, next) ← tables.liveRecord request.toRequestHeader
      "only a live memory can be validated" request.expectedRevision
    let after ← tables.reviseOne request.toRequestHeader request.expectedRevision next
      fun row => { row with
        lifecycle := decision.nextLifecycle, validation := decision
        validationBasis := basis, validationReason := reason }
    let after ← after.finishChange request.toRequestHeader .memoryValidated next requestHash
      row.contentHash
    pure (next, after)

def correctAs (externals : Externals H) (request : CorrectRequest) :
    Except MemoryRepositoryError (Nat × Tables H) := do
  tables.requireAccess request.toAccess true request.observedAtMs
  validateHeader request.toRequestHeader "invalid correction input"
    (isUnusable maxMemoryContentBytes request.content)
  let requestHash := hashRequest externals request.toRequestHeader request.content
  tables.replayOr request.requestId requestHash do
    let (_, next) ← tables.liveRecord request.toRequestHeader
      "only a live memory can be corrected" request.expectedRevision
    let contentHash := hashContent externals request.memoryId request.ownerId request.scopeKind
      request.content
    let revision ← toI64Revision next
    let createdAtMs ← toI64Timestamp request.observedAtMs
    let after ← tables.insertRevision
      { memoryId := request.memoryId, revision, contentHash, content := request.content
        createdAtMs, requestId := request.requestId }
    let after ← after.reviseOne request.toRequestHeader request.expectedRevision next
      fun row => { row with
        contentHash := some contentHash, content := some request.content
        lifecycle := .candidate, validation := .unreviewed, validationBasis := none
        validationReason := none }
    let after ← after.finishChange request.toRequestHeader .memoryCorrected next requestHash
      (some contentHash)
    pure (next, after)

/-- The rows that a transition deletes. -/
def deleteDependents (header : RequestHeader) (kind : TransitionKind) : Tables H :=
  { tables with
    revisions := if kind.nextLifecycle = .purged then
        tables.revisions.filter (·.memoryId != header.memoryId)
      else tables.revisions
    relations :=
      if kind.nextLifecycle = .tombstoned ∨ kind.nextLifecycle = .purged then
        tables.relations.filter fun row =>
          !(row.memoryId == header.memoryId && row.ownerId == header.ownerId &&
            row.scopeKind == header.scopeKind)
      else tables.relations }

/-- The transaction of a transition that has not been asked for before. -/
def applyTransition (kind : TransitionKind) (request : TransitionRequest) (requestHash : H) :
    Except MemoryRepositoryError (Bool × Tables H) := do
  let row ← okOr (.conflict "memory not found in scope")
    (tables.scopedRecord? request.toAccess request.memoryId)
  refuseWhen (request.expectedRevision.any (· != row.revision))
    (.conflict "memory revision conflict")
  kind.requireFrom row.lifecycle
  if row.lifecycle = kind.nextLifecycle then pure (false, tables)
  else do
    let next ← successor "memory revision overflow" row.revision
    let after ← tables.reviseRecord request.toRequestHeader row.revision next kind.assign
    let after ← (after.deleteDependents request.toRequestHeader kind).finishChange
      request.toRequestHeader kind.eventType next requestHash (kind.assign row).contentHash
    pure (true, after)

def transition (externals : Externals H) (kind : TransitionKind) (request : TransitionRequest) :
    Except MemoryRepositoryError (Bool × Tables H) := do
  tables.requireAccess request.toAccess true request.observedAtMs
  validateHeader request.toRequestHeader "invalid memory scope" false
  let requestHash := hashRequest externals request.toRequestHeader kind.label
  match tables.event? request.requestId with
  | some existing => do
      refuseWhen (existing.requestHash ≠ requestHash) .idempotencyConflict
      pure (false, tables)
  | none => tables.applyTransition kind request requestHash

end

/-! ### File relations -/

/-- A relation of an owner's scope, joined with its memory. -/
def loadMemoryFileRelation (tables : Tables H) (relationId : Id) (access : Access) :
    Option (MemoryFileRelationView H) := do
  let relation ← tables.relations.find? fun row =>
    row.relationId == relationId && row.ownerId == access.ownerId &&
      row.scopeKind == access.scopeKind
  let memory ← tables.scopedRecord? access relation.memoryId
  pure
    { relationId := relation.relationId, memoryId := relation.memoryId
      scopeKind := relation.scopeKind, projectId := relation.projectId
      relativePath := relation.relativePath, sourceRevision := relation.sourceRevision
      sourceContentHash := relation.sourceContentHash
      memoryRevision := relation.memoryRevision
      memoryContentHash := relation.memoryContentHash, createdAtMs := relation.createdAtMs
      memoryLifecycle := memory.lifecycle, memoryValidation := memory.validation
      memoryContentCurrent :=
        memory.contentHash == some relation.memoryContentHash && memory.content.isSome }

section

variable (tables : Tables H) (request : LinkRequest H)

/-- The memory can be found and is as the request saw it. -/
def requireEligible : Except MemoryRepositoryError Unit := do
  let row ← okOr (.conflict "memory not found in scope")
    (tables.scopedRecord? request.toAccess request.memoryId)
  refuseWhen (!row.lifecycle.isLive || !row.validation.isSearchable || row.content.isNone)
    (.conflict "memory is not eligible for a file relation")
  refuseWhen (row.revision ≠ request.expectedMemoryRevision) (.conflict "memory revision conflict")
  let currentHash ← okOr (.conflict "memory content is unavailable") row.contentHash
  refuseWhen (currentHash ≠ request.expectedMemoryContentHash)
    (.conflict "memory content hash conflict")

/-- Insert a relation whose identifier and target are new. -/
def insertLink : Except MemoryRepositoryError (MemoryFileRelationView H × Tables H) := do
  let memoryRevision ← toI64 (.invalidInput "memory revision is out of range")
    request.expectedMemoryRevision
  let createdAtMs ← toI64Timestamp request.observedAtMs
  let after ← tables.insertRelation
    { relationId := request.relationId, memoryId := request.memoryId
      ownerId := request.ownerId, scopeKind := request.scopeKind
      projectId := request.projectId, relativePath := request.relativePath
      sourceRevision := request.sourceRevision
      sourceContentHash := request.sourceContentHash, memoryRevision
      memoryContentHash := request.expectedMemoryContentHash, createdAtMs }
  let view ← okOr (.conflict "file relation could not be read after insertion")
    (after.loadMemoryFileRelation request.relationId request.toAccess)
  pure (view, after)

def linkFileRelationAs : Except MemoryRepositoryError (MemoryFileRelationView H × Tables H) := do
  validateFileRelationInput request
  tables.requireAccess request.toAccess true request.observedAtMs
  tables.requireEligible request
  match tables.loadMemoryFileRelation request.relationId request.toAccess with
  | some existing => do
      refuseWhen
        (existing.memoryId ≠ request.memoryId ∨ existing.projectId ≠ request.projectId ∨
          existing.relativePath ≠ request.relativePath ∨
          existing.sourceRevision ≠ request.sourceRevision ∨
          existing.sourceContentHash ≠ request.sourceContentHash ∨
          existing.memoryRevision ≠ request.expectedMemoryRevision ∨
          existing.memoryContentHash ≠ request.expectedMemoryContentHash)
        (.conflict "file relation identifier has different evidence")
      pure (existing, tables)
  | none =>
      refuseWhen (tables.relations.any (·.relationId == request.relationId))
        (.conflict "file relation identifier conflict")
      let duplicate := tables.relations.find? fun row =>
        row.memoryId == request.memoryId && row.ownerId == request.ownerId &&
          row.scopeKind == request.scopeKind && row.projectId == request.projectId &&
          row.relativePath == request.relativePath
      match duplicate with
      | some relation => do
          refuseWhen
            (relation.sourceRevision ≠ request.sourceRevision ∨
              relation.sourceContentHash ≠ request.sourceContentHash ∨
              relation.memoryRevision ≠ request.expectedMemoryRevision ∨
              relation.memoryContentHash ≠ request.expectedMemoryContentHash)
            (.conflict "file relation target has different evidence")
          let existing ← okOr
            (.conflict "file relation could not be read after idempotent retry")
            (tables.loadMemoryFileRelation relation.relationId request.toAccess)
          pure (existing, tables)
      | none => tables.insertLink request

end

def unlinkFileRelationAs (tables : Tables H) (request : UnlinkRequest) :
    Except MemoryRepositoryError (Bool × Tables H) := do
  refuseWhen
    (request.relationId = 0 ∨ request.observedAtMs = 0 ∨ i64Max < request.observedAtMs)
    (.invalidInput "file relation identifier and time must be valid")
  validateFileRelationTarget request.projectId request.relativePath
  tables.requireAccess request.toAccess true request.observedAtMs
  let selects := fun row : FileRelationRow H =>
    row.relationId == request.relationId && row.ownerId == request.ownerId &&
      row.scopeKind == request.scopeKind && row.projectId == request.projectId &&
      row.relativePath == request.relativePath
  pure (tables.relations.any selects,
    { tables with relations := tables.relations.filter (!selects ·) })

end Tables

/-! ### Calls -/

/-- The six operations that carry a request identifier. -/
inductive MemoryRequest (H : Type)
  | capture (request : CaptureRequest) (provenance : Option (MemoryNudgeProvenance H))
  | validate (request : ValidateRequest)
  | correct (request : CorrectRequest)
  | transition (kind : TransitionKind) (request : TransitionRequest)

def MemoryRequest.header : MemoryRequest H → RequestHeader
  | .capture request _ => request.toRequestHeader
  | .validate request => request.toRequestHeader
  | .correct request => request.toRequestHeader
  | .transition _ request => request.toRequestHeader

/-- The last part of the bytes under the hash of a request. -/
def MemoryRequest.payload : MemoryRequest H → String
  | .capture request _ => request.content
  | .validate request =>
      Tables.validationMaterial request.validation (trimmedText request.basis)
        (trimmedText request.reason)
  | .correct request => request.content
  | .transition kind _ => kind.label

/-- The bytes under the hash of a request. -/
def MemoryRequest.material (request : MemoryRequest H) : List UInt8 :=
  requestMaterial request.header request.payload

def MemoryRequest.isCapture : MemoryRequest H → Bool
  | .capture _ _ => true
  | _ => false

/-- What a request is answered with. -/
inductive Reply (H : Type)
  | captured (outcome : MemoryCaptureOutcome H)
  | revised (revision : Nat)
  | changed (changed : Bool)
  deriving DecidableEq

inductive MemoryOp (H : Type)
  | request (request : MemoryRequest H)
  | linkFileRelation (request : LinkRequest H)
  | unlinkFileRelation (request : UnlinkRequest)
  | grantAccess (request : GrantRequest)
  | revokeAccess (request : RevokeRequest)
  | reopen

namespace Tables

/-- The answer to a request and the tables after it. -/
def perform (tables : Tables H) (externals : Externals H) :
    MemoryRequest H → Except MemoryRepositoryError (Reply H × Tables H)
  | .capture request provenance => do
      let (outcome, after) ← tables.capture externals request provenance
      pure (.captured outcome, after)
  | .validate request => do
      let (revision, after) ← tables.validateAs externals request
      pure (.revised revision, after)
  | .correct request => do
      let (revision, after) ← tables.correctAs externals request
      pure (.revised revision, after)
  | .transition kind request => do
      let (changed, after) ← tables.transition externals kind request
      pure (.changed changed, after)

/-- The tables after a call, which are those before it where the call failed. -/
def afterCall {α : Type} (tables : Tables H) :
    Except MemoryRepositoryError (α × Tables H) → Tables H
  | .ok (_, after) => after
  | .error _ => tables

def step (externals : Externals H) (tables : Tables H) : MemoryOp H → Tables H
  | .request request => tables.afterCall (tables.perform externals request)
  | .linkFileRelation request => tables.afterCall (tables.linkFileRelationAs request)
  | .unlinkFileRelation request => tables.afterCall (tables.unlinkFileRelationAs request)
  | .grantAccess request => tables.afterCall (tables.grantAccessAs request)
  | .revokeAccess request => tables.afterCall (tables.revokeAccessAs request)
  | .reopen => tables.rebuildPendingIndexes.2

end Tables

end Aegis.MemoryStore
