import AegisCognition.MemoryStore.Repository

/-!
# What a committed call has done

A request is answered from what was recorded under its identifier, or it captures a new
memory, or it makes one change to the memory it names. The changes differ in what they write
into the record and in the rows that go with it; each moves the record to its next revision,
records one event and brings the text index up to date.
-/

namespace Aegis.MemoryStore

open Foundation Tables TransitionKind

variable {H : Type} {externals : Externals H} {tables after : Tables H}
variable {header : RequestHeader} {row : MemoryRow H} {memoryId other : Id} {atMs : Nat}

theorem toI64_eq_ok_iff {error : MemoryRepositoryError} {value result : Nat} :
    toI64 error value = .ok result ↔ value ≤ i64Max ∧ value = result := by
  unfold toI64
  split <;> simp_all

theorem successor_eq_ok_iff {overflow : String} {value result : Nat} :
    successor overflow value = .ok result ↔ value + 1 ≤ u64Max ∧ result = value + 1 := by
  rw [successor, okOr_eq_ok_iff, checkedAdd_eq_some_iff]

namespace Tables

/-! ### The text index -/

/-- The tables with the text index brought up to date with one memory at a time. -/
def synced (tables : Tables H) (memoryId : Id) (atMs : Nat) : Tables H :=
  { tables with
    indexed := tables.indexed.filter (·.memoryId != memoryId) ++
      (tables.record? memoryId).elim [] MemoryRow.indexRows
    indexDirty := tables.indexDirty.filter (· != memoryId)
    indexState :=
      { generation := tables.indexState.generation + 1
        dirtyGeneration :=
          if (tables.indexDirty.filter (· != memoryId)).isEmpty then
            tables.indexState.generation + 1
          else tables.indexState.dirtyGeneration
        updatedAtMs := atMs } }

section Synced

variable (tables : Tables H) (memoryId : Id) (atMs : Nat)

@[simp] theorem synced_records : (tables.synced memoryId atMs).records = tables.records := rfl

@[simp] theorem synced_revisions :
    (tables.synced memoryId atMs).revisions = tables.revisions := rfl

end Synced

/-- The index has a next generation and the time fits its column. -/
def CanSync (tables : Tables H) (atMs : Nat) : Prop :=
  tables.indexState.generation + 1 ≤ i64Max ∧ atMs ≤ i64Max

theorem syncIndex_some_ok_iff :
    tables.syncIndex memoryId (some atMs) = .ok after ↔
      tables.CanSync atMs ∧ after = tables.synced memoryId atMs := by
  simp only [syncIndex, bind_eq_ok_iff, refuseWhen_eq_ok_iff, toI64Timestamp, toI64_eq_ok_iff,
    pure_eq_ok_iff, not_lt]
  constructor
  · rintro ⟨-, next, _, ⟨time, rfl⟩, rfl⟩
    exact ⟨⟨next, time⟩, rfl⟩
  · rintro ⟨⟨next, time⟩, rfl⟩
    exact ⟨⟨⟩, next, _, ⟨time, rfl⟩, rfl⟩

/-! ### Insertions -/

theorem insertRecord_ok_iff :
    tables.insertRecord row = .ok after ↔
      tables.record? row.memoryId = none ∧ tables.capture? row.requestId = none ∧
        after = { tables with records := tables.records ++ [row] } := by
  simp only [insertRecord, bind_eq_ok_iff, refuseWhen_eq_ok_iff, pure_eq_ok_iff, record?,
    capture?, List.find?_eq_none, List.any_eq_true, not_exists, not_and]
  constructor
  · rintro ⟨-, unused, -, fresh, rfl⟩
    exact ⟨unused, fresh, rfl⟩
  · rintro ⟨unused, fresh, rfl⟩
    exact ⟨⟨⟩, unused, ⟨⟩, fresh, rfl⟩

theorem insertRevision_ok {revision : RevisionRow H}
    (h : tables.insertRevision revision = .ok after) :
    after = { tables with revisions := tables.revisions ++ [revision] } := by
  simp only [insertRevision, bind_eq_ok_iff, pure_eq_ok_iff] at h
  obtain ⟨-, -, -, -, -, -, rfl⟩ := h
  rfl

theorem insertEvent_ok {event : EventRow H} (h : tables.insertEvent event = .ok after) :
    tables.event? event.requestId = none ∧
      after = { tables with events := tables.events ++ [event] } := by
  simp only [insertEvent, bind_eq_ok_iff, refuseWhen_eq_ok_iff, pure_eq_ok_iff, toI64Revision,
    toI64Timestamp, toI64_eq_ok_iff] at h
  obtain ⟨_, ⟨-, rfl⟩, _, ⟨-, rfl⟩, -, -, -, fresh, -, -, rfl⟩ := h
  simp only [List.any_eq_true, not_exists, not_and] at fresh
  exact ⟨List.find?_eq_none.mpr fresh, rfl⟩

theorem finishChange_ok {eventType : EventType} {revision : Nat} {requestHash : H}
    {contentHash : Option H}
    (h : tables.finishChange header eventType revision requestHash contentHash = .ok after) :
    tables.event? header.requestId = none ∧
      after = Tables.synced
        { tables with
          events := tables.events ++
            [{ memoryId := header.memoryId, eventType, revision, requestId := header.requestId
               requestHash, contentHash, occurredAtMs := header.observedAtMs }] }
        header.memoryId header.observedAtMs := by
  simp only [finishChange, bind_eq_ok_iff, syncIndex_some_ok_iff] at h
  obtain ⟨_, inserted, -, rfl⟩ := h
  obtain ⟨fresh, rfl⟩ := insertEvent_ok inserted
  exact ⟨fresh, rfl⟩

theorem insertNudge_ok {provenance : Option (MemoryNudgeProvenance H)}
    (h : tables.insertNudge memoryId provenance = .ok after) :
    after = { tables with
      provenance := tables.provenance ++ (provenance.map (memoryId, ·)).toList } := by
  cases provenance with
  | none =>
      cases h
      simp
  | some provenance =>
      simp only [insertNudge, insertProvenance, bind_eq_ok_iff, pure_eq_ok_iff] at h
      obtain ⟨-, -, -, -, rfl⟩ := h
      rfl

end Tables

/-! ### Changes of a memory -/

/-- What a request can do to a memory that exists. -/
inductive Change
  | validate (decision : Validation) (basis reason : Option String)
  | correct (content : String)
  | transition (kind : TransitionKind)

namespace Change

def eventType : Change → EventType
  | .validate _ _ _ => .memoryValidated
  | .correct _ => .memoryCorrected
  | .transition kind => kind.eventType

/-- What the change writes into the record. -/
def assign (externals : Externals H) (row : MemoryRow H) : Change → MemoryRow H
  | .validate decision basis reason =>
      { row with
        lifecycle := decision.nextLifecycle, validation := decision, validationBasis := basis
        validationReason := reason }
  | .correct content =>
      { row with
        contentHash := some
          (hashContent externals row.memoryId row.ownerId row.scopeKind content)
        content := some content, lifecycle := .candidate, validation := .unreviewed
        validationBasis := none, validationReason := none }
  | .transition kind => kind.assign row

/-- The record after the change. -/
def next (change : Change) (externals : Externals H) (row : MemoryRow H) (atMs : Nat) :
    MemoryRow H :=
  change.assign externals { row with revision := row.revision + 1, observedAtMs := atMs }

/-- The change may be made to the memory as it is. -/
def Permits (row : MemoryRow H) : Change → Prop
  | .validate decision basis reason =>
      row.lifecycle.isLive = true ∧ decision ≠ .unreviewed ∧
        (basis.isSome = true ↔ decision = .accepted) ∧
        (reason.isSome = true ↔ decision ≠ .accepted)
  | .correct _ => row.lifecycle.isLive = true
  | .transition .forget => row.lifecycle.isLive = true
  | .transition .restore => row.lifecycle = .tombstoned
  | .transition .purge => row.lifecycle ≠ .purged

/-- The revisions once the change has been made. -/
def revisions (change : Change) (tables : Tables H) (externals : Externals H)
    (row : MemoryRow H) (header : RequestHeader) : List (RevisionRow H) :=
  match change with
  | .validate _ _ _ => tables.revisions
  | .correct content =>
      tables.revisions ++
        [{ memoryId := header.memoryId, revision := row.revision + 1
           contentHash := hashContent externals header.memoryId header.ownerId header.scopeKind
             content
           content, createdAtMs := header.observedAtMs, requestId := header.requestId }]
  | .transition kind => (tables.deleteDependents header kind).revisions

/-- The file relations once the change has been made. -/
def relations (change : Change) (tables : Tables H) (header : RequestHeader) :
    List (FileRelationRow H) :=
  match change with
  | .validate _ _ _ | .correct _ => tables.relations
  | .transition kind => (tables.deleteDependents header kind).relations

end Change

/-- The tables once a request has made a change. -/
def Tables.changed (tables : Tables H) (externals : Externals H) (header : RequestHeader)
    (row : MemoryRow H) (change : Change) (requestHash : H) : Tables H :=
  Tables.synced
    { tables with
      records := updateWhere (header.selects row.revision)
        (fun other => change.assign externals
          { other with revision := row.revision + 1, observedAtMs := header.observedAtMs })
        tables.records
      revisions := change.revisions tables externals row header
      relations := change.relations tables header
      events := tables.events ++
        [{ memoryId := header.memoryId, eventType := change.eventType
           revision := row.revision + 1, requestId := header.requestId, requestHash
           contentHash := (change.next externals row header.observedAtMs).contentHash
           occurredAtMs := header.observedAtMs }] }
    header.memoryId header.observedAtMs

/-- The memory of a request has been found, allows the change, and has changed under a request
that had not been seen before. -/
structure Changes (externals : Externals H) (tables : Tables H) (header : RequestHeader)
    (row : MemoryRow H) (change : Change) (requestHash : H) (after : Tables H) : Prop where
  found : tables.scopedRecord? header.toAccess header.memoryId = some row
  permitted : change.Permits row
  fresh : tables.event? header.requestId = none
  result : after = tables.changed externals header row change requestHash

/-- The record of a memory that has just been captured. -/
def CaptureRequest.record (request : CaptureRequest) (externals : Externals H) : MemoryRow H where
  memoryId := request.memoryId
  ownerId := request.ownerId
  scopeKind := request.scopeKind
  memoryKind := request.memoryKind
  contentHash := some (hashContent externals request.memoryId request.ownerId request.scopeKind
    request.content)
  content := some request.content
  lifecycle := .candidate
  validation := .unreviewed
  validationBasis := none
  validationReason := none
  revision := 1
  observedAtMs := request.observedAtMs
  requestId := request.requestId
  requestHash := hashRequest externals request.toRequestHeader request.content

/-- The tables once a request has captured a memory. -/
def Tables.captured (tables : Tables H) (externals : Externals H) (request : CaptureRequest)
    (provenance : Option (MemoryNudgeProvenance H)) : Tables H :=
  Tables.synced
    { tables with
      records := tables.records ++ [request.record externals]
      revisions := tables.revisions ++
        [{ memoryId := request.memoryId, revision := 1
           contentHash := hashContent externals request.memoryId request.ownerId
             request.scopeKind request.content
           content := request.content, createdAtMs := request.observedAtMs
           requestId := request.requestId }]
      events := tables.events ++
        [{ memoryId := request.memoryId, eventType := .memoryCandidateCreated, revision := 1
           requestId := request.requestId
           requestHash := hashRequest externals request.toRequestHeader request.content
           contentHash := some (hashContent externals request.memoryId request.ownerId
             request.scopeKind request.content)
           occurredAtMs := request.observedAtMs }]
      provenance := tables.provenance ++ (provenance.map (request.memoryId, ·)).toList }
    request.memoryId request.observedAtMs

/-- Neither the request nor the memory of a capture was known, and it has captured the memory. -/
structure Captures (externals : Externals H) (tables : Tables H) (request : CaptureRequest)
    (provenance : Option (MemoryNudgeProvenance H)) (after : Tables H) : Prop where
  unknown : tables.record? request.memoryId = none
  uncaptured : tables.capture? request.requestId = none
  fresh : tables.event? request.requestId = none
  result : after = tables.captured externals request provenance

theorem parse_ne_unreviewed {text : String} {decision : Validation}
    (h : Validation.parse text = some decision) : decision ≠ .unreviewed := by
  unfold Validation.parse at h
  split at h <;> cases h <;> decide

theorem validateDecision_ok {validation : String} {basis reason : Option String}
    {decision : Validation} (h : validateDecision validation basis reason = .ok decision) :
    decision ≠ .unreviewed ∧ (basis.isSome = true ↔ decision = .accepted) ∧
      (reason.isSome = true ↔ decision ≠ .accepted) := by
  unfold validateDecision at h
  split at h
  · cases h
  · split at h
    · cases h
      simp_all
    · cases h
  · rename_i other parsed
    split at h
    · cases h
      refine ⟨parse_ne_unreviewed parsed, ?_, ?_⟩
      · simp_all
      · simp_all
    · cases h

namespace Tables

theorem reviseRecord_ok {revision next : Nat} {assign : MemoryRow H → MemoryRow H}
    (h : tables.reviseRecord header revision next assign = .ok after) :
    after = { tables with
      records := updateWhere (header.selects revision)
        (fun row => assign { row with revision := next, observedAtMs := header.observedAtMs })
        tables.records } := by
  simp only [reviseRecord, bind_eq_ok_iff, pure_eq_ok_iff, toI64Revision, toI64Timestamp,
    toI64_eq_ok_iff] at h
  obtain ⟨_, ⟨-, rfl⟩, _, ⟨-, rfl⟩, _, ⟨-, rfl⟩, rfl⟩ := h
  rfl

theorem reviseOne_ok {revision next : Nat} {assign : MemoryRow H → MemoryRow H}
    (h : tables.reviseOne header revision next assign = .ok after) :
    after = { tables with
      records := updateWhere (header.selects revision)
        (fun row => assign { row with revision := next, observedAtMs := header.observedAtMs })
        tables.records } := by
  simp only [reviseOne, bind_eq_ok_iff, pure_eq_ok_iff] at h
  obtain ⟨_, revised, -, -, rfl⟩ := h
  exact reviseRecord_ok revised

theorem liveRecord_ok {message : String} {expected next : Nat}
    (h : tables.liveRecord header message expected = .ok (row, next)) :
    tables.scopedRecord? header.toAccess header.memoryId = some row ∧
      row.lifecycle.isLive = true ∧ row.revision = expected ∧ next = row.revision + 1 := by
  simp only [liveRecord, bind_eq_ok_iff, okOr_eq_ok_iff, refuseWhen_eq_ok_iff,
    successor_eq_ok_iff, pure_eq_ok_iff] at h
  obtain ⟨found, here, -, live, -, expected, _, ⟨-, rfl⟩, same⟩ := h
  cases same
  refine ⟨here, ?_, ?_, rfl⟩
  · simpa using live
  · exact not_not.mp expected

theorem scopedRecord?_eq_some {access : Access}
    (h : tables.scopedRecord? access memoryId = some row) :
    row.memoryId = memoryId ∧ row.ownerId = access.ownerId ∧
      row.scopeKind = access.scopeKind := by
  simpa [and_assoc] using List.find?_some h

theorem requireFrom_ok {kind : TransitionKind} {current : Lifecycle}
    (h : kind.requireFrom current = .ok ()) :
    (kind = .forget → current ≠ .purged) ∧ (kind = .restore → current = .tombstoned) := by
  simp only [requireFrom, bind_eq_ok_iff, refuseWhen_eq_ok_iff] at h
  obtain ⟨-, forget, restore⟩ := h
  cases kind <;> simp_all [nextLifecycle]

theorem applyTransition_ok (externals : Externals H) {kind : TransitionKind}
    {request : TransitionRequest} {requestHash : H} {changed : Bool}
    (fresh : tables.event? request.requestId = none)
    (h : tables.applyTransition kind request requestHash = .ok (changed, after)) :
    ∃ row, tables.scopedRecord? request.toAccess request.memoryId = some row ∧
      request.expectedRevision.all (· == row.revision) ∧
      (changed = false ∧ row.lifecycle = kind.nextLifecycle ∧ after = tables ∨
        changed = true ∧ Changes externals tables request.toRequestHeader row
          (.transition kind) requestHash after) := by
  simp only [applyTransition, bind_eq_ok_iff, okOr_eq_ok_iff, refuseWhen_eq_ok_iff] at h
  obtain ⟨row, found, -, expected, ⟨⟩, from_ok, h⟩ := h
  obtain ⟨forget, restore⟩ := requireFrom_ok from_ok
  refine ⟨row, found, ?_, ?_⟩
  · cases named : request.expectedRevision <;> simp_all
  split at h
  · rename_i already
    obtain ⟨rfl, rfl⟩ := Prod.mk.inj (pure_eq_ok_iff.mp h)
    exact .inl ⟨rfl, already, rfl⟩
  · rename_i different
    simp only [bind_eq_ok_iff, successor_eq_ok_iff, pure_eq_ok_iff] at h
    obtain ⟨_, ⟨-, rfl⟩, revised, wrote, finished, done, same⟩ := h
    cases same
    obtain rfl := reviseRecord_ok wrote
    obtain ⟨-, rfl⟩ := finishChange_ok done
    refine .inr ⟨rfl, found, ?_, fresh, ?_⟩
    · cases kind with
      | forget =>
          have := forget rfl
          cases state : row.lifecycle <;> simp_all [Change.Permits, Lifecycle.isLive, nextLifecycle]
      | restore => exact restore rfl
      | purge => exact different
    · cases kind <;> rfl

theorem insertCapture_ok {request : CaptureRequest}
    {provenance : Option (MemoryNudgeProvenance H)}
    (h : tables.insertCapture externals request provenance = .ok after) :
    Captures externals tables request provenance after := by
  simp only [insertCapture, bind_eq_ok_iff, toI64Timestamp, toI64_eq_ok_iff,
    insertRecord_ok_iff, syncIndex_some_ok_iff] at h
  obtain ⟨_, ⟨-, rfl⟩, recorded, ⟨unknown, uncaptured, rfl⟩, revised, inserted, told, event,
    nudged, nudge, -, rfl⟩ := h
  obtain rfl := insertRevision_ok inserted
  obtain ⟨fresh, rfl⟩ := insertEvent_ok event
  obtain rfl := insertNudge_ok nudge
  exact ⟨unknown, uncaptured, fresh, rfl⟩

section Inversion

variable [DecidableEq H]

/-- What an event recorded under a request's identifier answers it with. -/
theorem replayOr_ok {requestId : Id} {requestHash : H} {revision : Nat}
    {fresh : Except MemoryRepositoryError (Nat × Tables H)}
    (h : tables.replayOr requestId requestHash fresh = .ok (revision, after)) :
    (∃ event, tables.event? requestId = some event ∧ event.requestHash = requestHash ∧
      revision = event.revision ∧ after = tables) ∨
    tables.event? requestId = none ∧ fresh = .ok (revision, after) := by
  unfold replayOr at h
  split at h
  · rename_i event seen
    simp only [bind_eq_ok_iff, refuseWhen_eq_ok_iff, pure_eq_ok_iff, not_not] at h
    obtain ⟨-, same, answer⟩ := h
    cases answer
    exact .inl ⟨event, seen, same, rfl, rfl⟩
  · exact .inr ⟨‹_›, h⟩

theorem validateAs_ok {request : ValidateRequest} {revision : Nat}
    (h : tables.validateAs externals request = .ok (revision, after)) :
    let requestHash := externals.blake3 (MemoryRequest.validate request : MemoryRequest H).material
    (∃ event, tables.event? request.requestId = some event ∧
      event.requestHash = requestHash ∧ revision = event.revision ∧ after = tables) ∨
    ∃ row decision basis reason, revision = row.revision + 1 ∧
      Changes externals tables request.toRequestHeader row
        (.validate decision basis reason) requestHash after := by
  simp only [validateAs, bind_eq_ok_iff] at h
  obtain ⟨-, -, -, -, decision, decided, -, -, h⟩ := h
  refine (replayOr_ok h).imp id ?_
  rintro ⟨fresh, h⟩
  simp only [bind_eq_ok_iff, pure_eq_ok_iff] at h
  obtain ⟨⟨row, next⟩, live, revised, wrote, finished, done, same⟩ := h
  cases same
  obtain ⟨found, alive, expected, rfl⟩ := liveRecord_ok live
  obtain rfl := reviseOne_ok wrote
  obtain ⟨-, rfl⟩ := finishChange_ok done
  refine ⟨row, decision, _, _, rfl, found, ⟨alive, validateDecision_ok decided⟩, fresh, ?_⟩
  rw [← expected]
  rfl

theorem correctAs_ok {request : CorrectRequest} {revision : Nat}
    (h : tables.correctAs externals request = .ok (revision, after)) :
    let requestHash := externals.blake3 (MemoryRequest.correct request : MemoryRequest H).material
    (∃ event, tables.event? request.requestId = some event ∧
      event.requestHash = requestHash ∧ revision = event.revision ∧ after = tables) ∨
    ∃ row content, revision = row.revision + 1 ∧
      Changes externals tables request.toRequestHeader row (.correct content) requestHash
        after := by
  simp only [correctAs, bind_eq_ok_iff] at h
  obtain ⟨-, -, -, -, h⟩ := h
  refine (replayOr_ok h).imp id ?_
  rintro ⟨fresh, h⟩
  simp only [bind_eq_ok_iff, pure_eq_ok_iff, toI64Revision, toI64Timestamp, toI64_eq_ok_iff] at h
  obtain ⟨⟨row, next⟩, live, _, ⟨-, rfl⟩, _, ⟨-, rfl⟩, kept, inserted, revised, wrote, finished,
    done, same⟩ := h
  cases same
  obtain ⟨found, alive, expected, rfl⟩ := liveRecord_ok live
  obtain rfl := insertRevision_ok inserted
  obtain rfl := reviseOne_ok wrote
  obtain ⟨-, rfl⟩ := finishChange_ok done
  refine ⟨row, request.content, rfl, found, alive, fresh, ?_⟩
  obtain ⟨memory, owner, scope⟩ := scopedRecord?_eq_some found
  have assigned : ∀ other, request.selects row.revision other = true →
      { other with
        revision := row.revision + 1, observedAtMs := request.observedAtMs
        contentHash := some (hashContent externals request.memoryId request.ownerId
          request.scopeKind request.content)
        content := some request.content, lifecycle := .candidate, validation := .unreviewed
        validationBasis := none, validationReason := none } =
      Change.assign externals
        { other with revision := row.revision + 1, observedAtMs := request.observedAtMs }
        (.correct request.content) := by
    intro other selected
    simp only [RequestHeader.selects, Bool.and_eq_true, beq_iff_eq] at selected
    simp only [Change.assign, selected]
  rw [changed, ← updateWhere_congr assigned]
  simp only [Change.next, Change.assign, memory, owner, scope, ← expected]
  rfl

theorem transition_ok {kind : TransitionKind} {request : TransitionRequest} {changed : Bool}
    (h : tables.transition externals kind request = .ok (changed, after)) :
    let requestHash :=
      externals.blake3 (MemoryRequest.transition kind request : MemoryRequest H).material
    (∃ event, tables.event? request.requestId = some event ∧
      event.requestHash = requestHash ∧ changed = false ∧ after = tables) ∨
    tables.event? request.requestId = none ∧
      ∃ row, tables.scopedRecord? request.toAccess request.memoryId = some row ∧
        request.expectedRevision.all (· == row.revision) ∧
        (changed = false ∧ row.lifecycle = kind.nextLifecycle ∧ after = tables ∨
          changed = true ∧ Changes externals tables request.toRequestHeader row
            (.transition kind) requestHash after) := by
  simp only [transition, bind_eq_ok_iff] at h
  obtain ⟨-, -, -, -, h⟩ := h
  split at h
  · rename_i event seen
    simp only [bind_eq_ok_iff, refuseWhen_eq_ok_iff, pure_eq_ok_iff, not_not] at h
    obtain ⟨-, same, answer⟩ := h
    cases answer
    exact .inl ⟨event, seen, same, rfl, rfl⟩
  · exact .inr ⟨‹_›, applyTransition_ok externals ‹_› h⟩

theorem capture_ok {request : CaptureRequest} {provenance : Option (MemoryNudgeProvenance H)}
    {outcome : MemoryCaptureOutcome H}
    (h : tables.capture externals request provenance = .ok (outcome, after)) :
    (∃ row contentHash, tables.capture? request.requestId = some row ∧
      row.contentHash = some contentHash ∧
      row.requestHash = hashRequest externals request.toRequestHeader request.content ∧
      row.memoryKind = request.memoryKind ∧
      outcome = ⟨contentHash, false, tables.isIndexDirty request.memoryId⟩ ∧ after = tables) ∨
    outcome = ⟨hashContent externals request.memoryId request.ownerId request.scopeKind
      request.content, true, false⟩ ∧ Captures externals tables request provenance after := by
  have main : tables.captureWithKindAsProvenance externals request provenance =
      .ok (outcome, after) := by
    cases provenance with
    | none => exact h
    | some nudge =>
        obtain ⟨-, -, h⟩ := bind_eq_ok_iff.mp h
        exact h
  simp only [captureWithKindAsProvenance, bind_eq_ok_iff] at main
  obtain ⟨-, -, -, -, main⟩ := main
  unfold answerCapture at main
  split at main
  · rename_i row seen
    simp only [bind_eq_ok_iff, okOr_eq_ok_iff, refuseWhen_eq_ok_iff, pure_eq_ok_iff, not_or,
      not_not] at main
    obtain ⟨contentHash, stored, -, ⟨same, kind⟩, answer⟩ := main
    cases answer
    exact .inl ⟨row, contentHash, seen, stored, same, kind, rfl, rfl⟩
  · split at main
    · split at main <;> cases main
    · obtain ⟨_, inserted, answer⟩ := bind_eq_ok_iff.mp main
      obtain ⟨rfl, rfl⟩ := Prod.mk.inj (pure_eq_ok_iff.mp answer)
      exact .inr ⟨rfl, insertCapture_ok inserted⟩

/-! ### Calls without a request identifier -/

/-- A link adds nothing, or one relation of a memory that can be found. -/
theorem linkFileRelationAs_ok {request : LinkRequest H} {view : MemoryFileRelationView H}
    (h : tables.linkFileRelationAs request = .ok (view, after)) :
    after = tables ∨
      ∃ row relation, tables.scopedRecord? request.toAccess request.memoryId = some row ∧
        row.lifecycle.isLive = true ∧ relation.memoryId = request.memoryId ∧
        relation.ownerId = request.ownerId ∧ relation.scopeKind = request.scopeKind ∧
        after = { tables with relations := tables.relations ++ [relation] } := by
  simp only [linkFileRelationAs, requireEligible, bind_eq_ok_iff, okOr_eq_ok_iff,
    refuseWhen_eq_ok_iff] at h
  obtain ⟨-, -, -, -, -, ⟨row, found, -, eligible, -⟩, h⟩ := h
  split at h
  · simp only [bind_eq_ok_iff, pure_eq_ok_iff] at h
    obtain ⟨-, -, answer⟩ := h
    exact .inl (Prod.mk.inj answer).2.symm
  · simp only [bind_eq_ok_iff] at h
    obtain ⟨-, -, h⟩ := h
    split at h
    · simp only [bind_eq_ok_iff, pure_eq_ok_iff] at h
      obtain ⟨-, -, _, -, answer⟩ := h
      exact .inl (Prod.mk.inj answer).2.symm
    · simp only [insertLink, insertRelation, bind_eq_ok_iff, pure_eq_ok_iff] at h
      obtain ⟨_, -, _, -, _, ⟨-, -, -, -, -, -, rfl⟩, _, -, answer⟩ := h
      cases answer
      refine .inr ⟨row, _, found, ?_, rfl, rfl, rfl, rfl⟩
      simp only [Bool.or_eq_true, Bool.not_eq_true', not_or, Bool.not_eq_false] at eligible
      exact eligible.1.1

end Inversion

theorem unlinkFileRelationAs_ok {request : UnlinkRequest} {deleted : Bool}
    (h : tables.unlinkFileRelationAs request = .ok (deleted, after)) :
    ∃ relations, relations.Sublist tables.relations ∧ after = { tables with relations } := by
  simp only [unlinkFileRelationAs, bind_eq_ok_iff, pure_eq_ok_iff] at h
  obtain ⟨-, -, -, -, -, -, answer⟩ := h
  cases answer
  exact ⟨_, List.filter_sublist, rfl⟩

theorem grantAccessAs_ok {request : GrantRequest} {revision : Nat}
    (h : tables.grantAccessAs request = .ok (revision, after)) :
    ∃ grants, after = { tables with grants } := by
  simp only [grantAccessAs, grantAccess, bind_eq_ok_iff, pure_eq_ok_iff] at h
  obtain ⟨-, -, -, -, -, -, -, -, -, -, -, -, _, -, _, -, _, -, answer⟩ := h
  exact ⟨_, (Prod.mk.inj answer).2.symm⟩

theorem revokeAccessAs_ok {request : RevokeRequest} {revision : Nat}
    (h : tables.revokeAccessAs request = .ok (revision, after)) :
    ∃ grants, after = { tables with grants } := by
  simp only [revokeAccessAs, revokeAccess, bind_eq_ok_iff, pure_eq_ok_iff] at h
  obtain ⟨-, -, -, -, _, -, -, -, _, -, _, -, _, -, _, -, answer⟩ := h
  exact ⟨_, (Prod.mk.inj answer).2.symm⟩

end Tables

/-! ### Requests -/

/-- The answer tells of a change: something was created or changed, or the revision belongs to
a request that had not been seen. -/
def Reply.TellsChange (tables : Tables H) (request : MemoryRequest H) : Reply H → Prop
  | .captured outcome => outcome.created = true
  | .revised _ => tables.event? request.header.requestId = none
  | .changed answer => answer = true

/-- A request is answered from what its call answers, and leaves the state of the call. -/
theorem answered {ε α β σ : Type} {call : Except ε (α × σ)} {rest : α × σ → Except ε (β × σ)}
    {answer : α → β} {b : β} {t : σ} (h : call >>= rest = .ok (b, t))
    (answers : ∀ a s, rest (a, s) = .ok (answer a, s)) : ∃ a, call = .ok (a, t) ∧ b = answer a := by
  obtain ⟨⟨a, s⟩, done, same⟩ := bind_eq_ok_iff.mp h
  cases (answers a s).symm.trans same
  exact ⟨a, done, rfl⟩

section Perform

variable [DecidableEq H] {request : MemoryRequest H} {reply : Reply H}

/-- A request changes nothing, or captures a memory, or changes the one it names. -/
theorem perform_ok (h : tables.perform externals request = .ok (reply, after)) :
    ¬ reply.TellsChange tables request ∧ after = tables ∨
    reply.TellsChange tables request ∧
      ((∃ capture provenance, request = .capture capture provenance ∧
          Captures externals tables capture provenance after) ∨
        request.isCapture = false ∧ ∃ row change, Changes externals tables request.header row
          change (externals.blake3 request.material) after) := by
  cases request with
  | capture request provenance =>
      obtain ⟨outcome, done, rfl⟩ := answered h fun _ _ => rfl
      obtain ⟨row, contentHash, -, -, -, -, rfl, rfl⟩ | ⟨rfl, captures⟩ := capture_ok done
      · exact .inl ⟨nofun, rfl⟩
      · exact .inr ⟨rfl, .inl ⟨request, provenance, rfl, captures⟩⟩
  | validate request =>
      obtain ⟨revision, done, rfl⟩ := answered h fun _ _ => rfl
      obtain ⟨event, seen, -, rfl, rfl⟩ | ⟨row, _, _, _, -, changes⟩ :=
        validateAs_ok done
      · exact .inl ⟨by simp [Reply.TellsChange, MemoryRequest.header, seen], rfl⟩
      · exact .inr ⟨changes.fresh, .inr ⟨rfl, row, _, changes⟩⟩
  | correct request =>
      obtain ⟨revision, done, rfl⟩ := answered h fun _ _ => rfl
      obtain ⟨event, seen, -, rfl, rfl⟩ | ⟨row, _, -, changes⟩ := correctAs_ok done
      · exact .inl ⟨by simp [Reply.TellsChange, MemoryRequest.header, seen], rfl⟩
      · exact .inr ⟨changes.fresh, .inr ⟨rfl, row, _, changes⟩⟩
  | transition kind request =>
      obtain ⟨changed, done, rfl⟩ := answered h fun _ _ => rfl
      obtain ⟨event, -, -, rfl, rfl⟩ |
        ⟨-, row, -, -, ⟨rfl, -, rfl⟩ | ⟨rfl, changes⟩⟩ := transition_ok done
      · exact .inl ⟨nofun, rfl⟩
      · exact .inl ⟨nofun, rfl⟩
      · exact .inr ⟨rfl, .inr ⟨rfl, row, _, changes⟩⟩

end Perform

end Aegis.MemoryStore
