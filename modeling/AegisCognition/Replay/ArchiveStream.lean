import AegisCognition.Replay.Archive

/-!
# Writing an archive

The stream checks a batch with its own copy of the ordering rules, then pushes the events
one by one and seals a segment whenever enough are pending.

A call that fails drops the stream here: what it leaves behind in memory is not modelled.
-/

namespace Aegis.Replay

open Foundation

structure SegmentedArrowAuditStream extends ReplayFlags where
  runId : RunId
  maxEventsPerSegment : Nat
  pendingEvents : List RunEvent := []
  entries : List RunEventSegmentEntry := []
  previousSegmentHash : Hash := Hash.zero
  lastEventHash : Hash := Hash.zero
  nextEventId : EventId := 1

/-- Saturating addition of one. -/
def saturatingNext (eventId : EventId) : EventId :=
  if eventId = BitVec.allOnes 64 then eventId else eventId + 1

/-- What the checking pass of a batch expects next. -/
structure ExpectedEvent extends ReplayFlags where
  eventId : EventId
  previousHash : Hash

namespace SegmentedArrowAuditStream

variable (blake3 : Hasher) (arrow : ArrowIpc)

def messages : OrderingMessages where
  missingGoalIntake := "segmented arrow audit event missing prior goal intake"
  missingContextPack := "segmented arrow audit event missing prior context pack"
  missingLlmResponse := "segmented arrow audit event missing prior llm response"
  missingToolCall := "segmented arrow audit event missing prior tool call"
  missingToolCompletion := "segmented arrow audit memory commit missing tool completion"
  nestedToolCall := "segmented arrow audit nested pending tool call"
  missingPolicyDecision := "segmented arrow audit event missing prior policy decision"
  missingEvidence := "segmented arrow audit missing tool execution evidence hash"
  completionMismatch := "segmented arrow audit tool completion binding mismatch"
  missingMemoryBinding := "segmented arrow audit missing memory commit binding"
  memoryMismatch := "segmented arrow audit memory commit binding mismatch"
  missingPolicyToolIr := "segmented arrow audit missing policy typed tool ir hash"

/-- The directory with the writer's lock, and the empty stream. -/
def create (directory : ArchiveDirectory) (runId : RunId) (maxEvents : Nat) :
    Except String (ArchiveDirectory × SegmentedArrowAuditStream) :=
  if runId == 0 || maxEvents == 0 || decide (Replay.maxEventsPerSegment < maxEvents) then
    .error "invalid segmented arrow audit stream config"
  else if directory.writerLocks runId then
    .error "segmented arrow audit stream already has a writer"
  else
    .ok ({ directory with
            writerLocks := fun other => decide (other = runId) || directory.writerLocks other },
      { runId, maxEventsPerSegment := maxEvents })

/-- The local copies that the checking pass starts from. -/
def expected (stream : SegmentedArrowAuditStream) : ExpectedEvent where
  toReplayFlags := stream.toReplayFlags
  eventId := stream.nextEventId
  previousHash := stream.lastEventHash

/-- One event of the checking pass. -/
def checkEvent (runId : RunId) (expected : ExpectedEvent) (event : RunEvent) :
    Except String ExpectedEvent :=
  if !event.isValid blake3 || event.runId != runId || event.eventId != expected.eventId ||
      event.previousEventHash != expected.previousHash then
    .error "invalid segmented arrow audit event sequence"
  else do
    scanOrdering blake3 messages expected.toReplayFlags event
    let flags ← scanUpdate messages expected.toReplayFlags event
    return { toReplayFlags := flags, eventId := saturatingNext expected.eventId,
             previousHash := event.eventHash }

/-- The Arrow file of the pending events; its own writer checks them once more. -/
def encodePending (events : List RunEvent) : Except String (List UInt8) :=
  if events.isEmpty || events.any (!·.isValid blake3) then .error "invalid run event batch"
  else .ok (arrow.encodeStream (batchFromEvents events))

/-- The staged file is moved into place before its evidence is taken. -/
def flushSegment (files : Files) (stream : SegmentedArrowAuditStream) :
    Except String (Files × SegmentedArrowAuditStream) :=
  if stream.pendingEvents.isEmpty then .error "empty segmented arrow audit segment"
  else
    let segmentId := BitVec.ofNat 64 stream.entries.length + 1
    let path := SegmentPath.segment stream.runId segmentId
    let commitPath := SegmentPath.commit stream.runId segmentId
    if (files path).isSome then .error "segmented arrow audit segment already exists"
    else if (files commitPath).isSome then
      .error "segmented arrow audit segment commit already exists"
    else do
      let bytes ← encodePending blake3 arrow stream.pendingEvents
      let published := files.write path bytes
      let (arrowFileBytes, arrowFileHash) ← arrowStreamFileEvidence blake3 published path
      let entry ← RunEventSegmentEntry.fromEvents blake3 segmentId stream.pendingEvents
        stream.previousSegmentHash arrowFileBytes arrowFileHash (.syncedTempPublish true)
      let committed ←
        RunEventSegmentCommitProof.writeSidecar blake3 published commitPath stream.runId entry
      return (committed,
        { stream with
          previousSegmentHash := entry.segmentHash
          entries := stream.entries ++ [entry]
          pendingEvents := [] })

/-- The stream with the event pending, before a full segment is sealed. -/
def pushEvent (stream : SegmentedArrowAuditStream) (event : RunEvent) :
    Except String SegmentedArrowAuditStream :=
  if event.kind == .toolCallRequested && stream.hasPendingToolCall then
    .error messages.nestedToolCall
  else do
    let flags ← scanUpdate messages stream.toReplayFlags event
    return { stream with
      toReplayFlags := flags
      pendingEvents := stream.pendingEvents ++ [event]
      lastEventHash := event.eventHash
      nextEventId := saturatingNext event.eventId }

/-- One event of the second pass. -/
def storeEvent (state : Files × SegmentedArrowAuditStream) (event : RunEvent) :
    Except String (Files × SegmentedArrowAuditStream) := do
  let stream ← pushEvent state.2 event
  if stream.pendingEvents.length == stream.maxEventsPerSegment then
    flushSegment blake3 arrow state.1 stream
  else return (state.1, stream)

def appendEvents (state : Files × SegmentedArrowAuditStream) (events : List RunEvent) :
    Except String (Files × SegmentedArrowAuditStream) :=
  if events.isEmpty then .error "empty segmented arrow audit batch"
  else do
    let _ ← events.foldlM (checkEvent blake3 state.2.runId) state.2.expected
    events.foldlM (storeEvent blake3 arrow) state

def flush (files : Files) (stream : SegmentedArrowAuditStream) :
    Except String (Files × SegmentedArrowAuditStream) :=
  if stream.pendingEvents.isEmpty then .ok (files, stream)
  else flushSegment blake3 arrow files stream

/-- The lock is released once the manifest is known. -/
def finish (directory : ArchiveDirectory) (stream : SegmentedArrowAuditStream) :
    Except String (ArchiveDirectory × RunEventSegmentManifest) := do
  let (files, stream) ← flush blake3 arrow directory.files stream
  if stream.entries.isEmpty then .error "empty segmented arrow audit stream"
  else
    return ({ files
              writerLocks := fun other =>
                !decide (other = stream.runId) && directory.writerLocks other },
      RunEventSegmentManifest.new blake3 stream.runId stream.entries)

/-- A stream created, given the batches one after the other, and finished. -/
def writeArchive (directory : ArchiveDirectory) (runId : RunId) (maxEvents : Nat)
    (batches : List (List RunEvent)) :
    Except String (ArchiveDirectory × RunEventSegmentManifest) := do
  let (directory, stream) ← create directory runId maxEvents
  let (files, stream) ←
    batches.foldlM (appendEvents blake3 arrow) (directory.files, stream)
  finish blake3 arrow { directory with files } stream

end SegmentedArrowAuditStream

end Aegis.Replay
