import Mathlib.Data.List.AList
import AegisCognition.Replay.Arrow

/-!
# The segment archive

A run is archived as a sequence of Arrow files, each with a commit sidecar, and a manifest
that lists them. The directory is a map from file names to bytes: a write that succeeds
puts the whole file in place, and a read returns what was written. Calls that fail for
reasons of the file system alone are left out.

The reader keeps decoded segments in a cache that lives as long as the process.
-/

namespace Aegis.Replay

open Foundation

/-- The files of an archive, by run and segment. -/
inductive SegmentPath where
  | segment (runId : RunId) (segmentId : BitVec 64)
  | commit (runId : RunId) (segmentId : BitVec 64)
  deriving DecidableEq

abbrev Files := SegmentPath → Option (List UInt8)

/-- The archive directory: its files, and the runs whose writer lock exists. -/
structure ArchiveDirectory where
  files : Files
  writerLocks : RunId → Bool

def Files.write (files : Files) (path : SegmentPath) (bytes : List UInt8) : Files :=
  fun other => if other = path then some bytes else files other

structure RunEventSegmentPublishEvidence where
  stagedTempFileUsed : Bool
  tempFileSyncedBeforePublish : Bool
  publishCompleted : Bool
  parentDirectorySyncAttempted : Bool
  deriving DecidableEq

def RunEventSegmentPublishEvidence.syncedTempPublish (parentDirectorySyncAttempted : Bool) :
    RunEventSegmentPublishEvidence where
  stagedTempFileUsed := true
  tempFileSyncedBeforePublish := true
  publishCompleted := true
  parentDirectorySyncAttempted

/-- The published flags as the hashes and the sidecar spell them. -/
def RunEventSegmentPublishEvidence.bytes (evidence : RunEventSegmentPublishEvidence) :
    List UInt8 :=
  [boolByte evidence.stagedTempFileUsed, boolByte evidence.tempFileSyncedBeforePublish,
    boolByte evidence.publishCompleted, boolByte evidence.parentDirectorySyncAttempted]

/-- All four flags, as every check asks for them. -/
def RunEventSegmentPublishEvidence.complete (evidence : RunEventSegmentPublishEvidence) : Bool :=
  evidence.stagedTempFileUsed && evidence.tempFileSyncedBeforePublish &&
    evidence.publishCompleted && evidence.parentDirectorySyncAttempted

/-- An entry of the manifest. The source keeps the four published flags as fields. -/
structure RunEventSegmentEntry where
  segmentId : BitVec 64
  startEventId : EventId
  endEventId : EventId
  eventCount : BitVec 64
  firstEventHash : Hash
  lastEventHash : Hash
  segmentHash : Hash
  previousSegmentHash : Hash
  arrowSchemaHash : Hash
  arrowFileBytes : BitVec 64
  arrowFileHash : Hash
  segmentCommitHash : Hash
  publishEvidence : RunEventSegmentPublishEvidence

structure RunEventSegmentCommitProof where
  runId : RunId
  segmentId : BitVec 64
  startEventId : EventId
  endEventId : EventId
  eventCount : BitVec 64
  arrowSchemaHash : Hash
  arrowFileBytes : BitVec 64
  arrowFileHash : Hash
  firstEventHash : Hash
  lastEventHash : Hash
  segmentHash : Hash
  previousSegmentHash : Hash
  publishEvidence : RunEventSegmentPublishEvidence
  commitHash : Hash
  deriving DecidableEq

section Hashes

def arrowRunEventSchemaPreimage : List UInt8 :=
  utf8Bytes "arrow-run-event-schema-v7" ++
    utf8Bytes ("event_id:u64,run_id_hi:u64,run_id_lo:u64,kind:u8," ++
      "subject_id_hi:u64,subject_id_lo:u64,primary_hash:binary," ++
      "secondary_hash:nullable-binary,previous_event_hash:binary,event_hash:binary," ++
      "kind14:memory_commit_recorded,kind15:context_pack_candidate_proof_recorded," ++
      "kind16:task_selection_proof_recorded,kind17:browser_observation_packet_recorded," ++
      "kind18:goal_intake_recorded,kind19:agentic_evidence_execution_recorded," ++
      "kind20:skill_admission_recorded,kind21:browser_ops_bench_verification_recorded," ++
      "kind22:cluster_candidate_accepted,kind23:shadow_seal_recorded," ++
      "kind24:lab_event_recorded")

def runEventSegmentPreimage (segmentId : BitVec 64) (events : List RunEvent)
    (previousSegmentHash : Hash) : List UInt8 :=
  u64Bytes segmentId ++ previousSegmentHash.bytes ++ leBytes 8 events.length ++
    (events.map fun event => event.eventHash.bytes).flatten

/-- What the manifest hash takes from an entry. -/
def RunEventSegmentEntry.manifestBytes (entry : RunEventSegmentEntry) : List UInt8 :=
  u64Bytes entry.segmentId ++ u64Bytes entry.startEventId ++ u64Bytes entry.endEventId ++
    u64Bytes entry.eventCount ++ entry.firstEventHash.bytes ++ entry.lastEventHash.bytes ++
    entry.segmentHash.bytes ++ entry.previousSegmentHash.bytes ++ entry.arrowSchemaHash.bytes ++
    u64Bytes entry.arrowFileBytes ++ entry.arrowFileHash.bytes ++
    entry.segmentCommitHash.bytes ++ entry.publishEvidence.bytes

def runEventManifestPreimage (runId : RunId) (entries : List RunEventSegmentEntry) :
    List UInt8 :=
  utf8Bytes "aegis-run-event-segment-manifest-v1" ++ u32Bytes 1 ++ u128Bytes runId ++
    leBytes 8 entries.length ++ (entries.map RunEventSegmentEntry.manifestBytes).flatten

/-- What the commit hash takes from a proof; the hash itself is left out. -/
def RunEventSegmentCommitProof.preimage (proof : RunEventSegmentCommitProof) : List UInt8 :=
  utf8Bytes "aegis-run-event-segment-commit-v1" ++ u128Bytes proof.runId ++
    u64Bytes proof.segmentId ++ u64Bytes proof.startEventId ++ u64Bytes proof.endEventId ++
    u64Bytes proof.eventCount ++ proof.arrowSchemaHash.bytes ++ u64Bytes proof.arrowFileBytes ++
    proof.arrowFileHash.bytes ++ proof.firstEventHash.bytes ++ proof.lastEventHash.bytes ++
    proof.segmentHash.bytes ++ proof.previousSegmentHash.bytes ++ proof.publishEvidence.bytes

variable (blake3 : Hasher)

def arrowRunEventSchemaHash : Hash :=
  blake3 arrowRunEventSchemaPreimage

def runEventSegmentHash (segmentId : BitVec 64) (events : List RunEvent)
    (previousSegmentHash : Hash) : Hash :=
  blake3 (runEventSegmentPreimage segmentId events previousSegmentHash)

def runEventManifestHash (runId : RunId) (entries : List RunEventSegmentEntry) : Hash :=
  blake3 (runEventManifestPreimage runId entries)

/-- The size of a file and the hash of its bytes. Small files are read and large ones
mapped, with the same outcome. -/
def arrowStreamFileEvidence (files : Files) (path : SegmentPath) :
    Except String (BitVec 64 × Hash) :=
  match files path with
  | none => .error "failed to open arrow stream file evidence"
  | some bytes =>
    if BitVec.ofNat 64 bytes.length == 0 then .error "empty arrow stream file evidence"
    else .ok (BitVec.ofNat 64 bytes.length, blake3 bytes)

end Hashes

namespace RunEventSegmentCommitProof

variable (blake3 : Hasher)

def magic : List UInt8 := utf8Bytes "AEGSCM1" ++ [0]
def version : BitVec 64 := 1
def hashOffset : Nat := 268
def commitBytes : Nat := hashOffset + 32

def computeHash (proof : RunEventSegmentCommitProof) : Hash :=
  blake3 proof.preimage

def fromEntry (runId : RunId) (entry : RunEventSegmentEntry) : RunEventSegmentCommitProof :=
  let proof : RunEventSegmentCommitProof :=
    { runId
      segmentId := entry.segmentId
      startEventId := entry.startEventId
      endEventId := entry.endEventId
      eventCount := entry.eventCount
      arrowSchemaHash := entry.arrowSchemaHash
      arrowFileBytes := entry.arrowFileBytes
      arrowFileHash := entry.arrowFileHash
      firstEventHash := entry.firstEventHash
      lastEventHash := entry.lastEventHash
      segmentHash := entry.segmentHash
      previousSegmentHash := entry.previousSegmentHash
      publishEvidence := entry.publishEvidence
      commitHash := Hash.zero }
  { proof with commitHash := proof.computeHash blake3 }

section

variable (proof : RunEventSegmentCommitProof)

def hasValidFields : Bool :=
  proof.runId != 0 && decide (0 < proof.segmentId) && decide (0 < proof.startEventId) &&
    decide (proof.startEventId ≤ proof.endEventId) &&
    proof.eventCount == proof.endEventId - proof.startEventId + 1 &&
    proof.arrowSchemaHash == arrowRunEventSchemaHash blake3 &&
    decide (0 < proof.arrowFileBytes) && nonzeroHash proof.arrowFileHash &&
    nonzeroHash proof.firstEventHash && nonzeroHash proof.lastEventHash &&
    nonzeroHash proof.segmentHash && proof.publishEvidence.complete

def isValid : Bool :=
  proof.hasValidFields blake3 && proof.commitHash == proof.computeHash blake3 &&
    nonzeroHash proof.commitHash

def bindsEntryFields (entry : RunEventSegmentEntry) : Bool :=
  proof.segmentId == entry.segmentId && proof.startEventId == entry.startEventId &&
    proof.endEventId == entry.endEventId && proof.eventCount == entry.eventCount &&
    proof.arrowSchemaHash == entry.arrowSchemaHash &&
    proof.arrowFileBytes == entry.arrowFileBytes &&
    proof.arrowFileHash == entry.arrowFileHash &&
    proof.firstEventHash == entry.firstEventHash &&
    proof.lastEventHash == entry.lastEventHash && proof.segmentHash == entry.segmentHash &&
    proof.previousSegmentHash == entry.previousSegmentHash &&
    proof.publishEvidence == entry.publishEvidence &&
    proof.commitHash == entry.segmentCommitHash && proof.hasValidFields blake3

def bindsEntry (entry : RunEventSegmentEntry) : Bool :=
  proof.bindsEntryFields blake3 entry && proof.isValid blake3

def encode : List UInt8 :=
  magic ++ u64Bytes version ++ u128Bytes proof.runId ++ u64Bytes proof.segmentId ++
    u64Bytes proof.startEventId ++ u64Bytes proof.endEventId ++ u64Bytes proof.eventCount ++
    proof.arrowSchemaHash.bytes ++ u64Bytes proof.arrowFileBytes ++
    proof.arrowFileHash.bytes ++ proof.firstEventHash.bytes ++ proof.lastEventHash.bytes ++
    proof.segmentHash.bytes ++ proof.previousSegmentHash.bytes ++ proof.publishEvidence.bytes ++
    (proof.computeHash blake3).bytes

end

def decodeBoolFlag (value : UInt8) : Except String Bool :=
  if value == 0 then .ok false
  else if value == 1 then .ok true
  else .error "invalid binary bool flag"

def decode (bytes : List UInt8) : Except String RunEventSegmentCommitProof :=
  if bytes.length != commitBytes then .error "invalid run event segment commit proof length"
  else if slice bytes 0 8 != magic then .error "invalid run event segment commit proof magic"
  else do
    let found ← readU64Le bytes 8
    if found != version then .error "invalid run event segment commit proof version"
    else do
      let stagedTempFileUsed ← decodeBoolFlag (byteAt bytes 264)
      let tempFileSyncedBeforePublish ← decodeBoolFlag (byteAt bytes 265)
      let publishCompleted ← decodeBoolFlag (byteAt bytes 266)
      let parentDirectorySyncAttempted ← decodeBoolFlag (byteAt bytes 267)
      let runId ← readU128Le bytes 16
      let segmentId ← readU64Le bytes 32
      let startEventId ← readU64Le bytes 40
      let endEventId ← readU64Le bytes 48
      let eventCount ← readU64Le bytes 56
      let arrowSchemaHash ← hashFromSlice (slice bytes 64 96)
      let arrowFileBytes ← readU64Le bytes 96
      let arrowFileHash ← hashFromSlice (slice bytes 104 136)
      let firstEventHash ← hashFromSlice (slice bytes 136 168)
      let lastEventHash ← hashFromSlice (slice bytes 168 200)
      let segmentHash ← hashFromSlice (slice bytes 200 232)
      let previousSegmentHash ← hashFromSlice (slice bytes 232 264)
      let commitHash ← hashFromSlice (slice bytes hashOffset commitBytes)
      let proof : RunEventSegmentCommitProof :=
        { runId, segmentId, startEventId, endEventId, eventCount, arrowSchemaHash,
          arrowFileBytes, arrowFileHash, firstEventHash, lastEventHash, segmentHash,
          previousSegmentHash,
          publishEvidence :=
            { stagedTempFileUsed, tempFileSyncedBeforePublish, publishCompleted,
              parentDirectorySyncAttempted },
          commitHash }
      if proof.commitHash != proof.computeHash blake3 || !proof.hasValidFields blake3 ||
          !nonzeroHash proof.commitHash then
        .error "invalid run event segment commit proof hash"
      else return proof

def readSidecar (files : Files) (path : SegmentPath) :
    Except String RunEventSegmentCommitProof :=
  match files path with
  | none => .error "failed to open run event segment commit sidecar"
  | some bytes =>
    if bytes.length != commitBytes then .error "invalid run event segment commit sidecar size"
    else decode blake3 bytes

/-- The sidecar is read back before the call returns. -/
def writeSidecar (files : Files) (path : SegmentPath) (runId : RunId)
    (entry : RunEventSegmentEntry) : Except String Files :=
  if (files path).isSome then .error "run event segment commit sidecar already exists"
  else
    let proof := fromEntry blake3 runId entry
    if !proof.bindsEntry blake3 entry then .error "invalid run event segment commit proof"
    else do
      let written := files.write path (proof.encode blake3)
      let recovered ← readSidecar blake3 written path
      if recovered == proof && recovered.bindsEntry blake3 entry then return written
      else .error "run event segment commit sidecar verification failed"

end RunEventSegmentCommitProof

namespace RunEventSegmentEntry

variable (blake3 : Hasher)

def refreshSegmentCommitHash (runId : RunId) (entry : RunEventSegmentEntry) :
    RunEventSegmentEntry :=
  { entry with
    segmentCommitHash := (RunEventSegmentCommitProof.fromEntry blake3 runId entry).commitHash }

def fromEvents (segmentId : BitVec 64) (events : List RunEvent) (previousSegmentHash : Hash)
    (arrowFileBytes : BitVec 64) (arrowFileHash : Hash)
    (publishEvidence : RunEventSegmentPublishEvidence) : Except String RunEventSegmentEntry :=
  match events.head?, events.getLast? with
  | some first, some last =>
    if arrowFileBytes == 0 || !nonzeroHash arrowFileHash then
      .error "invalid run event arrow segment file evidence"
    else
      .ok (refreshSegmentCommitHash blake3 first.runId
        { segmentId
          startEventId := first.eventId
          endEventId := last.eventId
          eventCount := BitVec.ofNat 64 events.length
          firstEventHash := first.eventHash
          lastEventHash := last.eventHash
          segmentHash := runEventSegmentHash blake3 segmentId events previousSegmentHash
          previousSegmentHash
          arrowSchemaHash := arrowRunEventSchemaHash blake3
          arrowFileBytes
          arrowFileHash
          segmentCommitHash := Hash.zero
          publishEvidence })
  | _, _ => .error "empty run event segment"

section

variable (entry : RunEventSegmentEntry) (events : List RunEvent)

/-- The ends, the count and the file evidence, which both matches compare. -/
def matchesEnds : Bool :=
  (events.head?.any fun event =>
      event.eventId == entry.startEventId && event.eventHash == entry.firstEventHash) &&
    (events.getLast?.any fun event =>
      event.eventId == entry.endEventId && event.eventHash == entry.lastEventHash) &&
    entry.eventCount == BitVec.ofNat 64 events.length &&
    entry.arrowSchemaHash == arrowRunEventSchemaHash blake3 &&
    decide (0 < entry.arrowFileBytes) && nonzeroHash entry.arrowFileHash &&
    entry.publishEvidence.complete

def matchesEventsAfterManifestValidation : Bool :=
  entry.matchesEnds blake3 events &&
    entry.segmentHash ==
      runEventSegmentHash blake3 entry.segmentId events entry.previousSegmentHash

def matchesCachedEvents : Bool :=
  entry.matchesEnds blake3 events && nonzeroHash entry.segmentHash &&
    nonzeroHash entry.segmentCommitHash

end

def matchesCommitFile (files : Files) (path : SegmentPath) (runId : RunId)
    (entry : RunEventSegmentEntry) : Bool :=
  match RunEventSegmentCommitProof.readSidecar blake3 files path with
  | .ok proof => proof.runId == runId && proof.bindsEntryFields blake3 entry
  | .error _ => false

end RunEventSegmentEntry

structure RunEventSegmentManifest where
  runId : RunId
  entries : List RunEventSegmentEntry
  manifestHash : Hash

namespace RunEventSegmentManifest

variable (blake3 : Hasher)

def new (runId : RunId) (entries : List RunEventSegmentEntry) : RunEventSegmentManifest :=
  let entries := entries.map (RunEventSegmentEntry.refreshSegmentCommitHash blake3 runId)
  { runId, entries, manifestHash := runEventManifestHash blake3 runId entries }

/-- What the validity check carries from one entry to the next. -/
structure Position where
  index : Nat := 0
  previousHash : Hash := Hash.zero
  previousEnd : EventId := 0

/-- The first entry may start anywhere; every other follows its predecessor. -/
def Position.startOk (position : Position) (start : EventId) : Bool :=
  position.index == 0 ||
    (position.previousEnd != BitVec.allOnes 64 && start == position.previousEnd + 1)

def checkEntry (runId : RunId) (position : Position) (entry : RunEventSegmentEntry) :
    Option Position :=
  if entry.segmentId == BitVec.ofNat 64 position.index + 1 &&
      entry.previousSegmentHash == position.previousHash &&
      entry.arrowSchemaHash == arrowRunEventSchemaHash blake3 &&
      decide (0 < entry.arrowFileBytes) && nonzeroHash entry.arrowFileHash &&
      entry.segmentCommitHash ==
        (RunEventSegmentCommitProof.fromEntry blake3 runId entry).commitHash &&
      entry.publishEvidence.complete && decide (entry.startEventId ≤ entry.endEventId) &&
      entry.eventCount == entry.endEventId - entry.startEventId + 1 &&
      position.startOk entry.startEventId then
    some { index := position.index + 1, previousHash := entry.segmentHash,
           previousEnd := entry.endEventId }
  else none

def isValid (manifest : RunEventSegmentManifest) : Bool :=
  manifest.manifestHash == runEventManifestHash blake3 manifest.runId manifest.entries &&
    (manifest.entries.foldlM (checkEntry blake3 manifest.runId) {}).isSome

end RunEventSegmentManifest

end Aegis.Replay
